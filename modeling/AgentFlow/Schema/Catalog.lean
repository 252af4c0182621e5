import AgentFlow.Catalog.Template
import AgentFlow.Catalog.Tool
import AgentFlow.Schema.Graph
import AgentFlow.Validation

/-!
# Reading catalog entries and findings

Tools, templates and written findings from JSON values. A template is refused if one of its edges
does not go between its nodes.
-/

namespace AgentFlow.Schema

open Catalog

def tool : Reader Tool :=
  record "ToolDefinition" fun fields =>
    Tool.mk <$> required fields "id" text
      <*> required fields "name" text
      <*> required fields "description" text
      <*> required fields "category" (choice (ToolCategory.all.map fun c => (c.text, c)))

def templateNode : Reader TemplateNode :=
  record "TemplateNode" fun fields =>
    TemplateNode.mk <$> required fields "kind" role
      <*> required fields "label" text
      <*> required fields "description" text
      <*> optional fields "tools" (listOf text) []

def templateEdge : Reader TemplateEdge :=
  record "TemplateEdge" fun fields =>
    TemplateEdge.mk <$> required fields "source" whole
      <*> required fields "target" whole
      <*> optional fields "route_key" (nullable text) none

/-- The template, if its edges go between its nodes. -/
def checkEdges (t : Template) : Outcome Template :=
  match t.strayEdge? with
  | none => .ok t
  | some e => .fault (.refused (e.outOfRange t.nodes.length))

def template : Reader Template :=
  record "GraphTemplate" fun fields =>
    Outcome.andThen
      (Template.mk <$> required fields "id" text
        <*> required fields "name" text
        <*> required fields "description" text
        <*> required fields "nodes" (listOf templateNode)
        <*> required fields "edges" (listOf templateEdge))
      checkEdges

def issue : Reader IssueRecord :=
  record "ValidationIssue" fun fields =>
    IssueRecord.mk <$> required fields "code" text
      <*> required fields "message" text
      <*> optional fields "node_id" (nullable text) none
      <*> optional fields "edge_id" (nullable text) none

end AgentFlow.Schema
