import AgentFlow.Catalog.Template
import AgentFlow.Catalog.Tool
import AgentFlow.Http.Body
import AgentFlow.Http.Url
import AgentFlow.Skeleton.Target
import AgentFlow.Text.Lines
import AgentFlow.Validation

/-!
# The web service

The catalog, normalization, validation and code generation over HTTP. A graph comes in the body of a
request as JSON; a body that is no graph is answered with its faults before anything else is looked
at. What the service cannot say, it answers with a failure of its own.
-/

namespace AgentFlow.Http

open Schema (Fault)

/-- A request. Its address may hold fields of the query besides those that come apart. -/
structure HttpRequest where
  method : String
  address : String
  query : List (String × String)
  body : Body

inductive Content where
  | json (v : Json)
  | text (s : String)
  deriving DecidableEq

structure Response where
  status : Nat
  content : Content
  deriving DecidableEq

inductive Endpoint where
  | health
  | tools
  | templates
  | template (id : String)
  | normalize
  | validate
  | generate
  deriving DecidableEq, Repr

def Endpoint.method : Endpoint → String
  | .health | .tools | .templates | .template _ => "GET"
  | .normalize | .validate | .generate => "POST"

/-- The start of the paths of single templates. -/
def templateRoot : String := "/api/templates/"

/-- The endpoint at a path, unless it is about a single template. -/
def fixedEndpoint? (path : String) : Option Endpoint :=
  match path with
  | "/" => some .health
  | "/api/tools" => some .tools
  | "/api/templates" => some .templates
  | "/api/graphs/normalize" => some .normalize
  | "/api/graphs/validate" => some .validate
  | "/api/graphs/generate" => some .generate
  | _ => none

/-- The endpoint of the single template at a path. -/
def templateEndpoint? (path : String) : Option Endpoint :=
  match after? templateRoot.toList path.toList with
  | some id => if id.isEmpty || id.contains '/' then none else some (.template (String.ofList id))
  | none => none

/-- The endpoint at a path. One line feed at the end of a path does not matter, except in the
identifier of a template. -/
def endpoint? (path : String) : Option Endpoint :=
  match fixedEndpoint? (String.ofList (Text.dropFinalLineFeed path.toList)) with
  | some e => some e
  | none => templateEndpoint? path

def problem (status : Nat) (detail : String) : Response :=
  ⟨status, .json (.obj [("detail", .str detail)])⟩

def answer (v : Json) : Response := ⟨200, .json v⟩

/-- The response to a body with faults, written as JSON. -/
def rejection (faults : List Json) : Response := ⟨422, .json (.obj [("detail", .arr faults)])⟩

/-- The response to a failure of the service itself. -/
def breakdown : Response := ⟨500, .text "Internal Server Error"⟩

def version : String := "0.1.0"

def healthReport : Json := .obj [
  ("status", .str "ok"),
  ("version", .str version),
  ("endpoints", .obj [
    ("tools", .str "/api/tools"),
    ("templates", .str "/api/templates"),
    ("normalize", .str "/api/graphs/normalize"),
    ("validate", .str "/api/graphs/validate"),
    ("generate", .str "/api/graphs/generate?target=python")])]

def bodyFault (f : Fault) : Json := Fault.toJson .request { f with path := .field "body" :: f.path }

def BodyError.response : BodyError → Response
  | .missing => rejection [bodyFault ⟨[], .missing⟩]
  | .malformed => rejection [.obj [("type", .str "json_invalid")]]
  | .unreadable => problem 400 "There was an error parsing the body"
  | .faulty faults => rejection (faults.map bodyFault)
  | .unspeakable => breakdown

/-- The response that is made of the graph in a body, once it is in canonical form. -/
def withGraph (body : Body) (work : Graph → Response) : Response :=
  match body.graph with
  | .ok g => work (g.canonical [])
  | .error reason => reason.response

def graphResponse (g : Graph) : Response :=
  match g.dump with
  -- half of a surrogate pair cannot be sent
  | .ok v => if v.isSound then answer v else breakdown
  | .error _ => breakdown

def validationReport (g : Graph) (entryId : Option String) : Json :=
  let issues := validate g.nodes g.edges entryId
  .obj [("export_ready", .bool issues.isEmpty), ("issues", .arr (issues.map Issue.toJson))]

def program (g : Graph) (target : String) (entryId : Option String) : Response :=
  -- the target is checked before the graph
  match Target.ofJson (.str target) with
  | .error reason => problem 400 reason.message
  | .ok target =>
    match plan g.nodes g.edges entryId with
    | .error reason => problem 422 reason.message
    | .ok plan =>
      answer (.obj [
        ("target", .str target.name),
        ("code", .str (plan.program target (some g.name)))])

/-- The response of an endpoint to a body and the fields of a query. -/
def Endpoint.respond (body : Body) (query : List (String × String)) : Endpoint → Response
  | .health => answer healthReport
  | .tools => answer (.arr (Catalog.tools.map Catalog.Tool.toJson))
  | .templates => answer (.arr (Catalog.templates.map Catalog.Template.toJson))
  | .template id =>
    match Catalog.template? id with
    | none => problem 404 ("Template not found: " ++ id)
    | some t => answer (t.instantiate newNodeId newEdgeId).toJson
  | .normalize => withGraph body graphResponse
  -- an entry that is not asked for is none
  | .validate => withGraph body fun g => answer (validationReport g (query.lookup "entry_id"))
  | .generate =>
    withGraph body fun g =>
      program g ((query.lookup "target").getD Target.python.name) (query.lookup "entry_id")

/-- The path without slashes at its end. -/
def withoutTrailingSlash (path : String) : String :=
  String.ofList (path.toList.reverse.dropWhile (· == '/')).reverse

/-- The response to a request. A path that only a slash at its end keeps from an endpoint is
redirected. Of the fields of a query with one name the last one counts. -/
def respond (request : HttpRequest) : Response :=
  let address := Address.ofText request.address
  match endpoint? address.path with
  | some e =>
    if e.method = request.method.toUpper then
      -- the last field of a name is found first
      e.respond request.body (address.query ++ request.query).reverse
    else problem 405 "Method Not Allowed"
  | none =>
    if address.path.endsWith "/" && (endpoint? (withoutTrailingSlash address.path)).isSome then
      ⟨307, .text ""⟩
    else problem 404 "Not Found"

end AgentFlow.Http
