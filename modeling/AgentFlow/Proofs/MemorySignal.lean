import AgentFlow.RoleSignals
import AgentFlow.Proofs.Text.Mentions

/-!
# What tells of a memory

The texts of a node are searched together, with a blank between them, for the words of memory. A
blank belongs to no word, so each text is searched for itself: a node tells of a memory exactly if
one of its tools stores things, or a whole word of its label or of its description is such a word
(`memory_mem_signalledRoles_iff`).
-/

namespace AgentFlow

open Text

/-! ## Words of memory in a text -/

/-- The words of memory are made of small letters, and none is empty. -/
theorem isVocabulary_memoryWords : IsVocabulary (memoryWords.map String.toList) := by
  have hall : (memoryWords.map String.toList).all
      (fun word => word != [] && word.all Char.isLower) = true := by decide +kernel
  intro word hword
  simpa using List.all_eq_true.1 hall word hword

/-- A word of memory stands in the text as a whole. -/
def mentionsMemory (text : String) : Bool :=
  mentionsAny (memoryWords.map String.toList) false text.toList

/-- The text is a word of memory up to case. -/
def IsMemoryWord (run : List Char) : Prop := ∃ word ∈ memoryWords, SameWord word.toList run

instance (run : List Char) : Decidable (IsMemoryWord run) :=
  inferInstanceAs (Decidable (∃ word ∈ memoryWords, SameWord word.toList run))

/-- A word of memory stands in a text as a whole exactly if it is a maximal run of word characters.
-/
theorem mentionsMemory_iff {text : String} : mentionsMemory text = true ↔
    ∃ run, IsMaximalRun isWordChar run text.toList ∧ IsMemoryWord run := by
  rw [mentionsMemory, mentionsAny_eq_true_iff_exists_run isVocabulary_memoryWords]
  simp [mem_runs_iff, IsMemoryWord]

/-- Whatever its case, a word of memory has nothing but word characters. -/
theorem IsMemoryWord.isWordChar {run : List Char} (h : IsMemoryWord run) :
    run ≠ [] ∧ ∀ c ∈ run, isWordChar c = true := by
  obtain ⟨word, hword, hrun⟩ := h
  obtain ⟨hne, hletters⟩ := isVocabulary_memoryWords _ (List.mem_map_of_mem hword)
  exact ⟨hrun.ne_nil hne, hrun.isWordChar hletters⟩

/-- What is not interrupted by a separator stands before it or behind it. -/
theorem before_or_behind_of_notMem {α : Type} {sep : α} {left right before run after : List α}
    (h : left ++ sep :: right = before ++ (run ++ after)) (hne : run ≠ []) (hsep : sep ∉ run) :
    (∃ rest, left = before ++ (run ++ rest) ∧ after = rest ++ sep :: right) ∨
      ∃ front, before = left ++ sep :: front ∧ right = front ++ (run ++ after) := by
  -- Cut the list where the text in front of it ends: at the separator or before it.
  rcases List.append_eq_append_iff.1 h with ⟨front, hbefore, hfront⟩ | ⟨behind, hleft, hbehind⟩
  · cases front with
    | nil =>
      obtain ⟨d, run, rfl⟩ := List.exists_cons_of_ne_nil hne
      obtain rfl := (List.cons.inj hfront).1
      exact absurd List.mem_cons_self hsep
    | cons d front =>
      obtain ⟨rfl, hright⟩ := List.cons.inj hfront
      exact .inr ⟨front, hbefore, hright⟩
  · rcases List.append_eq_append_iff.1 hbehind with ⟨rest, hrest, hafter⟩ | ⟨cut, hcut, hafter⟩
    · exact .inl ⟨rest, by rw [hleft, hrest], hafter⟩
    · cases cut with
      | nil => exact .inl ⟨[], by rw [hleft, hcut, List.append_nil, List.append_nil], hafter.symm⟩
      | cons d cut =>
        obtain rfl := (List.cons.inj hafter).1
        exact absurd (hcut ▸ List.mem_append_right _ List.mem_cons_self) hsep

/-! ## The two texts of a node -/

namespace Node

variable (n : Node)

theorem toList_prose : n.prose.toList = n.label.toList ++ ' ' :: n.description.toList := by
  simp [prose]

/-- The blank between the texts ends every word, so each text is searched for itself. -/
theorem mentionsMemory_prose :
    mentionsMemory n.prose = (mentionsMemory n.label || mentionsMemory n.description) := by
  rw [mentionsMemory, toList_prose]
  exact mentionsAny_append_cons isVocabulary_memoryWords (by decide) _ _

/-- Of all signals, that of a memory is the one that looks at texts and tools. -/
theorem memory_mem_signalledRoles (fanOut : Nat) :
    Role.memory ∈ n.signalledRoles fanOut ↔ n.tellsOfMemory = true := by
  rw [signalledRoles, List.mem_filter]
  exact and_iff_right (by decide)

/-- A node tells of a memory by one of its tools or by its texts. -/
theorem tellsOfMemory_iff : n.tellsOfMemory = true ↔
    (∃ tool ∈ n.tools, tool ∈ memoryTools) ∨ mentionsMemory n.prose = true := by
  rw [tellsOfMemory, Bool.or_eq_true, or_comm, List.any_eq_true]
  simp only [decide_eq_true_eq, mentionsMemory]

/-- **Memory is told of by whole words.** A node has the role of a memory from the graph exactly if
a tool of its stores things or a maximal run of word characters of its label or of its description
is a word of memory up to case. The joined text tells of a memory where one of the two does, and no
word of memory, be it a part of another word, reaches from one into the other. -/
theorem memory_mem_signalledRoles_iff (fanOut : Nat) :
    (Role.memory ∈ n.signalledRoles fanOut ↔
      (∃ tool ∈ n.tools, tool ∈ memoryTools) ∨
      ∃ text ∈ [n.label, n.description], ∃ run,
        IsMaximalRun isWordChar run text.toList ∧ IsMemoryWord run) ∧
    mentionsMemory n.prose = (mentionsMemory n.label || mentionsMemory n.description) ∧
    ∀ before run after, n.prose.toList = before ++ (run ++ after) → IsMemoryWord run →
      (∃ rest, n.label.toList = before ++ (run ++ rest) ∧
        after = rest ++ ' ' :: n.description.toList) ∨
      ∃ front, before = n.label.toList ++ ' ' :: front ∧
        n.description.toList = front ++ (run ++ after) := by
  refine ⟨?signal, n.mentionsMemory_prose, ?sides⟩
  case signal =>
    rw [memory_mem_signalledRoles, tellsOfMemory_iff, mentionsMemory_prose, Bool.or_eq_true,
      mentionsMemory_iff, mentionsMemory_iff]
    simp only [List.mem_cons, List.not_mem_nil, or_false, exists_eq_or_imp, exists_eq_left]
  case sides =>
    intro before run after hprose hrun
    obtain ⟨hne, hword⟩ := hrun.isWordChar
    rw [toList_prose] at hprose
    -- No blank is in a word, so the word lies on one side of the blank between the texts.
    refine before_or_behind_of_notMem hprose hne fun hblank => ?_
    have hfalse : isWordChar ' ' = false := by decide
    rw [hword _ hblank] at hfalse
    cases hfalse

/-- The Kelvin sign is a k, the long s an s and the dotted capital I an i, also at the edge of a
word. Behind an underscore a word of memory is part of another word, and where the label ends the
word ends. -/
theorem memory_mem_signalledRoles_kelvin :
    Role.memory ∈ signalledRoles { id := "a", description := "(\u212anowledge)" } 0 ∧
    Role.memory ∈ signalledRoles { id := "a", label := "A Per\u017f\u0130ST" } 0 ∧
    Role.memory ∉
      signalledRoles { id := "a", label := "data_store mem", description := "ory" } 0 ∧
    IsMemoryWord "store".toList ∧
    ∃ rest, "data_store mem".toList = "data_".toList ++ ("store".toList ++ rest) ∧
      " mem ory".toList = rest ++ " ory".toList := by
  have hknowledge : IsMaximalRun isWordChar "\u212anowledge".toList "(\u212anowledge)".toList :=
    mem_runs_iff.1 (by decide +kernel)
  have hpersist :
      IsMaximalRun isWordChar "Per\u017f\u0130ST".toList "A Per\u017f\u0130ST".toList :=
    mem_runs_iff.1 (by decide +kernel)
  refine ⟨?_, ?_, ?_⟩
  · exact (memory_mem_signalledRoles_iff _ 0).1.2
      (.inr ⟨_, by simp, _, hknowledge, by decide +kernel⟩)
  · exact (memory_mem_signalledRoles_iff _ 0).1.2
      (.inr ⟨_, by simp, _, hpersist, by decide +kernel⟩)
  · obtain ⟨hsignal, -, hsides⟩ := memory_mem_signalledRoles_iff
      { id := "a", label := "data_store mem", description := "ory" } 0
    have hstore : IsMemoryWord "store".toList := by decide +kernel
    refine ⟨?_, hstore, ?_⟩
    · rw [hsignal]
      -- Neither a tool nor one of the two texts tells of a memory.
      rintro (⟨tool, htool, -⟩ | ⟨text, htext, hrun⟩)
      · cases htool
      · have hmentions : ∀ text ∈ ["data_store mem", "ory"], mentionsMemory text = false := by
          decide +kernel
        have hfalse := hmentions text htext
        rw [mentionsMemory_iff.2 hrun] at hfalse
        cases hfalse
    · refine (hsides "data_".toList _ " mem ory".toList (by decide +kernel) hstore).resolve_right ?_
      rintro ⟨front, -, hfront⟩
      have hlength := congrArg List.length hfront
      simp at hlength

end Node

end AgentFlow
