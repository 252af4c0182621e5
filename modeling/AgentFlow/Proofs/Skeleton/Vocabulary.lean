import AgentFlow.Proofs.Skeleton.Comments
import AgentFlow.Proofs.Skeleton.Tokens

/-!
# What programs say

Besides names of functions and literals, the programs of a target language have the words of a fixed
vocabulary. Three of these tell what a program does with a function: one starts its definition, and
two call for it to be attached to a node. `Vocabulary.Says` gives these facts for a piece of a
program, in order, and says that it has no other words.
-/

namespace AgentFlow.Skeleton

open Text

variable {α : Type}

/-! ## Facts -/

/-- What a program does with a function: it defines it, or attaches it to a node, of which it gives
the literal, as what the node does or as what chooses the route out of it. -/
inductive Fact where
  | defines (name : String)
  | node (literal name : String)
  | branch (literal name : String)
  deriving DecidableEq, Repr

/-- The function of each node and of each branch is attached to its node. -/
def attachments (p : Plan) (functions : FunctionNames) : List Fact :=
  (p.nodes.zip functions.units).map (fun (q, name) => .node (literal q.key) name) ++
    (p.branches.zip functions.routers).map fun (b, name) => .branch (literal b.source) name

/-- The words of a target language. -/
structure Vocabulary where
  lexis : Lexis
  /-- The word in front of the name in a definition of a function. -/
  definer : String
  /-- The call that adds a node. -/
  nodeCall : String
  /-- The call that adds a branch. -/
  branchCall : String
  /-- The words that tell nothing. -/
  others : List String
  nodup : (definer :: nodeCall :: branchCall :: others).Nodup

namespace Vocabulary

variable (v : Vocabulary)

def words : List String := v.definer :: v.nodeCall :: v.branchCall :: v.others

/-- The fact that starts with the first token. -/
def factAt : List Token → Option Fact
  | .word cs :: .word name :: _ =>
    if cs = v.definer.toList then some (.defines (String.ofList name)) else none
  | .word cs :: .mark '(' :: .literal raw :: .mark ',' :: .word name :: _ =>
    if cs = v.nodeCall.toList then some (.node (String.ofList raw) (String.ofList name))
    else if cs = v.branchCall.toList then some (.branch (String.ofList raw) (String.ofList name))
    else none
  | _ => none

def factsOf : List Token → List Fact
  | [] => []
  | tok :: rest => (v.factAt (tok :: rest)).toList ++ factsOf rest

def facts (s : String) : List Fact := v.factsOf (v.lexis.tokens s)

end Vocabulary

/-- The token is no word, or one of the given ones. -/
def Token.isOf (words : List String) : Token → Bool
  | .word cs => words.contains (String.ofList cs)
  | _ => true

theorem Token.isOf_word {words : List String} {cs : List Char} :
    (Token.word cs).isOf words = true ↔ String.ofList cs ∈ words := List.contains_iff_mem

/-- More words may be allowed. -/
theorem Token.isOf_subset {words more : List String} {tok : Token} (h : tok.isOf words = true)
    (hsub : words ⊆ more) : tok.isOf more = true := by
  cases tok with
  | word cs =>
    rw [isOf_word] at h ⊢
    exact hsub h
  | literal raw => rfl
  | mark c => rfl

namespace Vocabulary

/-! ## What tokens tell -/

/-- In front of anything, some tokens tell these facts, and they have no words but those of the
vocabulary and the given names. -/
structure Tells (v : Vocabulary) (names : List String) (toks : List Token) (found : List Fact) :
    Prop where
  facts : ∀ rest, v.factsOf (toks ++ rest) = found ++ v.factsOf rest
  words : ∀ tok ∈ toks, tok.isOf (v.words ++ names) = true

variable {v : Vocabulary} {names : List String} {toks more : List Token} {found others : List Fact}
  {name key : String}

theorem Tells.nil : v.Tells names [] [] := ⟨fun _ => rfl, by simp⟩

/-- Facts do not reach beyond the tokens that tell them. -/
theorem Tells.append (h : v.Tells names toks found) (h' : v.Tells names more others) :
    v.Tells names (toks ++ more) (found ++ others) := by
  constructor
  case facts =>
    intro rest
    rw [List.append_assoc, h.facts, h'.facts, List.append_assoc]
  case words => exact List.forall_mem_append.2 ⟨h.words, h'.words⟩

/-- No fact starts with one of the other words, as these are different from the three that tell
something. -/
theorem factAt_eq_none {tok : Token} (h : tok.isOf v.others = true) (rest : List Token) :
    v.factAt (tok :: rest) = none := by
  obtain ⟨hdefiner, hnode, hbranch⟩ :
      v.definer ∉ v.others ∧ v.nodeCall ∉ v.others ∧ v.branchCall ∉ v.others := by
    have hnodup := v.nodup
    simp only [List.nodup_cons, List.mem_cons, not_or] at hnodup
    exact ⟨hnodup.1.2.2, hnodup.2.1.2, hnodup.2.2.1⟩
  -- a word that is one of the others is none of the three
  have hne : ∀ {cs : List Char} {word : String}, (Token.word cs).isOf v.others = true →
      word ∉ v.others → cs ≠ word.toList := by
    rintro cs word hcs hword rfl
    rw [Token.isOf_word, String.ofList_toList] at hcs
    exact hword hcs
  rw [factAt.eq_def]
  split
  · next heq =>
    cases heq
    exact if_neg (hne h hdefiner)
  · next heq =>
    cases heq
    rw [if_neg (hne h hnode), if_neg (hne h hbranch)]
  · rfl

/-- The other words tell nothing. -/
theorem tells_others (h : ∀ tok ∈ toks, tok.isOf v.others = true) : v.Tells names toks [] := by
  constructor
  case facts =>
    intro rest
    induction toks with
    | nil => rfl
    | cons tok toks ih =>
      obtain ⟨htok, htoks⟩ := List.forall_mem_cons.1 h
      rw [List.cons_append, factsOf, factAt_eq_none htok, ih htoks]
      rfl
  case words =>
    intro tok htok
    refine Token.isOf_subset (h tok htok) fun word hword => List.mem_append_left _ ?_
    exact List.mem_cons_of_mem _ (List.mem_cons_of_mem _ (List.mem_cons_of_mem _ hword))

/-- What the first token tells is added in front. -/
theorem Tells.cons {tok : Token} {fact : Option Fact} (h : v.Tells names toks found)
    (hword : tok.isOf (v.words ++ names) = true)
    (hfact : ∀ rest, v.factAt (tok :: (toks ++ rest)) = fact) :
    v.Tells names (tok :: toks) (fact.toList ++ found) := by
  constructor
  case facts =>
    intro rest
    rw [List.cons_append, factsOf, hfact, h.facts, List.append_assoc]
  case words => exact List.forall_mem_cons.2 ⟨hword, h.words⟩

/-- The first token may tell nothing. -/
theorem Tells.skip {tok : Token} (h : v.Tells names toks found)
    (hword : tok.isOf (v.words ++ names) = true)
    (hfact : ∀ rest, v.factAt (tok :: (toks ++ rest)) = none) :
    v.Tells names (tok :: toks) found := h.cons hword hfact

theorem isOf_words {word : String} (h : word ∈ v.words ++ names) :
    (Token.word word.toList).isOf (v.words ++ names) = true := by
  rwa [Token.isOf_word, String.ofList_toList]

/-- A parenthesis comes first, and no literal behind it. -/
def opensParameters : List Token → Bool
  | .mark '(' :: .word _ :: _ => true
  | .mark '(' :: .mark _ :: _ => true
  | _ => false

/-- A definition, with what stands behind the name. -/
theorem tells_definition (hname : name ∈ v.words ++ names) (hopens : opensParameters toks = true)
    (h : v.Tells names toks found) :
    v.Tells names (.word v.definer.toList :: .word name.toList :: toks)
      (.defines name :: found) := by
  -- the name itself starts no fact, as no argument of a call follows it
  have hword : v.Tells names (.word name.toList :: toks) found := by
    refine h.skip (isOf_words hname) fun rest => ?_
    unfold opensParameters at hopens
    split at hopens
    · rfl
    · rfl
    · cases hopens
  have hfact : ∀ rest, v.factAt (.word v.definer.toList :: (.word name.toList :: toks ++ rest)) =
      some (.defines name) := by simp [factAt]
  exact hword.cons (isOf_words (by simp [Vocabulary.words])) hfact

/-- The arguments of a call tell nothing by themselves. -/
theorem tells_arguments (h : name ∈ names) {c : Char} (hc : c ≠ '(') :
    v.Tells names [.mark '(', .literal key.toList, .mark ',', .word name.toList, .mark c] [] := by
  have hmark : v.Tells names [.mark c] [] := tells_others (by simp [Token.isOf])
  have hname : v.Tells names [.word name.toList, .mark c] [] :=
    hmark.skip (isOf_words (List.mem_append_right v.words h)) (by simp [factAt, hc])
  exact ((hname.skip rfl fun _ => rfl).skip rfl fun _ => rfl).skip rfl fun _ => rfl

/-- A node is added, with the mark behind its function. -/
theorem tells_nodeCall (h : name ∈ names) {c : Char} (hc : c ≠ '(') :
    v.Tells names [.word v.nodeCall.toList, .mark '(', .literal key.toList, .mark ',',
      .word name.toList, .mark c] [.node key name] := by
  have hfact : ∀ rest, v.factAt (.word v.nodeCall.toList :: ([.mark '(', .literal key.toList,
      .mark ',', .word name.toList, .mark c] ++ rest)) = some (.node key name) := by simp [factAt]
  exact (tells_arguments h hc).cons (isOf_words (by simp [Vocabulary.words])) hfact

/-- A branch is added, with the mark behind its function. -/
theorem tells_branchCall (h : name ∈ names) {c : Char} (hc : c ≠ '(') :
    v.Tells names [.word v.branchCall.toList, .mark '(', .literal key.toList, .mark ',',
      .word name.toList, .mark c] [.branch key name] := by
  -- the two calls are told apart by their words
  have hne : v.branchCall ≠ v.nodeCall := by
    have hnodup := v.nodup
    simp only [List.nodup_cons, List.mem_cons, not_or] at hnodup
    exact Ne.symm hnodup.2.1.1
  have hfact : ∀ rest, v.factAt (.word v.branchCall.toList :: ([.mark '(', .literal key.toList,
      .mark ',', .word name.toList, .mark c] ++ rest)) = some (.branch key name) := by
    simp [factAt, String.toList_inj, hne]
  exact (tells_arguments h hc).cons (isOf_words (by simp [Vocabulary.words])) hfact

/-! ## What texts say -/

variable {mode mid last : Mode} {s t : String}

variable (v names) in
/-- What the lexer finds in a text, from one mode to another, tells some facts. -/
def Says (mode : Mode) (s : String) (found : List Fact) (last : Mode) : Prop :=
  ∃ toks, v.lexis.Reads mode s toks last ∧ v.Tells names toks found

/-- Texts are read piece by piece, and so are their facts. -/
theorem Says.append (h : v.Says names mode s found mid) (h' : v.Says names mid t others last) :
    v.Says names mode (s ++ t) (found ++ others) last := by
  obtain ⟨toks, hreads, htells⟩ := h
  obtain ⟨more, hreads', htells'⟩ := h'
  exact ⟨toks ++ more, hreads.append hreads', htells.append htells'⟩

/-- The facts of a text, and the words of it. -/
theorem Says.facts_eq (h : v.Says names .code s found .code) :
    v.facts s = found ∧ ∀ tok ∈ v.lexis.tokens s, tok.isOf (v.words ++ names) = true := by
  obtain ⟨toks, hreads, htells⟩ := h
  have htokens : v.lexis.tokens s = toks := by
    rw [hreads.tokens_eq]
    exact List.append_nil toks
  have hfacts := htells.facts []
  rw [List.append_nil] at hfacts
  rw [Vocabulary.facts, htokens, hfacts]
  exact ⟨List.append_nil found, htells.words⟩

/-- No token of the text reaches beyond it, and it has no words but the others. -/
def isPlain (v : Vocabulary) (cs : List Char) : Bool :=
  (v.lexis.run .code cs).1 == .code && (v.lexis.run .code cs).2.all (·.isOf v.others)

/-- Besides, what stands in front of the text does not reach into it. -/
def isPlainBehind (v : Vocabulary) (cs : List Char) : Bool :=
  v.isPlain cs && cs.head?.any fun c => !isNameChar c && c != '\x22'

/-- The test, as it is used. -/
theorem isPlain_iff {cs : List Char} : v.isPlain cs = true ↔
    (v.lexis.run .code cs).1 = .code ∧
      ∀ tok ∈ (v.lexis.run .code cs).2, tok.isOf v.others = true := by
  rw [isPlain, Bool.and_eq_true, beq_iff_eq, List.all_eq_true]

theorem isPlain_of_isPlainBehind {cs : List Char} (h : v.isPlainBehind cs = true) :
    v.isPlain cs = true := (Bool.and_eq_true_iff.1 h).1

/-- A text that is known. -/
theorem says_plain {cs : List Char} (hs : s = String.ofList cs) (h : v.isPlain cs = true) :
    v.Says names .code s [] .code := by
  rw [isPlain_iff] at h
  refine ⟨_, ?_, tells_others h.2⟩
  rw [Lexis.Reads, hs, String.toList_ofList]
  exact Prod.ext h.1 rfl

/-- A text that is known and has no token in it. -/
theorem says_nothing {cs : List Char} (hs : s = String.ofList cs)
    (h : v.lexis.run mode cs = (last, [])) : v.Says names mode s [] last := by
  refine ⟨[], ?_, .nil⟩
  rwa [Lexis.Reads, hs, String.toList_ofList]

/-- In front of a text that is known, a word or a literal is complete. -/
theorem reads_behind {cs : List Char} (hs : s = String.ofList cs) (h : v.isPlainBehind cs = true)
    (hmode : (∃ cs, mode = .word cs) ∨ ∃ raw, mode = .closed raw) :
    v.lexis.Reads mode s (mode.flush ++ (v.lexis.run .code cs).2) .code := by
  obtain ⟨hplain, hhead⟩ := Bool.and_eq_true_iff.1 h
  obtain ⟨c, hc, hapart⟩ := (Option.any_eq_true _ _).1 hhead
  obtain ⟨rest, rfl⟩ := List.head?_eq_some_iff.1 hc
  rw [Bool.and_eq_true, Bool.not_eq_true', bne_iff_ne] at hapart
  rw [Lexis.Reads, hs, String.toList_ofList,
    Lexis.run_behind (.inr hmode) hapart.1 hapart.2, (isPlain_iff.1 hplain).1]

/-- A text that is known, behind a literal. -/
theorem says_plain_behind {cs : List Char} (hs : s = String.ofList cs)
    (h : v.isPlainBehind cs = true) (raw : List Char) : v.Says names (.closed raw) s [] .code := by
  have hliteral : v.Tells names [.literal raw] [] := tells_others (by simp [Token.isOf])
  have hplain := isPlain_iff.1 (isPlain_of_isPlainBehind h)
  exact ⟨_, reads_behind hs h (.inr ⟨raw, rfl⟩), hliteral.append (tells_others hplain.2)⟩

/-- The start of a function, its name between the two parts of it that are known. -/
theorem says_definition {before : String} {bs cs : List Char} (front : List Token)
    (hbs : before = String.ofList bs)
    (hbefore : v.lexis.run .code bs = (.code, front ++ [.word v.definer.toList]))
    (hfront : (front.all (·.isOf v.others)) = true) (hname : IsName name)
    (hmem : name ∈ v.words ++ names) (hs : s = String.ofList cs) (h : v.isPlainBehind cs = true)
    (hopens : opensParameters (v.lexis.run .code cs).2 = true) :
    v.Says names .code (before ++ name ++ s) [.defines name] .code := by
  have hplain := isPlain_iff.1 (isPlain_of_isPlainBehind h)
  have hstart : v.lexis.Reads .code before (front ++ [.word v.definer.toList]) .code := by
    rwa [Lexis.Reads, hbs, String.toList_ofList]
  have hreads := (hstart.append (Lexis.reads_name hname)).append
    (reads_behind hs h (.inl ⟨_, rfl⟩))
  have htells := (tells_others (List.all_eq_true.1 hfront)).append
    (tells_definition hmem hopens (tells_others hplain.2))
  refine ⟨_, hreads, ?_⟩
  rwa [List.append_nil, List.append_assoc]

/-- A literal tells nothing, whatever its text is. -/
theorem says_literal (s : String) :
    v.Says names .code (literal s) [] (.closed (literal s).toList) :=
  ⟨[], Lexis.reads_literal s, .nil⟩

/-- A text that is known comes next. -/
theorem Says.plain {cs : List Char} (h : v.Says names mode s found .code)
    (ht : t = String.ofList cs) (hplain : v.isPlain cs = true) :
    v.Says names mode (s ++ t) found .code := by
  have hall := h.append (says_plain ht hplain)
  rwa [List.append_nil] at hall

/-- A literal comes next, and a text that is known behind it. -/
theorem Says.quoted {cs : List Char} (h : v.Says names mode s found .code) (text : String)
    (ht : t = String.ofList cs) (hplain : v.isPlainBehind cs = true) :
    v.Says names mode (s ++ literal text ++ t) found .code := by
  have hall := (h.append (says_literal text)).append (says_plain_behind ht hplain _)
  rwa [List.append_nil, List.append_nil] at hall

/-- Flat texts have no line ends, so a comment goes on behind them. -/
theorem says_note (h : IsFlat s) : v.Says names .note s [] .note := by
  refine ⟨[], Lexis.run_note fun c hc => Bool.eq_false_iff.2 fun hends => ?_, .nil⟩
  obtain ⟨hspace, hblank⟩ := v.lexis.blank_of_endsLine c hends
  rcases h c hc with rfl | hflat
  · exact hspace rfl
  · rw [hblank] at hflat
    cases hflat

/-- Literals with a separator between them, and a text that is known behind the last one. -/
theorem says_literals {sep : String} {cs ds : List Char} (hsep : sep = String.ofList cs)
    (hbetween : v.isPlainBehind cs = true) (ht : t = String.ofList ds)
    (hbehind : v.isPlainBehind ds = true) (texts : List String) :
    v.Says names .code (sep.intercalate (texts.map literal) ++ t) [] .code := by
  induction texts with
  | nil =>
    rw [List.map_nil, String.intercalate_nil, String.empty_append]
    exact says_plain ht (isPlain_of_isPlainBehind hbehind)
  | cons text rest ih =>
    by_cases hrest : rest = []
    · rw [hrest, List.map_singleton, String.intercalate_singleton]
      exact (says_literal text).append (says_plain_behind ht hbehind _)
    · rw [List.map_cons, String.intercalate_cons_of_ne_nil (by simpa using hrest),
        String.append_assoc]
      exact ((says_literal text).append (says_plain_behind hsep hbetween _)).append ih

/-! ## What lines say -/

variable {line : String} {lines more : List String}

variable (v names) in
/-- What the lexer finds in some lines tells some facts; a comment ends with its line. -/
def SaysLines (lines : List String) (found : List Fact) : Prop :=
  ∃ toks, v.lexis.LinesRead lines toks ∧ v.Tells names toks found

/-- Lines tell as a text what they tell one by one. -/
theorem SaysLines.ended (h : v.SaysLines names lines found) :
    v.Says names .code (endLines lines) found .code := by
  obtain ⟨toks, hreads, htells⟩ := h
  exact ⟨toks, hreads.reads, htells⟩

theorem SaysLines.nil : v.SaysLines names [] [] := ⟨[], .nil, .nil⟩

/-- A line of code is complete at its end. -/
theorem Says.codeLine (h : v.Says names .code line found .code) :
    v.SaysLines names [line] found := by
  obtain ⟨toks, hreads, htells⟩ := h
  exact ⟨toks, .singleton ⟨_, _, hreads, rfl, List.append_nil toks⟩, htells⟩

/-- A line that ends in a comment. -/
theorem Says.commentLine (h : v.Says names .code line found .note) (hs : IsFlat s) :
    v.SaysLines names [line ++ s] found := by
  have hnote := h.append (says_note hs)
  rw [List.append_nil] at hnote
  obtain ⟨toks, hreads, htells⟩ := hnote
  exact ⟨toks, .singleton ⟨_, _, hreads, rfl, List.append_nil toks⟩, htells⟩

theorem saysLines_blank : v.SaysLines names [""] [] := Says.codeLine ⟨[], rfl, .nil⟩

/-- By itself the line has no words but the others. -/
def isPlainLine (v : Vocabulary) (cs : List Char) : Bool :=
  (v.lexis.run .code cs).1.isBreakable &&
    ((v.lexis.run .code cs).2 ++ (v.lexis.run .code cs).1.flush).all (·.isOf v.others)

/-- A line that is known. -/
theorem saysLines_plain {cs : List Char} (hs : line = String.ofList cs)
    (h : v.isPlainLine cs = true) : v.SaysLines names [line] [] := by
  rw [isPlainLine, Bool.and_eq_true, List.all_eq_true] at h
  have hreads : v.lexis.Reads .code line (v.lexis.run .code cs).2 (v.lexis.run .code cs).1 := by
    rw [Lexis.Reads, hs, String.toList_ofList]
  exact ⟨_, .singleton ⟨_, _, hreads, h.1, rfl⟩, tells_others h.2⟩

theorem SaysLines.append (h : v.SaysLines names lines found) (h' : v.SaysLines names more others) :
    v.SaysLines names (lines ++ more) (found ++ others) := by
  obtain ⟨toks, hreads, htells⟩ := h
  obtain ⟨toks', hreads', htells'⟩ := h'
  exact ⟨toks ++ toks', hreads.append hreads', htells.append htells'⟩

/-- Blocks of lines, each with facts of its own. -/
theorem SaysLines.flatMap {as : List α} {block : α → List String} {facts : α → List Fact}
    (h : ∀ a ∈ as, v.SaysLines names (block a) (facts a)) :
    v.SaysLines names (as.flatMap block) (as.flatMap facts) := by
  induction as with
  | nil => exact .nil
  | cons a rest ih =>
    obtain ⟨ha, hrest⟩ := List.forall_mem_cons.1 h
    exact ha.append (ih hrest)

/-- Blocks of lines with one function each. -/
theorem SaysLines.flatMap_zip {as : List α} {functions : List String}
    {block : α → String → List String} {fact : α → String → Fact}
    (h : ∀ a ∈ as, ∀ name ∈ functions, v.SaysLines names (block a name) [fact a name]) :
    v.SaysLines names ((as.zip functions).flatMap fun (a, name) => block a name)
      ((as.zip functions).map fun (a, name) => fact a name) := by
  rw [List.map_eq_flatMap]
  refine SaysLines.flatMap ?_
  rintro ⟨a, name⟩ hpair
  obtain ⟨ha, hname⟩ := List.of_mem_zip hpair
  exact h a ha name hname

/-- Lines that tell nothing. -/
theorem saysLines_map {as : List α} {f : α → String}
    (h : ∀ a ∈ as, v.SaysLines names [f a] []) : v.SaysLines names (as.map f) [] := by
  have hall := SaysLines.flatMap h
  rwa [← List.map_eq_flatMap, List.flatMap_eq_nil_iff.2 fun _ _ => rfl] at hall

/-- What is done to each line must not change its tokens. -/
theorem SaysLines.map {f : String → String} (h : v.SaysLines names lines found)
    (hf : ∀ line toks, v.lexis.LineReads line toks → v.lexis.LineReads (f line) toks) :
    v.SaysLines names (lines.map f) found := by
  obtain ⟨toks, hreads, htells⟩ := h
  exact ⟨toks, hreads.map hf, htells⟩

/-! ## What sections say -/

variable {sections before after : List (List String)} {facts : List (List Fact)}

variable (v names) in
/-- What each of some sections says. -/
def SaysSections (sections : List (List String)) (facts : List (List Fact)) : Prop :=
  List.Forall₂ (fun lines found => v.Says names .code (endLines lines) found .code) sections facts

theorem SaysSections.append {more : List (List Fact)} (h : v.SaysSections names before facts)
    (h' : v.SaysSections names after more) :
    v.SaysSections names (before ++ after) (facts ++ more) := List.rel_append h h'

/-- Sections that define one function each. -/
theorem SaysSections.zip {as : List α} {functions : List String}
    (hlength : functions.length = as.length) {block : α → String → List String}
    (h : ∀ a ∈ as, ∀ name ∈ functions,
      v.Says names .code (endLines (block a name)) [.defines name] .code) :
    v.SaysSections names ((as.zip functions).map fun (a, name) => block a name)
      (functions.map fun name => [.defines name]) := by
  have hfacts : functions.map (fun name => [Fact.defines name]) =
      (as.zip functions).map fun pair => [Fact.defines pair.2] := by
    conv_lhs => rw [← List.map_snd_zip hlength.le, List.map_map]
    rfl
  rw [SaysSections, hfacts, List.forall₂_map_left_iff, List.forall₂_map_right_iff,
    List.forall₂_same]
  rintro ⟨a, name⟩ hpair
  obtain ⟨ha, hname⟩ := List.of_mem_zip hpair
  exact h a ha name hname

/-- What the sections say is what the lexer finds in them. -/
theorem SaysSections.facts_eq (h : v.SaysSections names sections facts) :
    sections.map (fun lines => v.facts (endLines lines)) = facts := by
  induction h with
  | nil => rfl
  | cons hlines _ ih => rw [List.map_cons, hlines.facts_eq.1, ih]

/-- Sections say what each of them says, whatever blank lines are between them. -/
theorem SaysSections.intercalate {gap : List String} (hgap : v.SaysLines names gap [])
    (h : v.SaysSections names sections facts) :
    v.Says names .code (endLines (gap.intercalate sections)) facts.flatten .code := by
  induction h with
  | nil => exact SaysLines.nil.ended
  | @cons lines found rest others hlines hrest ih =>
    by_cases hnil : rest = []
    · obtain rfl : others = [] := List.forall₂_nil_left_iff.1 (hnil ▸ hrest)
      rw [hnil, List.intercalate_singleton, List.flatten_singleton]
      exact hlines
    · rw [List.intercalate_cons_of_ne_nil hnil, endLines_append, endLines_append,
        List.flatten_cons, ← List.append_nil found]
      exact (hlines.append hgap.ended).append ih

end Vocabulary

end AgentFlow.Skeleton
