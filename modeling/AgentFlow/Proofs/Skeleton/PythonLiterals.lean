import AgentFlow.Proofs.Skeleton.Readings

/-!
# What literals denote in Python

All targets write the same literals. Python takes each `\u` escape for one code point and does not
join the two halves of a surrogate pair, so in Python a literal denotes the UTF-16 units of its text
(`readString_literal`). These are the code points of the text exactly if no character lies beyond
the basic plane (`readString_literal_iff`). The same goes for what a program says of its nodes
(`readStrings_metadata_iff`) and for the graph that it builds (`read_program_iff`).
-/

namespace AgentFlow.Skeleton.Python

open Text

/-! ## Texts as numbers -/

def codePoints (s : String) : List Nat := s.toList.map Char.toNat

/-- The UTF-16 units of a character. -/
def charUnits (c : Char) : List Nat :=
  if c.toNat < 0x10000 then [c.toNat]
  else [0xd800 + (c.toNat - 0x10000) / 0x400, 0xdc00 + (c.toNat - 0x10000) % 0x400]

def codeUnits (s : String) : List Nat := s.toList.flatMap charUnits

/-- No character of a text lies beyond the basic plane. -/
def IsBasic (s : String) : Prop := ∀ c ∈ s.toList, c.toNat < 0x10000

instance : DecidablePred IsBasic := fun s =>
  List.decidableBAll (fun c : Char => c.toNat < 0x10000) s.toList

theorem charUnits_of_lt {c : Char} (h : c.toNat < 0x10000) : charUnits c = [c.toNat] := if_pos h

theorem charUnits_of_le {c : Char} (h : 0x10000 ≤ c.toNat) : charUnits c =
    [0xd800 + (c.toNat - 0x10000) / 0x400, 0xdc00 + (c.toNat - 0x10000) % 0x400] :=
  if_neg (Nat.not_lt.2 h)

/-- Every character has at least one unit, so there are as many units as characters only if no
character takes two. -/
theorem length_flatMap_charUnits (cs : List Char) : (cs.flatMap charUnits).length =
    cs.length + cs.countP fun c => 0x10000 ≤ c.toNat := by
  induction cs with
  | nil => rfl
  | cons c cs ih =>
    rw [List.flatMap_cons, List.length_append, ih, List.length_cons, List.countP_cons]
    by_cases h : c.toNat < 0x10000
    · simp [charUnits_of_lt h, Nat.not_le.2 h]
      omega
    · simp [charUnits_of_le (Nat.le_of_not_lt h), Nat.le_of_not_lt h]
      omega

/-- A character beyond the basic plane takes two units and is one code point. -/
theorem codeUnits_eq_codePoints_iff (s : String) : codeUnits s = codePoints s ↔ IsBasic s := by
  constructor
  · intro h c hc
    -- the lists have one length only if no character takes two units
    have hlength := congrArg List.length h
    rw [codeUnits, codePoints, length_flatMap_charUnits, List.length_map] at hlength
    have hnone := List.countP_eq_zero.1 (Nat.add_eq_left.1 hlength) c hc
    simpa using hnone
  · intro h
    rw [codeUnits, codePoints, List.map_eq_flatMap]
    exact List.flatMap_congr fun c hc => charUnits_of_lt (h c hc)

/-! ## The reader -/

/-- The character that a one-letter escape denotes. -/
def shortEscape? : Char → Option Char
  | '\x5c' => some '\x5c'
  | '\x22' => some '\x22'
  | 'n' => some '\n'
  | 'r' => some '\r'
  | 't' => some '\t'
  | 'b' => some '\x08'
  | 'f' => some '\x0c'
  | _ => none

/-- The number that hexadecimal digits write. -/
def hexNumber? (digits : List Char) : Option Nat :=
  digits.foldlM (fun n d => (Json.hexValue? d).map (16 * n + ·)) 0

/-- Code points that stand before what a reader finds. -/
def prepend (points : List Nat) : Option (List Nat × List Char) → Option (List Nat × List Char) :=
  Option.map (Prod.map (points ++ ·) id)

/-- The code points of a literal whose opening quote has been read, and what follows the literal. A
literal does not go over the end of a line. -/
def readPoints : List Char → Option (List Nat × List Char)
  | [] => none
  | '\x22' :: rest => some ([], rest)
  | '\x5c' :: 'u' :: d₁ :: d₂ :: d₃ :: d₄ :: rest =>
    (hexNumber? [d₁, d₂, d₃, d₄]).bind fun n => prepend [n] (readPoints rest)
  | '\x5c' :: e :: rest => (shortEscape? e).bind fun c => prepend [c.toNat] (readPoints rest)
  | c :: rest =>
    if c = '\x5c' ∨ c = '\n' ∨ c = '\r' then none else prepend [c.toNat] (readPoints rest)

/-- The code points of a literal, and what follows it. -/
def readString : Decoder (List Nat)
  | '\x22' :: cs => readPoints cs
  | _ => none

variable {c : Char} {rest : List Char}

theorem prepend_prepend (ms ns : List Nat) (found : Option (List Nat × List Char)) :
    prepend ms (prepend ns found) = prepend (ms ++ ns) found := by
  cases found <;> simp [prepend, Prod.map]

/-- Digits are read from the left. -/
theorem hexNumber?_append_hexDigit (digits : List Char) (n : Nat) :
    hexNumber? (digits ++ [hexDigit n]) = (hexNumber? digits).map (16 * · + n % 16) := by
  unfold hexNumber?
  rw [List.foldlM_append]
  simp only [List.foldlM_cons, List.foldlM_nil, hexValue?_hexDigit, Option.map_some, bind_pure,
    Option.bind_eq_bind]
  exact Option.map_eq_bind.symm

/-- Four digits write every unit. -/
theorem hexNumber?_hexDigits {unit : Nat} (h : unit < 0x10000) :
    hexNumber? (hexDigits 4 unit) = some unit := by
  have hnil : hexNumber? [] = some 0 := rfl
  simp only [hexDigits, hexNumber?_append_hexDigit, hnil, Option.map_some, fourDigits_eq h]

/-! ## How each character is read

The cases are those of `Escaped`: a character is written as itself, by a letter, by one unit or by
two. -/

theorem readPoints_itself (hquote : c ≠ '\x22') (hbackslash : c ≠ '\x5c')
    (hprintable : isPrintableAscii c = true) :
    readPoints (c :: rest) = prepend [c.toNat] (readPoints rest) := by
  have hline : ¬ (c = '\x5c' ∨ c = '\n' ∨ c = '\r') := by
    rintro (rfl | rfl | rfl)
    · exact hbackslash rfl
    · cases hprintable
    · cases hprintable
  rw [readPoints, if_neg hline]
  · exact hquote
  · intro _ _ _ _ _ h
    exact absurd h hbackslash
  · intro _ _ h
    exact absurd h hbackslash

theorem readPoints_short {e : Char} (h : shortEscape? e = some c) :
    readPoints ('\x5c' :: e :: rest) = prepend [c.toNat] (readPoints rest) := by
  have hunit : e ≠ 'u' := by
    rintro rfl
    cases h
  rw [readPoints, h]
  · rfl
  · intro _ _ _ _ _ he
    exact absurd he hunit

/-- An escape is one code point, also where it is half of a pair. -/
theorem readPoints_escapeUnit {unit : Nat} (h : unit < 0x10000) :
    readPoints (escapeUnit unit ++ rest) = prepend [unit] (readPoints rest) := by
  have hdigits := hexNumber?_hexDigits h
  simp only [escapeUnit, hexDigits, List.nil_append, List.cons_append] at hdigits ⊢
  rw [readPoints, hdigits]
  rfl

theorem toNat_lt_of_isPrintableAscii (h : isPrintableAscii c = true) : c.toNat < 0x10000 := by
  rw [isPrintableAscii, Bool.and_eq_true, decide_eq_true_eq, decide_eq_true_eq] at h
  omega

/-- Python has the one-letter escapes of JSON, but for that of the slash. -/
theorem shortEscape?_of_json {e : Char} (hslash : e ≠ '/') (h : Json.shortEscape? e = some c) :
    shortEscape? e = some c ∧ c.toNat < 0x10000 := by
  have hmem := mem_of_shortEscape? h
  simp only [List.mem_cons, List.not_mem_nil, or_false] at hmem
  rcases hmem with rfl | rfl | rfl | rfl | rfl | rfl | rfl | rfl
  case inr.inr.inl => exact absurd rfl hslash
  all_goals
    obtain rfl := Option.some.inj h
    exact ⟨rfl, by decide⟩

/-- Whatever its escape is, a character is read as its units. -/
theorem readPoints_escapeChar (c : Char) (rest : List Char) :
    readPoints (escapeChar c ++ rest) = prepend (charUnits c) (readPoints rest) := by
  have h := escaped_escapeChar c
  generalize hes : escapeChar c = es at h ⊢
  cases h with
  | itself hquote hbackslash hprintable =>
    rw [charUnits_of_lt (toNat_lt_of_isPrintableAscii hprintable)]
    exact readPoints_itself hquote hbackslash hprintable
  | @short e _ _ hshort =>
    -- A slash is not escaped, although JSON would let it be.
    have hslash : e ≠ '/' := by
      rintro rfl
      cases hshort
      cases hes
    obtain ⟨hpython, hlt⟩ := shortEscape?_of_json hslash hshort
    rw [charUnits_of_lt hlt]
    exact readPoints_short hpython
  | unit h =>
    rw [readPoints_escapeUnit h, charUnits_of_lt h]
  | halves h =>
    -- both halves fit into four digits
    have hvalid := toNat_lt_or_lt c
    rw [List.append_assoc, readPoints_escapeUnit (by omega), readPoints_escapeUnit (by omega),
      prepend_prepend, charUnits_of_le h]
    rfl

/-! ## Literals -/

/-- A literal ends at its own quote, as no other quote is left bare. -/
theorem readPoints_flatMap_escapeChar (cs rest : List Char) :
    readPoints (cs.flatMap escapeChar ++ '\x22' :: rest) = some (cs.flatMap charUnits, rest) := by
  induction cs with
  | nil => rfl
  | cons c cs ih =>
    rw [List.flatMap_cons, List.append_assoc, readPoints_escapeChar, ih, List.flatMap_cons]
    rfl

/-- **A literal denotes the UTF-16 units of its text**, whatever stands behind it. -/
theorem readString_literal : Decodes readString codeUnits := by
  intro s rest
  have h := readPoints_flatMap_escapeChar s.toList rest
  rw [toList_literal]
  simp only [literalChars, List.cons_append, List.append_assoc, List.nil_append]
  exact h

/-- **A literal denotes its text exactly if the text keeps to the basic plane.** -/
theorem readString_literal_iff (s : String) (rest : List Char) :
    readString ((literal s).toList ++ rest) = some (codeUnits s, rest) ∧
      (readString ((literal s).toList ++ rest) = some (codePoints s, rest) ↔ IsBasic s) := by
  refine ⟨readString_literal s rest, ?_⟩
  rw [readString_literal s rest, Option.some.injEq, Prod.mk.injEq, codeUnits_eq_codePoints_iff]
  exact and_iff_left rfl

/-- A character beyond the basic plane comes back as two code points. -/
theorem not_readString_literal :
    ¬ ∀ s rest, readString ((literal s).toList ++ rest) = some (codePoints s, rest) := by
  intro h
  exact absurd (h "😀" []) (by decide +kernel)

/-! ## Metadata -/

/-- What follows a literal is shorter than the literal and what follows it, also with more of the
literal in front. -/
theorem length_lt_of_prepend {ns points : List Nat} {cs : List Char} (front : List Char)
    (ih : ∀ {more}, readPoints cs = some (more, rest) → rest.length < cs.length)
    (h : prepend ns (readPoints cs) = some (points, rest)) :
    rest.length < (front ++ cs).length := by
  obtain ⟨⟨more, rest'⟩, hmore, hpair⟩ := Option.map_eq_some_iff.1 h
  obtain rfl : rest' = rest := (Prod.mk.inj hpair).2
  rw [List.length_append]
  exact Nat.lt_of_lt_of_le (ih hmore) (Nat.le_add_left _ _)

/-- A literal takes up at least its closing quote. -/
theorem length_lt_of_readPoints {cs : List Char} {points : List Nat}
    (h : readPoints cs = some (points, rest)) : rest.length < cs.length := by
  fun_induction readPoints cs generalizing points with
  | case1 => cases h
  | case2 cs =>
    obtain ⟨-, rfl⟩ := Prod.mk.inj (Option.some.inj h)
    exact Nat.lt_succ_self _
  | case3 d₁ d₂ d₃ d₄ cs ih =>
    obtain ⟨_, -, h⟩ := Option.bind_eq_some_iff.1 h
    exact length_lt_of_prepend ['\x5c', 'u', d₁, d₂, d₃, d₄] ih h
  | case4 e cs _ ih =>
    obtain ⟨_, -, h⟩ := Option.bind_eq_some_iff.1 h
    exact length_lt_of_prepend ['\x5c', e] ih h
  | case5 => cases h
  | case6 c cs _ _ _ _ ih => exact length_lt_of_prepend [c] ih h

/-- The code points of all the literals in a line, in order. -/
def readStrings : List Char → Option (List (List Nat))
  | [] => some []
  | c :: cs =>
    if c = '\x22' then
      match _hread : readPoints cs with
      | none => none
      | some (points, rest) => (readStrings rest).map (points :: ·)
    else readStrings cs
termination_by cs => cs.length
decreasing_by
  · exact Nat.lt_succ_of_lt (length_lt_of_readPoints _hread)
  · exact Nat.lt_succ_self _

/-- The literals in a line are those of some texts, whatever comes behind it. -/
def Holds (line : String) (texts : List String) : Prop :=
  ∀ rest, readStrings (line.toList ++ rest) = (readStrings rest).map (texts.map codeUnits ++ ·)

theorem Holds.append {line more : String} {texts others : List String} (h : Holds line texts)
    (hmore : Holds more others) : Holds (line ++ more) (texts ++ others) := by
  intro rest
  rw [String.toList_append, List.append_assoc, h, hmore]
  cases readStrings rest <;> simp

/-- Without a quote there is no literal. -/
theorem holds_plain {line : String} {cs : List Char} (hline : line = String.ofList cs)
    (h : '\x22' ∉ cs) : Holds line [] := by
  intro rest
  rw [hline, String.toList_ofList]
  clear hline
  induction cs with
  | nil => simp
  | cons c cs ih =>
    have hquote : c ≠ '\x22' := fun hc => h (hc ▸ List.mem_cons_self)
    rw [List.cons_append, readStrings, if_neg hquote]
    exact ih fun hmem => h (List.mem_cons_of_mem c hmem)

/-- A literal holds its text. -/
theorem holds_literal (s : String) : Holds (literal s) [s] := by
  intro rest
  have h := readPoints_flatMap_escapeChar s.toList rest
  rw [toList_literal, literalChars]
  simp only [List.cons_append, List.append_assoc, List.nil_append]
  rw [readStrings, if_pos rfl]
  split
  · next hnone => cases hnone.symm.trans h
  · next points rest' hsome =>
    cases hsome.symm.trans h
    rfl

theorem holds_literals (texts : List String) :
    Holds (", ".intercalate (texts.map literal)) texts := by
  induction texts with
  | nil => exact holds_plain rfl (by decide)
  | cons text texts ih =>
    by_cases hnil : texts = []
    · rw [hnil, List.map_singleton, String.intercalate_singleton]
      exact holds_literal text
    · rw [List.map_cons, String.intercalate_cons_of_ne_nil (by simpa using hnil)]
      have hhead : Holds (literal text ++ ", ") [text] :=
        (holds_literal text).append (holds_plain rfl (by decide))
      exact hhead.append ih

/-- The brackets and commas of a list hold no literals. -/
theorem holds_listLiteral (texts : List String) : Holds (listLiteral texts) texts := by
  have hstart : Holds "[" [] := holds_plain rfl (by decide)
  have hend : Holds "]" [] := holds_plain rfl (by decide)
  have hall := (hstart.append (holds_literals texts)).append hend
  rw [List.nil_append, List.append_nil] at hall
  exact hall

/-- The name of an entry, between other things. -/
theorem holds_name {line before after : String} (name : String)
    (hline : line = before ++ literal name ++ after) (hbefore : Holds before [])
    (hafter : Holds after []) : Holds line [name] := by
  rw [hline]
  exact (hbefore.append (holds_literal name)).append hafter

/-- What the metadata of a node says in literals. -/
def metadataTexts (p : PlannedNode) : List String :=
  ["label", p.node.label, "description", p.node.description, "roles"] ++
    p.node.roles.map Role.text ++ ["tools"] ++ p.node.tools

/-- The texts come in the order in which they are written. -/
theorem holds_metadata (p : PlannedNode) : Holds (metadata p) (metadataTexts p) := by
  have hstart : Holds "\x7b" [] := holds_plain rfl (by decide)
  have hcomma : Holds ", " [] := holds_plain rfl (by decide)
  have hcolon : Holds ": " [] := holds_plain rfl (by decide)
  have hend : Holds "\x7d" [] := holds_plain rfl (by decide)
  -- the names of the entries, with the marks around them
  have hlabel : Holds "\x7b\"label\": " ["label"] :=
    holds_name "label" (by decide +kernel) hstart hcolon
  have hdescription : Holds ", \"description\": " ["description"] :=
    holds_name "description" (by decide +kernel) hcomma hcolon
  have hroles : Holds ", \"roles\": " ["roles"] :=
    holds_name "roles" (by decide +kernel) hcomma hcolon
  have htools : Holds ", \"tools\": " ["tools"] :=
    holds_name "tools" (by decide +kernel) hcomma hcolon
  have hall := (((((((hlabel.append (holds_literal p.node.label)).append hdescription).append
    (holds_literal p.node.description)).append hroles).append
    (holds_listLiteral (p.node.roles.map Role.text))).append htools).append
    (holds_listLiteral p.node.tools)).append hend
  rw [List.append_nil] at hall
  exact hall

/-- Python reads the texts in UTF-16 units. -/
theorem readStrings_metadata (p : PlannedNode) :
    readStrings (metadata p).toList = some ((metadataTexts p).map codeUnits) := by
  have h := holds_metadata p []
  rw [List.append_nil] at h
  simpa [readStrings] using h

/-- **The metadata of a node says its texts exactly if these keep to the basic plane.** -/
theorem readStrings_metadata_iff (p : PlannedNode) :
    readStrings (metadata p).toList = some ((metadataTexts p).map codePoints) ↔
      ∀ text ∈ p.node.label :: p.node.description :: p.node.tools, IsBasic text := by
  -- names and roles are ASCII, so they are in no one's way
  have hnames : ∀ text ∈ ["label", "description", "roles", "tools"], IsBasic text := by
    decide +kernel
  have hroles : ∀ text ∈ p.node.roles.map Role.text, IsBasic text := by
    intro _ htext
    obtain ⟨role, -, rfl⟩ := List.mem_map.1 htext
    cases role <;> decide +kernel
  rw [readStrings_metadata, Option.some.injEq, List.map_inj_left]
  simp only [codeUnits_eq_codePoints_iff, metadataTexts, List.forall_mem_append,
    List.forall_mem_cons] at hnames ⊢
  tauto

/-! ## Programs -/

variable {nodes : List Node} {edges : List Edge} {entryId : Option String} {p : Plan}

/-- Names are ASCII. -/
theorem codeUnits_eq_of_isName {s : String} (h : IsName s) : codeUnits s = codePoints s :=
  (codeUnits_eq_codePoints_iff s).2 fun c hc =>
    (toNat_lt_of_isNameChar (h.chars c hc)).trans (by decide)

/-- Sinks are keys of nodes. -/
theorem isName_sink (h : plan nodes edges entryId = .ok p) {key : String} (hkey : key ∈ p.sinks) :
    IsName key := by
  have hparts : Plan.Parts nodes edges entryId p := Plan.parts_of_plan h
  rw [hparts.sinks_eq] at hkey
  obtain ⟨id, hid, rfl⟩ := List.mem_map.1 hkey
  exact Plan.isName_keyOf (hparts.mem_ids.1 (List.mem_of_mem_filter hid))

/-- The keys of nodes are names, so in a wiring only a route key can go beyond the basic plane. -/
theorem map_wiring_eq_iff (h : plan nodes edges entryId = .ok p) :
    p.wiring.map codeUnits = p.wiring.map codePoints ↔
      ∀ b ∈ p.branches, ∀ r ∈ b.routes, IsBasic r.key := by
  have hkeys : ∀ key ∈ p.nodes.map PlannedNode.key, codeUnits key = codePoints key :=
    fun key hkey => codeUnits_eq_of_isName (Plan.isName_of_mem_keys h hkey)
  have hresolved := Plan.resolved_of_plan_eq_ok h
  simp only [Wiring.map, Plan.wiring, Wiring.mk.injEq, List.map_inj_left]
  constructor
  · rintro ⟨-, -, -, htables, -⟩ b hb r hr
    -- each row of each table has its key read alike
    have hrows := (Prod.mk.inj (htables (b.source, b.rows) (List.mem_map_of_mem hb))).2
    have hrow := List.map_inj_left.1 hrows (r.key, r.target) (List.mem_map_of_mem hr)
    exact (codeUnits_eq_codePoints_iff r.key).1 (Prod.mk.inj hrow).1
  · intro hroutes
    refine ⟨hkeys, ?entry, ?edges, ?tables, ?sinks⟩
    case entry =>
      intro key hkey
      exact hkeys key (hresolved.entry key (Option.mem_toList.1 hkey))
    case edges =>
      rintro ⟨source, target⟩ hedge
      obtain ⟨hsource, htarget⟩ := hresolved.edges (source, target) hedge
      exact Prod.ext (hkeys source hsource) (hkeys target htarget)
    case tables =>
      intro _ htable
      obtain ⟨b, hb, rfl⟩ := List.mem_map.1 htable
      refine Prod.ext (hkeys b.source (Plan.source_mem_keys h hb)) (List.map_inj_left.2 ?_)
      intro _ hrow
      obtain ⟨r, hr, rfl⟩ := List.mem_map.1 hrow
      exact Prod.ext ((codeUnits_eq_codePoints_iff r.key).2 (hroutes b hb r hr))
        (hkeys r.target (hresolved.targets b hb r hr))
    case sinks =>
      intro key hkey
      exact codeUnits_eq_of_isName (isName_sink h hkey)

/-- **A Python program builds the graph of its plan exactly if all route keys keep to the basic
plane.** -/
theorem read_program_iff (h : plan nodes edges entryId = .ok p) (project : Option String) :
    Target.python.read readString (p.program .python project) = some (p.wiring.map codePoints) ↔
      ∀ b ∈ p.branches, ∀ r ∈ b.routes, IsBasic r.key := by
  rw [Target.read_program readString_literal h project .python, Option.some.injEq,
    map_wiring_eq_iff h]

end AgentFlow.Skeleton.Python
