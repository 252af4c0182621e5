import AgentFlow.Text.Runs
import AgentFlow.Proofs.Text.Pieces
import Mathlib.Data.List.TakeWhile

/-!
# Runs are maximal

The runs of a text are its pieces between the other characters, as far as these are not empty
(`runs_eq_filter_pieces`). So each run is as long as it can be, and all such runs are there
(`mem_runs_iff`); a character that belongs to no run separates the runs before it from those behind
it (`runs_append_cons`); and runs that are joined by such characters come apart again
(`runs_intercalate`).
-/

namespace AgentFlow.Text

variable {p : Char → Bool} {c sep : Char} {cs run before after : List Char}

theorem forall_of_mem_runs (h : run ∈ runs p cs) (hc : c ∈ run) : p c = true := by
  have hmem : c ∈ (runs p cs).flatten := List.mem_flatten.2 ⟨run, h, hc⟩
  rw [flatten_runs] at hmem
  exact (List.mem_filter.1 hmem).2

/-! ## Runs as pieces -/

/-- Separators in front make empty pieces only. -/
theorem filter_pieces_dropWhile (isSeparator : Char → Bool) (cs : List Char) :
    (pieces isSeparator (cs.dropWhile isSeparator)).filter (· ≠ []) =
      (pieces isSeparator cs).filter (· ≠ []) := by
  induction cs with
  | nil => rfl
  | cons c rest ih =>
    cases hc : isSeparator c with
    | true => simpa [pieces, hc] using ih
    | false => rw [List.dropWhile_cons_of_neg (by simp [hc])]

/-- Runs are what is left of the pieces once the empty ones are gone. -/
theorem runs_eq_filter_pieces (p : Char → Bool) (cs : List Char) :
    runs p cs = (pieces (!p ·) cs).filter (· ≠ []) := by
  fun_induction runs p cs with
  | case1 cs h =>
    rw [← filter_pieces_dropWhile, h]
    rfl
  | case2 cs c rest h ih =>
    have hc : p c = true := by simpa [h] using List.head?_dropWhile_not (!p ·) cs
    have hrun : ∀ d ∈ c :: rest.takeWhile p, (!p d) = false := by
      simpa [hc] using fun d hd => List.mem_takeWhile_imp hd
    have hrest : c :: rest = (c :: rest.takeWhile p) ++ rest.dropWhile p := by
      rw [List.cons_append, List.takeWhile_append_dropWhile]
    -- The text starts with a run, so this is the first piece that is not empty.
    rw [ih, ← filter_pieces_dropWhile _ cs, h, hrest]
    cases hdrop : rest.dropWhile p with
    | nil =>
      rw [List.append_nil, pieces_eq_singleton hrun]
      rfl
    | cons d more =>
      have hd : p d = false := by simpa [hdrop] using List.head?_dropWhile_not p rest
      rw [pieces_append_cons (by simp [hd]), pieces_eq_singleton hrun]
      simp [pieces, hd]

/-- What belongs to no run separates runs. -/
theorem runs_append_cons (hsep : p sep = false) (before after : List Char) :
    runs p (before ++ sep :: after) = runs p before ++ runs p after := by
  rw [runs_eq_filter_pieces, pieces_append_cons (by simp [hsep]), List.filter_append,
    ← runs_eq_filter_pieces, ← runs_eq_filter_pieces]

theorem runs_eq_singleton (h : ∀ c ∈ run, p c = true) (hne : run ≠ []) : runs p run = [run] := by
  rw [runs_eq_filter_pieces, pieces_eq_singleton (by simpa using h)]
  simp [hne]

/-- Runs that are joined come apart again. -/
theorem runs_intercalate {words : List (List Char)} (hsep : p sep = false)
    (h : ∀ word ∈ words, word ≠ [] ∧ ∀ c ∈ word, p c = true) :
    runs p ([sep].intercalate words) = words := by
  by_cases hnil : words = []
  · rw [hnil]
    simp [runs_eq_filter_pieces, pieces]
  · rw [runs_eq_filter_pieces, pieces_intercalate (by simp [hsep]) ?_ hnil, List.filter_eq_self]
    · exact fun word hword => decide_eq_true (h word hword).1
    · exact fun word hword c hc => by simp [(h word hword).2 c hc]

/-! ## What a maximal run is -/

/-- A stretch of the text in which every character satisfies `p`, and which cannot be made longer at
either end. -/
structure IsMaximalRun (p : Char → Bool) (run cs : List Char) : Prop where
  ne_nil : run ≠ []
  all : ∀ c ∈ run, p c = true
  between : ∃ before after, cs = before ++ run ++ after ∧
    (∀ c ∈ before.getLast?, p c = false) ∧ ∀ c ∈ after.head?, p c = false

theorem isMaximalRun_of_mem_runs (h : run ∈ runs p cs) : IsMaximalRun p run cs := by
  have hall : ∀ c ∈ run, p c = true := fun c => forall_of_mem_runs h
  refine ⟨ne_nil_of_mem_runs h, hall, ?_⟩
  fun_induction runs p cs with
  | case1 => cases h
  | case2 cs c rest hcs ih =>
    have hfront : ∀ d ∈ cs.takeWhile (!p ·), p d = false := by
      simpa using fun d (hd : d ∈ cs.takeWhile (!p ·)) => List.mem_takeWhile_imp hd
    have hback : ∀ d ∈ (rest.dropWhile p).head?, p d = false := by
      intro d hd
      simpa [Option.mem_def.1 hd] using List.head?_dropWhile_not p rest
    have hparts : cs = cs.takeWhile (!p ·) ++ (c :: rest.takeWhile p) ++ rest.dropWhile p := by
      rw [List.append_assoc, List.cons_append, List.takeWhile_append_dropWhile, ← hcs,
        List.takeWhile_append_dropWhile]
    -- The run is the first one, or one of those behind it, of which the hypothesis speaks.
    rcases List.mem_cons.1 h with rfl | h
    · exact ⟨_, _, hparts, fun d hd => hfront d (List.mem_of_getLast? hd), hback⟩
    · obtain ⟨before, after, heq, hbefore, hafter⟩ := ih h
      -- The first character behind a run belongs to none.
      have hne : before ≠ [] := by
        rintro rfl
        obtain ⟨d, more, rfl⟩ := List.exists_cons_of_ne_nil (ne_nil_of_mem_runs h)
        rw [heq] at hback
        have hd := hback d rfl
        rw [hall d List.mem_cons_self] at hd
        cases hd
      refine ⟨cs.takeWhile (!p ·) ++ (c :: rest.takeWhile p) ++ before, after, ?_, ?_, hafter⟩
      · rw [List.append_assoc _ before, List.append_assoc _ (before ++ run), ← heq]
        exact hparts
      · rwa [List.getLast?_append_of_ne_nil _ hne]

/-- **The runs of a text are its maximal runs, all of them.** -/
theorem mem_runs_iff : run ∈ runs p cs ↔ IsMaximalRun p run cs := by
  refine ⟨isMaximalRun_of_mem_runs, ?_⟩
  rintro ⟨hne, hall, before, after, rfl, hbefore, hafter⟩
  -- What is before the run ends with a separator, which the runs are cut at.
  have hbehind : run ∈ runs p (run ++ after) := by
    cases after with
    | nil =>
      rw [List.append_nil, runs_eq_singleton hall hne]
      exact List.mem_singleton.2 rfl
    | cons d more =>
      rw [runs_append_cons (hafter d rfl), runs_eq_singleton hall hne]
      exact List.mem_cons_self
  rcases List.eq_nil_or_concat before with rfl | ⟨front, d, rfl⟩
  · exact hbehind
  · rw [List.append_assoc, List.concat_eq_append, List.append_assoc, List.singleton_append,
      runs_append_cons (hbefore d (by simp))]
    exact List.mem_append_right _ hbehind

end AgentFlow.Text
