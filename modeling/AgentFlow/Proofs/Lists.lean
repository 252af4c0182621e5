import Mathlib.Data.List.Forall2
import Mathlib.Data.List.Nodup

/-!
# Related lists and look-up tables

What lists that are related entry by entry share, and look-up tables: lists of entries, each a key
and its value. Where no key is in a table twice, looking up the key of an entry gives its value.
-/

namespace AgentFlow

/-! ## Related lists -/

section Related

variable {α β γ : Type} {R : α → β → Prop} {as : List α} {bs : List β}

/-- Every entry of the second list is related to one of the first. -/
theorem exists_left_of_forall₂ (h : List.Forall₂ R as bs) {b : β} (hb : b ∈ bs) :
    ∃ a ∈ as, R a b := by
  induction h with
  | nil => simp at hb
  | @cons a b' _ _ hab _ ih =>
    rcases List.mem_cons.1 hb with rfl | hb
    · exact ⟨a, List.mem_cons_self, hab⟩
    · obtain ⟨a', ha', hab'⟩ := ih hb
      exact ⟨a', List.mem_cons_of_mem _ ha', hab'⟩

/-- Every entry of the first list is related to one of the second. -/
theorem exists_right_of_forall₂ (h : List.Forall₂ R as bs) {a : α} (ha : a ∈ as) :
    ∃ b ∈ bs, R a b :=
  exists_left_of_forall₂ (R := flip R) h.flip ha

/-- A relation may be replaced by another that it implies for the entries of the first list. -/
theorem forall₂_of_mem {S : α → β → Prop} (hRS : ∀ a ∈ as, ∀ b, R a b → S a b)
    (h : List.Forall₂ R as bs) : List.Forall₂ S as bs := by
  induction h with
  | nil => exact .nil
  | cons hab _ ih =>
    rw [List.forall_mem_cons] at hRS
    exact .cons (hRS.1 _ hab) (ih hRS.2)

/-- What is related to an appended list is appended, of what is related to the parts. -/
theorem exists_append_of_forall₂ {as' : List α} (h : List.Forall₂ R (as ++ as') bs) :
    ∃ bs₁ bs₂, bs = bs₁ ++ bs₂ ∧ List.Forall₂ R as bs₁ ∧ List.Forall₂ R as' bs₂ := by
  induction as generalizing bs with
  | nil => exact ⟨[], bs, rfl, .nil, h⟩
  | cons a as ih =>
    cases h with
    | cons hab h =>
      obtain ⟨bs₁, bs₂, rfl, h₁, h₂⟩ := ih h
      exact ⟨_ :: bs₁, bs₂, rfl, .cons hab h₁, h₂⟩

/-- What two functions read off related entries alike, they read off the lists alike. -/
theorem map_eq_of_forall₂ {f : α → γ} {g : β → γ} (hfg : ∀ a b, R a b → g b = f a)
    (h : List.Forall₂ R as bs) : bs.map g = as.map f := by
  induction h with
  | nil => rfl
  | cons hab _ ih => rw [List.map_cons, List.map_cons, hfg _ _ hab, ih]

/-- If what is counted in the second list is related to what is counted in the first, the first
count is no less. -/
theorem countP_le_of_forall₂ {p : α → Bool} {q : β → Bool} (hpq : ∀ a b, R a b → q b → p a)
    (h : List.Forall₂ R as bs) : bs.countP q ≤ as.countP p := by
  induction h with
  | nil => exact Nat.le_refl _
  | @cons a b _ _ hab _ ih =>
    rw [List.countP_cons, List.countP_cons]
    -- An entry that counts in the second list counts in the first, where more may count.
    by_cases hq : q b = true
    · rw [if_pos hq, if_pos (hpq a b hab hq)]
      exact Nat.add_le_add_right ih 1
    · rw [if_neg hq]
      exact Nat.le_trans ih (Nat.le_add_right _ _)

/-- Every element is related to what is made of it and its number. -/
theorem forall₂_mapIdx {f : Nat → α → β} (h : ∀ i a, as[i]? = some a → R a (f i a)) :
    List.Forall₂ R as (as.mapIdx f) := by
  induction as generalizing f with
  | nil => exact .nil
  | cons a rest ih =>
    rw [List.mapIdx_cons]
    exact .cons (h 0 a rfl) (ih fun i b hb => h (i + 1) b hb)

/-- Two ways to make a list of one. -/
theorem forall₂_map_map {cs : List γ} {f : γ → α} {g : γ → β} (h : ∀ c ∈ cs, R (f c) (g c)) :
    List.Forall₂ R (cs.map f) (cs.map g) := by
  rw [List.forall₂_map_left_iff, List.forall₂_map_right_iff]
  exact List.forall₂_same.2 h

end Related

/-! ## Kept elements -/

section Kept

variable {α β γ : Type} {p : α → Bool} {as : List α}

/-- What is kept by a look at the elements alone does not depend on their numbers. -/
theorem map_filter_mapIdx {f : Nat → α → β} {g : β → γ} {h : α → γ}
    (hf : ∀ i a, g (f i a) = h a) :
    (((as.mapIdx fun i a => (a, f i a)).filter fun (a, _) => p a).map (·.2)).map g =
      (as.filter p).map h := by
  induction as generalizing f with
  | nil => rfl
  | cons a rest ih =>
    have hrest := ih (f := fun i => f (i + 1)) fun i => hf (i + 1)
    rw [List.mapIdx_cons]
    cases hp : p a with
    | true => simp only [List.filter_cons, hp, if_true, List.map_cons, hf, hrest]
    | false => simp only [List.filter_cons, hp, Bool.false_eq_true, if_false, hrest]

/-- Elements that add nothing can be left out. -/
theorem flatMap_filter_of_eq_nil {f : α → List β} (hf : ∀ a, p a = false → f a = []) :
    (as.filter p).flatMap f = as.flatMap f := by
  induction as with
  | nil => rfl
  | cons a rest ih =>
    cases hp : p a with
    | true => simp [hp, ih]
    | false => simp [hp, hf a hp, ih]

end Kept

/-! ## Lists by their keys -/

section Keyed

variable {α κ : Type} [DecidableEq κ] {f : α → κ} {as bs : List α}

/-- A list is made of its keys, in order, and of what it holds under each. -/
theorem eq_of_filter_eq (hkeys : as.map f = bs.map f)
    (h : ∀ k, as.filter (f · = k) = bs.filter (f · = k)) : as = bs := by
  induction as generalizing bs with
  | nil => exact (List.map_eq_nil_iff.1 hkeys.symm).symm
  | cons a rest ih =>
    obtain ⟨b, rest', rfl, hkey, htail⟩ := List.map_eq_cons_iff.1 hkeys.symm
    -- Under the first key both lists hold their heads first, so the heads are the same.
    have hhead := h (f a)
    rw [List.filter_cons_of_pos (by simp), List.filter_cons_of_pos (by simp [hkey]),
      List.cons.injEq] at hhead
    obtain ⟨rfl, -⟩ := hhead
    refine congrArg _ (ih htail.symm fun k => ?_)
    have hk := h k
    rw [List.filter_cons, List.filter_cons] at hk
    split at hk
    · exact (List.cons.inj hk).2
    · exact hk

/-- Lists that hold the same under each key, and have the same keys but for the order of the last
two, differ in nothing but that order. -/
theorem exists_swap_of_filter_eq {ks : List κ} {k l : κ} (hkl : k ≠ l)
    (has : as.map f = ks ++ [k, l]) (hbs : bs.map f = ks ++ [l, k])
    (h : ∀ k, as.filter (f · = k) = bs.filter (f · = k)) :
    ∃ cs a b, as = cs ++ [a, b] ∧ bs = cs ++ [b, a] := by
  obtain ⟨cs, ends, rfl, rfl, hends⟩ := List.map_eq_append_iff.1 hbs
  obtain ⟨b, last, rfl, rfl, hlast⟩ := List.map_eq_cons_iff.1 hends
  obtain ⟨a, rfl, rfl⟩ := List.map_eq_singleton_iff.1 hlast
  refine ⟨cs, a, b, eq_of_filter_eq (by simpa using has) fun x => ?_, rfl⟩
  -- In front of the last two nothing differs, so only how these two are ordered is left to look at.
  rw [h x, List.filter_append, List.filter_append]
  refine congrArg _ ?_
  by_cases ha : f a = x
  · have hb : f b ≠ x := fun hb => hkl (ha.trans hb.symm)
    simp [ha, hb]
  · simp [List.filter_cons, ha]

end Keyed

/-! ## Distinct keys -/

/-- Where no two elements have the same key, one element has the key of a given one. -/
theorem filter_eq_singleton {α κ : Type} [DecidableEq κ] {f : α → κ} {as : List α} {a : α}
    (h : (as.map f).Nodup) (ha : a ∈ as) : as.filter (f · = f a) = [a] := by
  obtain ⟨before, after, rfl⟩ := List.append_of_mem ha
  rw [List.map_append, List.map_cons, List.nodup_middle, List.nodup_cons, ← List.map_append] at h
  have hothers : (before ++ after).filter (f · = f a) = [] := by
    rw [List.filter_eq_nil_iff]
    intro b hb hkey
    exact h.1 (of_decide_eq_true hkey ▸ List.mem_map_of_mem hb)
  rw [List.filter_append, List.append_eq_nil_iff] at hothers
  simp [hothers.1, hothers.2]

/-- Some elements are given one key. Distinct keys stay distinct exactly if only one element is
given it, and no other has it. -/
theorem nodup_map_ite_iff {α κ : Type} {f : α → κ} {p : α → Bool} {as : List α} {k : κ}
    (h : (as.map f).Nodup) (hp : ∃ a ∈ as, p a = true) :
    (as.map fun a => if p a then k else f a).Nodup ↔
      as.countP p ≤ 1 ∧ ∀ a ∈ as, p a = false → f a ≠ k := by
  -- Put the elements that are given the key first, and count copies of it.
  have hgiven : (as.filter p).map (fun a => if p a then k else f a) =
      List.replicate (as.countP p) k := by
    rw [List.countP_eq_length_filter, ← List.map_const']
    exact List.map_congr_left fun a ha => if_pos (List.mem_filter.1 ha).2
  have hothers : (as.filter (!p ·)).map (fun a => if p a then k else f a) =
      (as.filter (!p ·)).map f :=
    List.map_congr_left fun a ha => if_neg (by simpa using (List.mem_filter.1 ha).2)
  have hkept : ((as.filter (!p ·)).map f).Nodup := h.sublist (List.filter_sublist.map f)
  have hpos : as.countP p ≠ 0 := Nat.pos_iff_ne_zero.1 (List.countP_pos_iff.2 hp)
  rw [← ((List.filter_append_perm p as).map _).nodup_iff, List.map_append, hgiven, hothers,
    List.nodup_append', List.nodup_replicate, and_iff_right hkept]
  refine and_congr_right fun _ => ?_
  simp [List.disjoint_left, hpos]

/-! ## Look-up tables -/

variable {κ β : Type} [DecidableEq κ] {table : List (κ × β)} {k : κ} {v : β}

/-- Nothing is found exactly under a key that no entry has. -/
theorem lookup_eq_none_iff_notMem : table.lookup k = none ↔ k ∉ table.map Prod.fst := by
  rw [List.lookup_eq_none_iff]
  constructor
  · intro h hk
    obtain ⟨entry, hentry, rfl⟩ := List.mem_map.1 hk
    simpa using h entry hentry
  · intro h entry hentry
    rw [bne_iff_ne]
    rintro rfl
    exact h (List.mem_map_of_mem hentry)

/-- What is found under a key is an entry of the table. -/
theorem mem_of_lookup (h : table.lookup k = some v) : (k, v) ∈ table := by
  obtain ⟨before, after, rfl, -⟩ := List.lookup_eq_some_iff.1 h
  simp

/-- Where no key is in a table twice, every entry is found under its key. -/
theorem lookup_of_mem (h : (table.map Prod.fst).Nodup) (hmem : (k, v) ∈ table) :
    table.lookup k = some v := by
  induction table with
  | nil => simp at hmem
  | cons entry rest ih =>
    obtain ⟨hnotMem, hrest⟩ := List.nodup_cons.1 h
    rcases List.mem_cons.1 hmem with rfl | hmem
    · rw [List.lookup_cons, beq_self_eq_true]
    · -- The head has another key, for this one is further down and is in the table once.
      have hne : k ≠ entry.1 := by
        rintro rfl
        exact hnotMem (List.mem_map.2 ⟨_, hmem, rfl⟩)
      rw [List.lookup_cons, beq_eq_false_iff_ne.2 hne]
      exact ih hrest hmem

/-- Every key of a table finds the value that was put beside it. -/
theorem map_lookup_zip {ks : List κ} (vs : List β) (h : ks.Nodup)
    (hlen : ks.length = vs.length) : ks.map (List.lookup · (ks.zip vs)) = vs.map some := by
  have hkeys : (ks.zip vs).map Prod.fst = ks := List.map_fst_zip (Nat.le_of_eq hlen)
  have hvalues : (ks.zip vs).map Prod.snd = vs := List.map_snd_zip (Nat.le_of_eq hlen.symm)
  have hlookup : ∀ entry ∈ ks.zip vs, (ks.zip vs).lookup entry.1 = some entry.2 :=
    fun entry hentry => lookup_of_mem (by rwa [hkeys]) hentry
  calc ks.map (List.lookup · (ks.zip vs))
      = ((ks.zip vs).map Prod.fst).map (List.lookup · (ks.zip vs)) := by rw [hkeys]
    _ = (ks.zip vs).map fun entry => some entry.2 := by
      rw [List.map_map]
      exact List.map_congr_left hlookup
    _ = ((ks.zip vs).map Prod.snd).map some := by rw [List.map_map]; rfl
    _ = vs.map some := by rw [hvalues]

end AgentFlow
