import AgentFlow.Proofs.Json.Parts
import Mathlib.Data.List.Induction

/-!
# Settled fields and merged values

Settling leaves each name once (`nodup_settle`) and changes nothing more where names are distinct
(`settle_of_nodup`). Merging goes through all the parts of a value, and merging twice is merging
once (`merged_merged`). Both keep finite numbers.
-/

namespace AgentFlow.Json

variable {α β : Type}

/-! ## Settling -/

/-- A field may be put in its place before or after the values are mapped. -/
theorem putField_map (f : α → β) (fields : List (String × α)) (name : String) (v : α) :
    putField (fields.map (Prod.map id f)) name (f v) =
      (putField fields name v).map (Prod.map id f) := by
  induction fields with
  | nil => rfl
  | cons field rest ih =>
    rw [List.map_cons, putField, putField, Prod.map_fst, id_eq]
    split
    · rfl
    · rw [ih]
      rfl

theorem settle_concat (fields : List (String × α)) (field : String × α) :
    settle (fields ++ [field]) = putField (settle fields) field.1 field.2 := by
  rw [settle, List.foldl_append]
  rfl

/-- So may fields be settled. -/
theorem settle_map (f : α → β) (fields : List (String × α)) :
    settle (fields.map (Prod.map id f)) = (settle fields).map (Prod.map id f) := by
  induction fields using List.reverseRecOn with
  | nil => rfl
  | append_singleton fields field ih =>
    rw [List.map_append, List.map_singleton, settle_concat, settle_concat, ih]
    exact putField_map f _ _ _

/-- A new name comes last. -/
theorem putField_of_notMem {fields : List (String × α)} {name : String} (v : α)
    (h : name ∉ fields.map Prod.fst) : putField fields name v = fields ++ [(name, v)] := by
  induction fields with
  | nil => rfl
  | cons field rest ih =>
    rw [List.map_cons, List.mem_cons, not_or] at h
    rw [putField, if_neg (Ne.symm h.1), ih h.2]
    rfl

/-- A repeated name keeps its place. -/
theorem map_fst_putField_of_mem {fields : List (String × α)} {name : String} (v : α)
    (h : name ∈ fields.map Prod.fst) :
    (putField fields name v).map Prod.fst = fields.map Prod.fst := by
  induction fields with
  | nil => cases h
  | cons field rest ih =>
    rw [putField]
    split
    · rfl
    · next hne =>
      have hrest : name ∈ rest.map Prod.fst :=
        (List.mem_cons.1 h).resolve_left fun heq => hne heq.symm
      rw [List.map_cons, ih hrest, List.map_cons]

theorem mem_of_mem_putField {fields : List (String × α)} {name : String} {v : α}
    {field : String × α} (h : field ∈ putField fields name v) :
    field ∈ fields ∨ field = (name, v) := by
  induction fields with
  | nil => exact .inr (List.mem_singleton.1 h)
  | cons first rest ih =>
    rw [putField] at h
    split at h
    · next heq =>
      rcases List.mem_cons.1 h with rfl | h
      · exact .inr (Prod.ext heq rfl)
      · exact .inl (List.mem_cons_of_mem _ h)
    · rcases List.mem_cons.1 h with rfl | h
      · exact .inl List.mem_cons_self
      · exact (ih h).imp_left (List.mem_cons_of_mem _)

/-- Settled fields have distinct names. -/
theorem nodup_settle (fields : List (String × α)) : ((settle fields).map Prod.fst).Nodup := by
  induction fields using List.reverseRecOn with
  | nil => exact .nil
  | append_singleton fields field ih =>
    rw [settle_concat]
    -- Either the name is there and keeps its place, or it is new and comes last.
    by_cases hmem : field.1 ∈ (settle fields).map Prod.fst
    · rwa [map_fst_putField_of_mem _ hmem]
    · rw [putField_of_notMem _ hmem, List.map_append, List.map_singleton, List.nodup_append]
      refine ⟨ih, List.pairwise_singleton _ _, fun name hname last hlast heq => hmem ?_⟩
      rwa [← List.mem_singleton.1 hlast, ← heq]

/-- Fields with distinct names are settled. -/
theorem settle_of_nodup {fields : List (String × α)} (h : (fields.map Prod.fst).Nodup) :
    settle fields = fields := by
  induction fields using List.reverseRecOn with
  | nil => rfl
  | append_singleton fields field ih =>
    rw [List.map_append, List.map_singleton, List.nodup_append] at h
    have hnew : field.1 ∉ fields.map Prod.fst := fun hmem =>
      h.2.2 _ hmem _ (List.mem_singleton_self _) rfl
    rw [settle_concat, ih h.1, putField_of_notMem _ hnew]

/-- Settling brings in no field. -/
theorem mem_of_mem_settle {fields : List (String × α)} {field : String × α}
    (h : field ∈ settle fields) : field ∈ fields := by
  induction fields using List.reverseRecOn with
  | nil => cases h
  | append_singleton fields last ih =>
    rw [settle_concat] at h
    rcases mem_of_mem_putField h with h | rfl
    · exact List.mem_append_left _ (ih h)
    · exact List.mem_append_right _ (List.mem_singleton_self _)

/-! ## Merging -/

theorem mergedFields_eq_map (fields : List (String × Json)) :
    mergedFields fields = fields.map (Prod.map id merged) := by
  induction fields with
  | nil => rfl
  | cons field rest ih => rw [mergedFields, ih, List.map_cons]; rfl

/-- Settling and merging the values do not get in each other's way. -/
theorem mergedFields_settle (fields : List (String × Json)) :
    mergedFields (settle fields) = settle (mergedFields fields) := by
  rw [mergedFields_eq_map, mergedFields_eq_map, settle_map]

mutual

/-- Merging a merged value changes nothing. -/
theorem merged_merged : (v : Json) → v.merged.merged = v.merged
  | .arr items => by rw [merged, merged, mergedItems_mergedItems items]
  | .obj fields => by
    rw [merged, merged, mergedFields_settle, mergedFields_mergedFields fields,
      settle_of_nodup (nodup_settle _)]
  | .torn v => by rw [merged, merged, merged_merged v]
  | .null | .bool _ | .int _ | .float _ | .str _ => rfl

theorem mergedItems_mergedItems : (items : List Json) →
    mergedItems (mergedItems items) = mergedItems items
  | [] => rfl
  | v :: rest => by rw [mergedItems, mergedItems, merged_merged v, mergedItems_mergedItems rest]

theorem mergedFields_mergedFields : (fields : List (String × Json)) →
    mergedFields (mergedFields fields) = mergedFields fields
  | [] => rfl
  | (name, v) :: rest => by
    rw [mergedFields, mergedFields, merged_merged v, mergedFields_mergedFields rest]

end

/-- An object that has been read as anything is read as itself. -/
theorem settle_mergedFields_idem (fields : List (String × Json)) :
    settle (mergedFields (settle (mergedFields fields))) = settle (mergedFields fields) := by
  rw [mergedFields_settle, mergedFields_mergedFields, settle_of_nodup (nodup_settle _)]

/-! ## Finite numbers -/

/-- What holds of all fields holds of those that settling leaves. -/
theorem all_settle_of_all {p : String × α → Bool} {fields : List (String × α)}
    (h : fields.all p = true) : (settle fields).all p = true := by
  rw [List.all_eq_true] at h ⊢
  exact fun field hfield => h field (mem_of_mem_settle hfield)

mutual

/-- Merging brings in no number. -/
theorem hasFiniteNumbers_merged : (v : Json) → v.hasFiniteNumbers = true →
    v.merged.hasFiniteNumbers = true
  | .arr items, h => by
    rw [hasFiniteNumbers_arr] at h
    rw [merged, hasFiniteNumbers_arr]
    exact all_mergedItems items h
  | .obj fields, h => by
    rw [hasFiniteNumbers_obj] at h
    rw [merged, hasFiniteNumbers_obj]
    exact all_settle_of_all (all_mergedFields fields h)
  | .torn v, h => by
    rw [hasFiniteNumbers_torn] at h
    rw [merged, hasFiniteNumbers_torn, hasFiniteNumbers_merged v h]
  | .null, _ | .bool _, _ | .int _, _ | .str _, _ => rfl
  | .float _, h => h

theorem all_mergedItems : (items : List Json) → items.all hasFiniteNumbers = true →
    (mergedItems items).all hasFiniteNumbers = true
  | [], _ => rfl
  | v :: rest, h => by
    rw [List.all_cons, Bool.and_eq_true] at h
    rw [mergedItems, List.all_cons, hasFiniteNumbers_merged v h.1, all_mergedItems rest h.2]
    rfl

theorem all_mergedFields : (fields : List (String × Json)) →
    fields.all (·.2.hasFiniteNumbers) = true →
    (mergedFields fields).all (·.2.hasFiniteNumbers) = true
  | [], _ => rfl
  | (name, v) :: rest, h => by
    rw [List.all_cons, Bool.and_eq_true] at h
    rw [mergedFields, List.all_cons, hasFiniteNumbers_merged v h.1, all_mergedFields rest h.2]
    rfl

end

end AgentFlow.Json
