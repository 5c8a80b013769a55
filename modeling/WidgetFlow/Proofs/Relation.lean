import Mathlib.Logic.Basic
import WidgetFlow.Relation

/-!
# What relations hold

All that matters of a relation is which pairs it holds. The lemmas of this module say so for every
operation on relations, and later modules use nothing else about them.
-/

namespace WidgetFlow.Relation

variable {α β : Type} [Ord α] [Ord β] [Std.TransOrd α] [Std.TransOrd β]
variable [Std.LawfulEqOrd α] [Std.LawfulEqOrd β]
variable {relation : Relation α β} {key other : α} {v : β}

omit [Std.TransOrd α] [Std.TransOrd β] [Std.LawfulEqOrd α] [Std.LawfulEqOrd β] in
theorem holds_iff_mem_row : relation.holds key v ↔ v ∈ relation.row key :=
  Std.TreeSet.contains_iff_mem

omit [Std.LawfulEqOrd α] [Std.LawfulEqOrd β] [Std.TransOrd β] in
@[simp] theorem holds_empty : ({} : Relation α β).holds key v = false := by
  simp only [holds, row]
  rw [Std.TreeMap.getD_emptyc]
  exact Std.TreeSet.contains_emptyc

/-- A relation with one more pair holds that pair and those that it held before. -/
@[simp] theorem holds_add {v' : β} :
    (relation.add key v).holds other v' ↔
      (other = key ∧ v' = v) ∨ relation.holds other v' := by
  rw [holds_iff_mem_row, holds_iff_mem_row, row, add, Std.TreeMap.getD_insert]
  by_cases h : key = other
  · subst h
    simp [Std.TreeSet.mem_insert, row, eq_comm (a := v')]
  · rw [if_neg (by simpa using h)]
    simp [row, Ne.symm h]

/-- What is true of the new pair and of those before is true of all pairs. -/
theorem forall_add {good : α → β → Prop} (hnew : good key v)
    (hold : ∀ key v, relation.holds key v → good key v) :
    ∀ key' v', (relation.add key v).holds key' v' → good key' v' := by
  intro key' v' h
  rcases holds_add.mp h with ⟨rfl, rfl⟩ | h
  · exact hnew
  · exact hold key' v' h

omit [Std.TransOrd α] [Std.LawfulEqOrd α] in
@[simp] theorem mem_image : v ∈ relation.image key ↔ relation.holds key v := by
  rw [image, Std.TreeSet.mem_toList, holds_iff_mem_row]

theorem mem_rows {values : List β} (h : (key, values) ∈ relation.rows) :
    v ∈ values ↔ relation.holds key v := by
  simp only [rows, List.mem_filter, List.mem_map, Prod.mk.injEq] at h
  obtain ⟨⟨⟨found, row⟩, hrow, rfl, rfl⟩, _⟩ := h
  rw [Std.TreeMap.mem_toList_iff_getElem?_eq_some] at hrow
  rw [Std.TreeSet.mem_toList, holds_iff_mem_row, Relation.row, Std.TreeMap.getD_eq_getD_getElem?,
    hrow, Option.getD_some]

theorem exists_of_mem_rows {values : List β} (h : (key, values) ∈ relation.rows) :
    ∃ v, relation.holds key v := by
  have hvalues : values ≠ [] := by
    simp only [rows, List.mem_filter, Bool.not_eq_true', List.isEmpty_eq_false_iff] at h
    exact h.2
  obtain ⟨v, hvalue⟩ := List.exists_mem_of_ne_nil values hvalues
  exact ⟨v, (mem_rows h).mp hvalue⟩

theorem exists_mem_rows (h : relation.holds key v) :
    ∃ values, (key, values) ∈ relation.rows ∧ v ∈ values := by
  rw [holds_iff_mem_row, row, Std.TreeMap.getD_eq_getD_getElem?] at h
  cases hrow : relation.table[key]? with
  | none =>
    rw [hrow, Option.getD_none] at h
    exact absurd h Std.TreeSet.not_mem_emptyc
  | some found =>
    rw [hrow, Option.getD_some] at h
    have hvalue : v ∈ found.toList := Std.TreeSet.mem_toList.mpr h
    refine ⟨found.toList, ?_, hvalue⟩
    simp only [rows, List.mem_filter, List.mem_map, Prod.mk.injEq]
    refine ⟨⟨(key, found), ?_, rfl, rfl⟩, ?_⟩
    · exact Std.TreeMap.mem_toList_iff_getElem?_eq_some.mpr hrow
    · rw [List.isEmpty_eq_false_iff.mpr (List.ne_nil_of_mem hvalue), Bool.not_false]

@[simp] theorem mem_pairs : (key, v) ∈ relation.pairs ↔ relation.holds key v := by
  simp only [pairs, List.mem_flatMap, List.mem_map, Prod.mk.injEq]
  constructor
  · rintro ⟨⟨found, values⟩, hrow, member, hmember, rfl, rfl⟩
    exact (mem_rows hrow).mp hmember
  · intro h
    obtain ⟨values, hrow, hvalue⟩ := exists_mem_rows h
    exact ⟨(key, values), hrow, v, hvalue, rfl, rfl⟩

omit [Std.TransOrd α] [Std.TransOrd β] [Std.LawfulEqOrd α] [Std.LawfulEqOrd β] in
/-- What a relation holds after a loop, if every round may be the cause of a pair. -/
theorem holds_foldl {σ γ : Type} (view : σ → Relation α β) {step : σ → γ → σ} (cause : γ → Prop)
    (hstep : ∀ st e, (view (step st e)).holds key v ↔
      cause e ∨ (view st).holds key v) (elements : List γ) (st : σ) :
    (view (elements.foldl step st)).holds key v ↔
      (∃ e ∈ elements, cause e) ∨ (view st).holds key v := by
  induction elements generalizing st with
  | nil => simp
  | cons first rest ih =>
    rw [List.foldl_cons, ih, hstep]
    simp only [List.mem_cons, exists_eq_or_imp]
    rw [or_left_comm, or_assoc]

theorem holds_foldl_add {γ : Type} (relation : Relation α β) (elements : List γ)
    (pair : γ → α × β) (key : α) (v : β) :
    (elements.foldl (fun relation e => relation.add (pair e).1 (pair e).2)
      relation).holds key v ↔
      (∃ e ∈ elements, pair e = (key, v)) ∨ relation.holds key v := by
  refine holds_foldl id _ (fun relation e => ?_) elements relation
  rw [id, id, holds_add, Prod.ext_iff, eq_comm (a := key), eq_comm (a := v)]

@[simp] theorem holds_add_all {values : List β} {v' : β} :
    (relation.addAll key values).holds other v' ↔
      (other = key ∧ v' ∈ values) ∨ relation.holds other v' := by
  refine (holds_foldl_add relation values (fun v => (key, v)) other v').trans ?_
  simp only [Prod.mk.injEq, and_left_comm, exists_and_left, exists_eq_right, eq_comm (a := key)]

theorem holds_ofPairs {pairs : List (α × β)} :
    (ofPairs pairs).holds key v ↔ (key, v) ∈ pairs := by
  have h := holds_foldl_add {} pairs id key v
  simpa [ofPairs] using h

theorem holds_union {second : Relation α β} :
    (relation.union second).holds key v ↔
      relation.holds key v ∨ second.holds key v := by
  have h := holds_foldl_add relation second.pairs id key v
  simpa [union, or_comm] using h

end WidgetFlow.Relation
