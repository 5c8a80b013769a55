import WidgetFlow.Resource.Reference

/-!
# Names of identifiers

A table of identifiers is asked for the identifier of a name and for the name of an identifier, and
each look-up answers from the latest declaration that fits. A declaration hides the old identifier of
its name, but the old identifier keeps the name. So the look-ups are the inverse of each other if and
only if every identifier whose name gets another one is declared again later (`inverse_iff`).
-/

namespace WidgetFlow.IdTable

variable {kind : ResKind} {name : String} {v : ResId} {entries later earlier : List IdEntry}

/-- The table after some declarations, the first one first. -/
def declare (calls : List IdEntry) : IdTable :=
  calls.foldl (fun table entry => table.insert entry.kind entry.name entry.value) {}

/-- The look-ups of one kind are the inverse of each other: the name of an identifier leads back to
it, and every identifier of a name has a name, which leads back to it. -/
structure Inverse (table : IdTable) (kind : ResKind) : Prop where
  id_of_name : ∀ {v name}, table.name? kind v = some name → table.id? kind name = some v
  name_of_id : ∀ {name v}, table.id? kind name = some v →
    ∃ other, table.name? kind v = some other ∧ table.id? kind other = some v

theorem declare_eq (calls : List IdEntry) : declare calls = ⟨calls.reverse⟩ := by
  have hfold : ∀ table : IdTable, calls.foldl (fun table entry =>
      table.insert entry.kind entry.name entry.value) table = ⟨calls.reverse ++ table.entries⟩ := by
    induction calls with
    | nil => exact fun _ => rfl
    | cons entry calls ih => simp [insert, ← ih]
  exact (hfold {}).trans (by rw [List.append_nil])

theorem mem_of_id? (h : (⟨entries⟩ : IdTable).id? kind name = some v) :
    ⟨kind, name, v⟩ ∈ entries := by
  obtain ⟨⟨_, _, _⟩, hfind, rfl⟩ := Option.map_eq_some_iff.mp h
  have hfits := List.find?_some hfind
  simp only [Bool.and_eq_true, decide_eq_true_eq] at hfits
  obtain ⟨rfl, rfl⟩ := hfits
  exact List.mem_of_find?_eq_some hfind

/-- The name of an identifier stands in the latest declaration of the identifier. -/
theorem exists_of_name? (h : (⟨entries⟩ : IdTable).name? kind v = some name) :
    ∃ later earlier, entries = later ++ ⟨kind, name, v⟩ :: earlier ∧
      ∀ other, ⟨kind, other, v⟩ ∉ later := by
  obtain ⟨⟨_, _, _⟩, hfind, rfl⟩ := Option.map_eq_some_iff.mp h
  obtain ⟨hfits, later, earlier, heq, hlater⟩ := List.find?_eq_some_iff_append.mp hfind
  simp only [Bool.and_eq_true, decide_eq_true_eq] at hfits
  obtain ⟨rfl, rfl⟩ := hfits
  exact ⟨later, earlier, heq, fun other hother => by simpa using hlater _ hother⟩

theorem id?_append_cons : (⟨later ++ ⟨kind, name, v⟩ :: earlier⟩ : IdTable).id? kind name =
    some (((⟨later⟩ : IdTable).id? kind name).getD v) := by
  cases hlater : later.find? fun entry => entry.kind = kind && entry.name = name <;>
    simp [id?, hlater]

theorem name?_append_cons : (⟨later ++ ⟨kind, name, v⟩ :: earlier⟩ : IdTable).name? kind v =
    some (((⟨later⟩ : IdTable).name? kind v).getD name) := by
  cases hlater : later.find? fun entry => entry.kind = kind && entry.value = v <;>
    simp [name?, hlater]

theorem exists_id? (h : ⟨kind, name, v⟩ ∈ entries) :
    ∃ other, (⟨entries⟩ : IdTable).id? kind name = some other := by
  obtain ⟨later, earlier, rfl⟩ := List.append_of_mem h
  exact ⟨_, id?_append_cons⟩

/-- The look-ups of a kind are the inverse of each other exactly if, whenever a name is declared
again, the identifier that it had is declared again as well. -/
theorem inverse_iff (calls : List IdEntry) (kind : ResKind) :
    (declare calls).Inverse kind ↔
      ∀ before name v after, calls = before ++ ⟨kind, name, v⟩ :: after →
        (∃ other, ⟨kind, name, other⟩ ∈ after) → ∃ heir, ⟨kind, heir, v⟩ ∈ after := by
  rw [declare_eq]
  constructor
  · rintro hinverse before name v after rfl ⟨other, hother⟩
    rw [List.reverse_append, List.reverse_cons, List.append_assoc, List.singleton_append] at hinverse
    cases hname : (⟨after.reverse⟩ : IdTable).name? kind v with
    | some heir =>
      obtain ⟨later, earlier, hafter, _⟩ := exists_of_name? hname
      exact ⟨heir, List.mem_reverse.mp (by simp [hafter])⟩
    | none =>
      have hid := hinverse.id_of_name name?_append_cons
      obtain ⟨latest, hlatest⟩ := exists_id? (List.mem_reverse.mpr hother)
      rw [hname, Option.getD_none, id?_append_cons, hlatest, Option.getD_some, Option.some_inj] at hid
      exact ⟨name, List.mem_reverse.mp (hid ▸ mem_of_id? hlatest)⟩
  · intro hheir
    have hback : ∀ {v name}, (⟨calls.reverse⟩ : IdTable).name? kind v = some name →
        (⟨calls.reverse⟩ : IdTable).id? kind name = some v := by
      intro v name hname
      obtain ⟨later, earlier, hentries, hlater⟩ := exists_of_name? hname
      have hcalls : calls = earlier.reverse ++ ⟨kind, name, v⟩ :: later.reverse := by
        simpa using congrArg List.reverse hentries
      cases hid : (⟨later⟩ : IdTable).id? kind name with
      | none => rw [hentries, id?_append_cons, hid, Option.getD_none]
      | some other =>
        obtain ⟨heir, hheir⟩ :=
          hheir _ _ _ _ hcalls ⟨other, List.mem_reverse.mpr (mem_of_id? hid)⟩
        exact absurd (List.mem_reverse.mp hheir) (hlater heir)
    refine ⟨hback, fun hid => ?_⟩
    obtain ⟨later, earlier, hentries⟩ := List.append_of_mem (mem_of_id? hid)
    have hother := hentries ▸ name?_append_cons
    exact ⟨_, hother, hback hother⟩

/-- An identifier keeps its name when the name gets another identifier. -/
theorem redeclared_not_inverse :
    ¬(declare [⟨.id, "ok", 1⟩, ⟨.id, "ok", 2⟩]).Inverse .id ∧
      (declare [⟨.id, "ok", 1⟩, ⟨.id, "ok", 2⟩]).name? .id 1 = some "ok" := by
  have hname : (declare [⟨.id, "ok", 1⟩, ⟨.id, "ok", 2⟩]).name? .id 1 = some "ok" := by decide
  exact ⟨fun h => absurd (h.id_of_name hname) (by decide), hname⟩

end WidgetFlow.IdTable
