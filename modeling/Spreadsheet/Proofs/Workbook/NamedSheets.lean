import Spreadsheet.Proofs.Workbook.RequestedArrays

/-!
# Names of sheets along runs

The registry leads from the number of a sheet to its name and from the name back to the number. A
name that is added was not in use, and a name that is removed belongs to the sheet that is deleted,
so every sheet keeps its name until it is deleted itself.
-/
namespace Spreadsheet

namespace Registry

/-- A name and its number lead to each other, whatever the case of the letters. -/
structure Faithful (r : Registry) : Prop where
  id?_eq : ∀ id name, r.name? id = some name → r.id? name = some id
  exists_name : ∀ id name, r.id? name = some id → ∃ own, r.name? id = some own ∧ key own = key name

variable {r : Registry} {id other : SheetId} {name own : String}

/-- The registry without sheets is faithful. -/
theorem faithful_empty : empty.Faithful where
  id?_eq id name named := by simp [empty, name?] at named
  exists_name id name known := by simp [empty, id?] at known

/-- The numbers of names when a name is added. -/
theorem id?_add (r : Registry) (name own : String) :
    (r.add name).id? own = if key own = key name then some r.nextId else r.id? own := by
  unfold id? add
  dsimp only
  rw [Std.ExtTreeMap.getElem?_insert]
  simp only [Std.LawfulEqOrd.compare_eq_iff_eq, eq_comm (a := key name)]

/-- The names of numbers when a name is added. -/
theorem name?_add (few : (r.add name).names.length ≤ sheetIdBound) (id : SheetId) :
    (r.add name).name? id = if id = r.nextId then some name else r.name? id := by
  rw [Workbook.nextId_eq name few, name?_eq, name?_eq, names_add]
  split
  · rename_i here
    rw [here, List.getElem?_concat_length]
    rfl
  · rename_i elsewhere
    rcases Nat.lt_or_ge id r.names.length with below | beyond
    · rw [List.getElem?_append_left below]
    · have past : (r.names ++ [some name]).length ≤ id := by
        rw [List.length_append, List.length_singleton]
        exact Nat.lt_of_le_of_ne beyond (Ne.symm elsewhere)
      rw [List.getElem?_eq_none beyond, List.getElem?_eq_none past]

/-- A registry stays faithful when a name is added that is not in use. -/
theorem Faithful.add (faithful : r.Faithful) (unknown : r.id? name = none)
    (few : (r.add name).names.length ≤ sheetIdBound) : (r.add name).Faithful where
  id?_eq id own named := by
    rw [name?_add few] at named
    rw [id?_add]
    split at named
    · rename_i here
      rw [← Option.some.inj named, if_pos rfl, here]
    · have known := faithful.id?_eq id own named
      rw [if_neg fun same => ?_, known]
      unfold id? at unknown known
      rw [same, unknown] at known
      contradiction
  exists_name id own known := by
    rw [id?_add] at known
    rw [name?_add few]
    split at known
    · rename_i same
      rw [if_pos (Option.some.inj known).symm]
      exact ⟨name, rfl, same.symm⟩
    · obtain ⟨first, named, same⟩ := faithful.exists_name id own known
      refine ⟨first, ?_, same⟩
      rw [if_neg fun here => ?_, named]
      rw [here, Workbook.nextId_eq name few, name?_eq, List.getElem?_eq_none le_rfl] at named
      contradiction

/-- A name leads to the same sheet as before a name is added, unless it leads to the new sheet. -/
theorem resolve_add (few : (r.add name).names.length ≤ sheetIdBound) {qualifier : Option String}
    {home : SheetId} (elsewhere : (r.add name).resolve qualifier home ≠ some r.nextId) :
    (r.add name).resolve qualifier home = r.resolve qualifier home := by
  cases qualifier with
  | some own =>
    unfold resolve at elsewhere ⊢
    dsimp only at elsewhere ⊢
    rw [id?_add] at elsewhere ⊢
    split at elsewhere
    · contradiction
    · rename_i different
      rw [if_neg different]
  | none =>
    unfold resolve at elsewhere ⊢
    dsimp only at elsewhere ⊢
    rw [name?_add few] at elsewhere ⊢
    split at elsewhere
    · rename_i here
      rw [here] at elsewhere
      exact absurd rfl elsewhere
    · rename_i other
      rw [if_neg other]

/-- The numbers of names when the name of a number is removed. -/
theorem id?_remove (named : r.name? id = some name) (own : String) :
    (r.remove id).id? own = if key own = key name then none else r.id? own := by
  unfold remove id?
  rw [named]
  dsimp only
  rw [Std.ExtTreeMap.getElem?_erase]
  simp only [Std.LawfulEqOrd.compare_eq_iff_eq, eq_comm (a := key name)]

/-- The names of numbers when the name of a number is removed. -/
theorem name?_remove (r : Registry) (id other : SheetId) :
    (r.remove id).name? other = if other = id then none else r.name? other := by
  unfold remove
  cases named : r.name? id with
  | none =>
    dsimp only
    split
    · rename_i here
      rw [here, named]
    · rfl
  | some name =>
    unfold name?
    dsimp only
    rw [Array.getElem?_setIfInBounds]
    split
    · rename_i here
      rw [if_pos here.symm]
      split <;> rfl
    · rename_i elsewhere
      rw [if_neg fun here => elsewhere here.symm]

/-- A name that is not removed leads to the same sheet as before, and not to the one removed. -/
theorem Faithful.resolve_remove (faithful : r.Faithful) (named : r.name? id = some name)
    {qualifier : Option String} {home : SheetId} (away : home ≠ id)
    (kept : ∀ own, qualifier = some own → key own ≠ key name) :
    (r.remove id).resolve qualifier home = r.resolve qualifier home ∧
      r.resolve qualifier home ≠ some id := by
  cases qualifier with
  | some own =>
    have different := kept own rfl
    refine ⟨(id?_remove named own).trans (if_neg different), fun known => different ?_⟩
    obtain ⟨first, found, same⟩ := faithful.exists_name id own known
    rw [named] at found
    rw [← same, Option.some.inj found]
  | none =>
    refine ⟨?_, fun led => ?_⟩
    · show ((r.remove id).name? home).map _ = (r.name? home).map _
      rw [name?_remove, if_neg away]
    · obtain ⟨_, _, here⟩ := Option.map_eq_some_iff.mp led
      exact away here

/-- A registry stays faithful when a name is removed. -/
theorem Faithful.remove (faithful : r.Faithful) (id : SheetId) : (r.remove id).Faithful := by
  cases gone : r.name? id with
  | none =>
    rw [show r.remove id = r by unfold Registry.remove; rw [gone]]
    exact faithful
  | some name =>
    have leads := faithful.id?_eq id name gone
    refine ⟨fun other own named => ?_, fun other own known => ?_⟩
    · rw [name?_remove] at named
      split at named
      · contradiction
      · rename_i elsewhere
        have known := faithful.id?_eq other own named
        rw [id?_remove gone, if_neg fun same => ?_, known]
        unfold id? at known leads
        rw [same, leads] at known
        exact elsewhere (Option.some.inj known).symm
    · rw [id?_remove gone] at known
      split at known
      · contradiction
      · rename_i different
        obtain ⟨first, named, same⟩ := faithful.exists_name other own known
        refine ⟨first, ?_, same⟩
        rw [name?_remove, if_neg fun here => ?_, named]
        rw [here, gone] at named
        rw [← Option.some.inj named] at same
        exact different same.symm

end Registry

namespace Workbook

variable {w w' : Workbook}

/-- Every sheet has a name, and names and numbers lead to each other. -/
structure Named (w : Workbook) : Prop where
  faithful : w.registry.Faithful
  isSome_name? : ∀ id, (w.sheet? id).isSome = true → (w.registry.name? id).isSome = true

/-- The number of a sheet that has a name leads to it and back. -/
theorem Named.registered (named : w.Named) : w.Registered := by
  intro id exist
  obtain ⟨name, found⟩ := Option.isSome_iff_exists.mp (named.isSome_name? id exist)
  exact ⟨name, found, named.faithful.id?_eq id name found⟩

/-- The only sheet of a new workbook has its name. -/
theorem named_new (settings : Settings) (functions : FunctionTable) :
    (new settings functions).Named where
  faithful := by
    have few : (Registry.empty.add settings.sheetName).names.length ≤ sheetIdBound := by
      rw [length_names_add]
      decide
    exact Registry.faithful_empty.add (by simp [Registry.empty, Registry.id?]) few
  isSome_name? id exist := by
    obtain ⟨name, named, _⟩ := registered_new settings functions id exist
    rw [named]
    rfl

/-- Sheets stay named where the registry stays and no sheet is added. -/
theorem Named.of_sameNumbers (named : w.Named) (same : SameNumbers w w') : w'.Named where
  faithful := by
    rw [same.registry]
    exact named.faithful
  isSome_name? id exist := by
    rw [same.sheets] at exist
    rw [same.registry]
    exact named.isSome_name? id exist

/-- A sheet that is added has its name. -/
theorem Named.insertSheet (named : w.Named) {name : String} (unknown : w.registry.id? name = none)
    (few : (w.registry.add name).names.length ≤ sheetIdBound) (rows columns : Nat) :
    (w.insertSheet name rows columns).Named where
  faithful := named.faithful.add unknown few
  isSome_name? id exist := by
    show ((w.registry.add name).name? id).isSome = true
    rw [Registry.name?_add few]
    split
    · rfl
    · rename_i elsewhere
      refine named.isSome_name? id ?_
      unfold sheet? Workbook.insertSheet at exist
      dsimp only at exist
      rwa [Std.ExtTreeMap.getElem?_insert,
        if_neg fun here => elsewhere (Std.LawfulEqOrd.eq_of_compare here).symm] at exist

/-- When a sheet is deleted the others keep their names. -/
theorem Named.eraseSheet (named : w.Named) (id : SheetId) : (w.eraseSheet id).Named where
  faithful := named.faithful.remove id
  isSome_name? other exist := by
    show ((w.registry.remove id).name? other).isSome = true
    unfold sheet? Workbook.eraseSheet forgetResults at exist
    dsimp only at exist
    rw [Std.ExtTreeMap.getElem?_erase] at exist
    split at exist
    · contradiction
    · rename_i elsewhere
      rw [Registry.name?_remove,
        if_neg fun here => elsewhere (Std.LawfulEqOrd.compare_eq_iff_eq.mpr here.symm)]
      exact named.isSome_name? other exist

/-- A request prepares a workbook whose sheets have names. -/
theorem Named.prepares (named : w.Named) {request : Request} (prepares : w.Prepares request w')
    (few : w'.registry.names.length ≤ sheetIdBound) : w'.Named := by
  rcases prepares.cases_sheets with same | ⟨name, rows, columns, _, unknown, same⟩ | ⟨id, same⟩
  · exact named.of_sameNumbers same
  · rw [same.registry] at few
    exact (named.insertSheet unknown few rows columns).of_sameNumbers same
  · exact (named.eraseSheet id).of_sameNumbers same

end Workbook

end Spreadsheet
