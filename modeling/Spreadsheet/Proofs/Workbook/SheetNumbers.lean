import Spreadsheet.Proofs.Text.Characters
import Spreadsheet.Proofs.Workbook.SettledRuns

/-!
# Numbers of sheets along runs

Every sheet that is added gets the next number, and numbers have sixteen bits. As long as no more
sheets have ever been added than there are numbers, each gets a number of its own: names and numbers
lead to each other, every number in use has its sheet, and no sheet that is added takes the place of
another one. The sheet after that gets the number of the first one again.
-/
namespace Spreadsheet

namespace Workbook

variable {w w' : Workbook} {request : Request} {id : SheetId}

/-! ### Numbers given along a run -/

/-- The number that a request gives to a sheet, if it adds one. -/
def numberGiven? (w : Workbook) : Request → Option SheetId
  | .addSheet name rows columns => ((Edit.addSheet name rows columns).perform w).1.toOption
  | _ => none

/-- The numbers that requests give to sheets, in order. -/
def numbersGiven (w : Workbook) : List Request → List SheetId
  | [] => []
  | request :: rest => (w.numberGiven? request).toList ++ (w.after request).numbersGiven rest

/-- A sheet is added under a new name only, and it gets the next number. -/
theorem numberGiven?_addSheet (w : Workbook) (name : String) (rows columns : Nat) :
    w.numberGiven? (.addSheet name rows columns) =
      if (w.registry.id? name).isSome then none else some w.registry.nextId := by
  unfold numberGiven? Edit.addSheet
  by_cases taken : (w.registry.id? name).isSome = true
  · simp [taken, Except.toOption, -bind_pure_comp]
  · simp [taken, Except.toOption, -bind_pure_comp]

/-- A request that gives a number adds one name, and any other adds none. -/
theorem length_names_after (w : Workbook) (request : Request) :
    (w.after request).registry.names.length =
      w.registry.names.length + (w.numberGiven? request).toList.length := by
  rw [after_eq]
  cases found : w.prepared request with
  | none =>
    have nothing : w.numberGiven? request = none := by
      cases request with
      | addSheet name rows columns =>
        rw [numberGiven?_addSheet]
        simp only [prepared] at found
        split at found
        · rename_i taken
          rw [if_pos taken]
        · contradiction
      | _ => rfl
    dsimp only
    rw [clipped_eq, nothing]
    rfl
  | some w' =>
    dsimp only
    rw [w'.sameSources_recalculate.registry]
    have prepares := prepares_of_prepared found
    cases request with
    | addSheet name rows columns =>
      cases prepares with
      | addSheet unknown =>
        rw [numberGiven?_addSheet, unknown]
        exact length_names_add w.registry name
    | _ =>
      rcases prepares.cases_sheets with same | ⟨_, _, _, other, _⟩ | ⟨id, same⟩
      · rw [same.registry]
        rfl
      · contradiction
      · rw [same.registry]
        exact length_names_remove w.registry id

/-- The number that is given is the number of names so far, as far as there are numbers. -/
theorem eq_of_numberGiven? (given : w.numberGiven? request = some id) :
    id = w.registry.names.length % sheetIdBound := by
  cases request with
  | addSheet name rows columns =>
    rw [numberGiven?_addSheet] at given
    split at given
    · contradiction
    · exact (Option.some.inj given).symm
  | _ => contradiction

/-- The numbers given along a run are consecutive, up to the number of numbers. -/
theorem numbersGiven_eq (w : Workbook) (requests : List Request) :
    w.numbersGiven requests =
      (List.range' w.registry.names.length
        ((w.afterAll requests).registry.names.length - w.registry.names.length)).map
          (· % sheetIdBound) := by
  induction requests generalizing w with
  | nil => simp [numbersGiven, afterAll]
  | cons request rest ih =>
    have run : w.afterAll (request :: rest) = (w.after request).afterAll rest := rfl
    have later := names_le_afterAll (w.after request) rest
    rw [numbersGiven, ih, run]
    rw [length_names_after] at later ⊢
    cases given : w.numberGiven? request with
    | none => rfl
    | some id =>
      rw [given] at later
      simp only [Option.toList_some, List.length_singleton] at later ⊢
      obtain ⟨more, count⟩ := Nat.exists_eq_add_of_le later
      rw [count, eq_of_numberGiven? given, Nat.add_sub_cancel_left, Nat.add_assoc,
        Nat.add_sub_cancel_left, Nat.add_comm 1 more, List.range'_succ]
      rfl

/-- The first sheet and those that are added get different numbers if there are numbers for all. -/
theorem nodup_numbersGiven_iff (settings : Settings) (functions : FunctionTable)
    (requests : List Request) :
    (Registry.empty.nextId :: (new settings functions).numbersGiven requests).Nodup ↔
      ((new settings functions).afterAll requests).registry.names.length ≤ sheetIdBound := by
  have more := names_le_afterAll (new settings functions) requests
  have one : (new settings functions).registry.names.length = 1 := length_names_add _ _
  rw [numbersGiven_eq, one]
  rw [one] at more
  generalize ((new settings functions).afterAll requests).registry.names.length = count at more
  have whole : Registry.empty.nextId :: (List.range' 1 (count - 1)).map (· % sheetIdBound) =
      (List.range count).map (· % sheetIdBound) := by
    rw [List.range_eq_range', show count = (count - 1) + 1 by omega, List.range'_succ]
    rfl
  rw [whole]
  constructor
  · intro once
    by_contra many
    have same := List.inj_on_of_nodup_map once (List.mem_range.mpr (show 0 < count by omega))
      (List.mem_range.mpr (show sheetIdBound < count by omega)) (by simp)
    exact absurd same (by decide)
  · intro few
    refine List.nodup_range.map_on fun a below b beneath same => ?_
    rw [List.mem_range] at below beneath
    rwa [Nat.mod_eq_of_lt (lt_of_lt_of_le below few), Nat.mod_eq_of_lt (lt_of_lt_of_le beneath few)]
      at same

/-! ### Sheets of numbers in use -/

/-- A sheet that is added is blank, and the others stay. -/
theorem sheet?_insertSheet (w : Workbook) (name : String) (rows columns : Nat) (id : SheetId) :
    (w.insertSheet name rows columns).sheet? id =
      if id = w.registry.nextId then some (.blank rows columns) else w.sheet? id := by
  unfold sheet? insertSheet
  dsimp only
  rw [Std.ExtTreeMap.getElem?_insert]
  simp only [Std.LawfulEqOrd.compare_eq_iff_eq, eq_comm (a := w.registry.nextId)]

/-- A sheet that is deleted is gone, and the others stay. -/
theorem sheet?_eraseSheet (w : Workbook) (id other : SheetId) :
    (w.eraseSheet id).sheet? other = if other = id then none else w.sheet? other := by
  unfold sheet? eraseSheet forgetResults
  dsimp only
  rw [Std.ExtTreeMap.getElem?_erase]
  simp only [Std.LawfulEqOrd.compare_eq_iff_eq, eq_comm (a := id)]

/-- Names and numbers lead to each other, and the numbers in use are those of the sheets. -/
structure Stored (w : Workbook) : Prop extends w.Named where
  isSome_sheet? : ∀ id, (w.registry.name? id).isSome = true → (w.sheet? id).isSome = true

namespace Stored

/-- The only sheet of a new workbook is stored under its number. -/
theorem new (settings : Settings) (functions : FunctionTable) :
    (new settings functions).Stored where
  toNamed := named_new settings functions
  isSome_sheet? id named := by
    have few : (Registry.empty.add settings.sheetName).names.length ≤ sheetIdBound := by
      rw [length_names_add]
      decide
    have here : ((Registry.empty.add settings.sheetName).name? id).isSome = true := named
    rw [Registry.name?_add few] at here
    split at here
    · rename_i first
      unfold sheet? Workbook.new
      dsimp only
      rw [first, Std.ExtTreeMap.getElem?_insert_self]
      rfl
    · simp [Registry.empty, Registry.name?] at here

/-- Sheets stay stored where the registry and the sheets stay. -/
theorem of_sameNumbers (stored : w.Stored) (same : SameNumbers w w') : w'.Stored where
  toNamed := stored.toNamed.of_sameNumbers same
  isSome_sheet? id named := by
    rw [same.sheets]
    rw [same.registry] at named
    exact stored.isSome_sheet? id named

/-- What a request prepares has its sheets stored under their numbers. -/
theorem prepares (stored : w.Stored) (prepares : w.Prepares request w')
    (few : w'.registry.names.length ≤ sheetIdBound) : w'.Stored := by
  have named := stored.toNamed.prepares prepares few
  refine ⟨named, fun other used => ?_⟩
  rcases prepares.cases_sheets with same | ⟨name, rows, columns, _, unknown, same⟩ | ⟨id, same⟩
  · exact (stored.of_sameNumbers same).isSome_sheet? other used
  · rw [same.registry] at few used
    have here : ((w.registry.add name).name? other).isSome = true := used
    rw [Registry.name?_add few] at here
    rw [same.sheets, sheet?_insertSheet]
    split at here
    · rename_i next
      rw [if_pos next]
      rfl
    · rename_i older
      rw [if_neg older]
      exact stored.isSome_sheet? other here
  · rw [same.registry] at used
    have here : ((w.registry.remove id).name? other).isSome = true := used
    rw [Registry.name?_remove] at here
    rw [same.sheets, sheet?_eraseSheet]
    split at here
    · contradiction
    · rename_i kept
      rw [if_neg kept]
      exact stored.isSome_sheet? other here

/-- A request leaves sheets stored under their numbers. -/
theorem after (stored : w.Stored) (request : Request)
    (few : (w.after request).registry.names.length ≤ sheetIdBound) : (w.after request).Stored := by
  rw [after_eq] at few ⊢
  cases found : w.prepared request with
  | none =>
    dsimp only
    rw [clipped_eq]
    exact stored.of_sameNumbers ⟨rfl, fun _ => rfl⟩
  | some w' =>
    rw [found] at few
    dsimp only at few ⊢
    have same := w'.sameSources_recalculate
    rw [same.registry] at few
    exact (stored.prepares (prepares_of_prepared found) few).of_sameNumbers
      (.of_sameSheets same.toSameSheets)

/-- Requests leave sheets stored under their numbers. -/
theorem afterAll (stored : w.Stored) (requests : List Request)
    (few : (w.afterAll requests).registry.names.length ≤ sheetIdBound) :
    (w.afterAll requests).Stored := by
  induction requests using List.reverseRecOn with
  | nil => exact stored
  | append_singleton before request ih =>
    rw [afterAll_concat] at few ⊢
    exact (ih ((names_le_after _ request).trans few)).after request few

/-- A name leads to a number just when the number has that name, whatever the case of the letters. -/
theorem id?_eq_some_iff (stored : w.Stored) (name : String) (id : SheetId) :
    w.registry.id? name = some id ↔
      ∃ own, w.registry.name? id = some own ∧ Registry.key own = Registry.key name := by
  constructor
  · exact stored.faithful.exists_name id name
  · rintro ⟨own, named, same⟩
    have known := stored.faithful.id?_eq id own named
    unfold Registry.id? at known ⊢
    rwa [← same]

end Stored

/-! ### Sheets beside a new one -/

/-- A sheet keeps its extent, what was typed into it and the formats that were chosen. -/
structure KeepsSheet (w w' : Workbook) (id : SheetId) : Prop where
  extent : w'.extent? id = w.extent? id
  source : ∀ p, p.sheet = id → (w'.content p).source = (w.content p).source
  chosen : ∀ p, p.sheet = id → w'.chosen p = w.chosen p

/-- A sheet beside a new one stays as it is. -/
theorem keepsSheet_insertSheet (w : Workbook) (name : String) (rows columns : Nat)
    (other : id ≠ w.registry.nextId) : KeepsSheet w (w.insertSheet name rows columns) id := by
  have cells : ∀ p, p.sheet = id → (w.insertSheet name rows columns).cell? p = w.cell? p := by
    intro p here
    unfold cell?
    rw [sheet?_insertSheet, here, if_neg other]
  refine ⟨?_, fun p here => ?_, fun p here => ?_⟩
  · unfold extent?
    rw [sheet?_insertSheet, if_neg other]
  · unfold content
    rw [cells p here]
  · unfold chosen
    rw [cells p here]

/-- A sheet that is added under a number not in use leaves the other sheets as they are. -/
theorem Stored.keepsSheet_of_addSheet (stored : w.Stored) {name : String} {rows columns : Nat}
    (few : (w.after (.addSheet name rows columns)).registry.names.length ≤ sheetIdBound)
    (exist : (w.sheet? id).isSome = true) :
    KeepsSheet w (w.after (.addSheet name rows columns)) id := by
  rw [after_eq] at few ⊢
  cases found : w.prepared (.addSheet name rows columns) with
  | none =>
    dsimp only
    rw [clipped_eq]
    exact ⟨rfl, fun _ _ => rfl, fun _ _ => rfl⟩
  | some w' =>
    rw [found] at few
    dsimp only at few ⊢
    have same := w'.sameSources_recalculate
    rw [same.registry] at few
    cases prepares_of_prepared found with
    | addSheet unknown =>
      have other : id ≠ w.registry.nextId := by
        intro here
        have used := stored.isSome_name? id exist
        rw [here, nextId_eq name few, Registry.name?_eq, List.getElem?_eq_none le_rfl] at used
        contradiction
      have inserted := w.keepsSheet_insertSheet name rows columns other
      exact ⟨(same.extent id).trans inserted.extent,
        fun p here => (same.source p).trans (inserted.source p here),
        fun p here => (same.chosen p).trans (inserted.chosen p here)⟩

/-! ### Runs -/

/-- Along a run from a new workbook sheets keep their identity: each gets a number of its own, names
and numbers in use lead to each other, whatever the case of the letters, every number in use has its
sheet, and adding a sheet leaves the others as they are. -/
structure SheetsIdentified (settings : Settings) (functions : FunctionTable)
    (requests : List Request) : Prop where
  distinct : (Registry.empty.nextId :: (new settings functions).numbersGiven requests).Nodup
  id?_eq_some_iff : ∀ name id,
    ((new settings functions).afterAll requests).registry.id? name = some id ↔
      ∃ own, ((new settings functions).afterAll requests).registry.name? id = some own ∧
        Registry.key own = Registry.key name
  isSome_sheet?_iff : ∀ id,
    (((new settings functions).afterAll requests).sheet? id).isSome = true ↔
      (((new settings functions).afterAll requests).registry.name? id).isSome = true
  undisturbed : ∀ before name rows columns, before ++ [.addSheet name rows columns] <+: requests →
    ∀ id, (((new settings functions).afterAll before).sheet? id).isSome = true →
      KeepsSheet ((new settings functions).afterAll before)
        ((new settings functions).afterAll (before ++ [.addSheet name rows columns])) id

/-- Sheets keep their identity along a run just when no more of them have ever been there than there
are numbers. -/
theorem sheetsIdentified_iff (settings : Settings) (functions : FunctionTable)
    (requests : List Request) :
    SheetsIdentified settings functions requests ↔
      ((new settings functions).afterAll requests).registry.names.length ≤ sheetIdBound := by
  refine ⟨fun identified => (nodup_numbersGiven_iff settings functions requests).mp
    identified.distinct, fun few => ?_⟩
  have stored := (Stored.new settings functions).afterAll requests few
  refine ⟨(nodup_numbersGiven_iff settings functions requests).mpr few, stored.id?_eq_some_iff,
    fun id => ⟨stored.isSome_name? id, stored.isSome_sheet? id⟩, ?_⟩
  intro before name rows columns upTo id exist
  have fewer := (names_le_of_longer (new settings functions) upTo).trans few
  rw [afterAll_concat] at fewer ⊢
  have earlier := (Stored.new settings functions).afterAll before
    ((names_le_after _ _).trans fewer)
  exact earlier.keepsSheet_of_addSheet fewer exist

/-- There is always a name that is not in use. -/
theorem exists_unknown (r : Registry) : ∃ name, r.id? name = none := by
  by_contra known
  push Not at known
  let name : Nat → String := fun n => String.ofList (List.replicate n 'A')
  have keys : ∀ n, (Registry.key (name n)).toList = List.replicate n 'A' := fun n => by
    rw [Registry.key, Text.toList_upperAscii, String.toList_ofList, List.map_replicate]
    rfl
  have listed : ∀ n, Registry.key (name n) ∈ r.ids.keys := fun n => by
    rw [Std.ExtTreeMap.mem_keys, Std.ExtTreeMap.mem_iff_isSome_getElem?]
    exact Option.isSome_iff_ne_none.mpr (known (name n))
  have injective : Function.Injective fun n => Registry.key (name n) := fun n m same => by
    have lengths := congrArg (fun k : String => k.toList.length) same
    simpa only [keys, List.length_replicate] using lengths
  exact Set.infinite_range_of_injective injective
    ((List.finite_toSet r.ids.keys).subset (Set.range_subset_iff.mpr listed))

/-- Any number of sheets can be added. -/
theorem exists_run_of_length (settings : Settings) (functions : FunctionTable) (count : Nat) :
    ∃ requests,
      ((new settings functions).afterAll requests).registry.names.length = count + 1 := by
  induction count with
  | zero => exact ⟨[], length_names_add _ _⟩
  | succ count ih =>
    obtain ⟨requests, length⟩ := ih
    obtain ⟨name, unknown⟩ := exists_unknown ((new settings functions).afterAll requests).registry
    refine ⟨requests ++ [.addSheet name 1 1], ?_⟩
    rw [afterAll_concat, length_names_after, numberGiven?_addSheet, unknown, length]
    rfl

/-- There are runs along which sheets do not keep their identity. -/
theorem exists_run_not_identified (settings : Settings) (functions : FunctionTable) :
    ∃ requests, ¬ SheetsIdentified settings functions requests := by
  obtain ⟨requests, length⟩ := exists_run_of_length settings functions sheetIdBound
  refine ⟨requests, fun identified => ?_⟩
  have few := (nodup_numbersGiven_iff settings functions requests).mp identified.distinct
  omega

end Workbook

end Spreadsheet
