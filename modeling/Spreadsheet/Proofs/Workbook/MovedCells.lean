import Spreadsheet.Proofs.Workbook.Cells
import Spreadsheet.Workbook.Structure

/-!
# Cells that move

When the cells of a sheet move, a cell is where it was moved to. Taking a sheet away or adding one
changes the contents of that sheet only.
-/
namespace Spreadsheet

namespace Sheet

/-- What a map made of a list has at a key is in the list. -/
theorem mem_of_getElem?_ofList {l : List (Place × Cell)} {k : Place} {v : Cell}
    (found : (Std.ExtTreeMap.ofList l compare)[k]? = some v) : (k, v) ∈ l := by
  have kept : ∀ (k : Place) (v : Cell),
      (Std.ExtTreeMap.ofList l compare)[k]? = some v → (k, v) ∈ l := by
    rw [Std.ExtTreeMap.ofList_eq_foldl]
    refine List.foldlRecOn l _ (motive := fun (m : Std.ExtTreeMap Place Cell) =>
      ∀ (k : Place) (v : Cell), m[k]? = some v → (k, v) ∈ l) ?_ ?_
    · intro k v none
      simp at none
    · rintro m inner ⟨q, c⟩ listed k v there
      rw [Std.ExtTreeMap.getElem?_insert] at there
      split at there
      · rename_i here
        obtain rfl := Std.LawfulEqOrd.eq_of_compare here
        obtain rfl := Option.some.inj there
        exact listed
      · exact inner k v there
  exact kept k v found

/-- A cell of a sheet whose cells were moved is one that was moved there. -/
theorem exists_of_cell?_relocate {s : Sheet} {move : Place → Option Place} {row column : Nat}
    {c : Cell} (found : (s.relocate move).cell? row column = some c) :
    ∃ p, move p = some ⟨row, column⟩ ∧ s.cell? p.row p.column = some c := by
  obtain ⟨⟨p, d⟩, member, moved⟩ := List.mem_filterMap.mp (mem_of_getElem?_ofList found)
  obtain ⟨_, arrives, same⟩ := Option.map_eq_some_iff.mp moved
  obtain ⟨rfl, rfl⟩ := Prod.mk.inj same
  exact ⟨p, arrives, Std.ExtTreeMap.mem_toList_iff_getElem?_eq_some.mp member⟩

/-- Cells that are kept apart by a move are at different places after it. -/
theorem pairwise_moved {s : Sheet} {move : Place → Option Place}
    (apart : ∀ p p' q, (s.cell? p.row p.column).isSome → (s.cell? p'.row p'.column).isSome →
      move p = some q → move p' = some q → p = p') :
    (s.cells.toList.filterMap fun (p, c) => (move p).map fun q => (q, c)).Pairwise
      fun a b => ¬compare a.1 b.1 = .eq := by
  have listed : ∀ {p : Place} {c : Cell}, (p, c) ∈ s.cells.toList → s.cell? p.row p.column = some c :=
    Std.ExtTreeMap.mem_toList_iff_getElem?_eq_some.mp
  rw [List.pairwise_filterMap]
  refine Std.ExtTreeMap.distinct_keys_toList.imp_of_mem fun {a b} first second other => ?_
  rintro _ found _ found' same
  obtain ⟨q, moved, rfl⟩ := Option.map_eq_some_iff.mp found
  obtain ⟨q', moved', rfl⟩ := Option.map_eq_some_iff.mp found'
  obtain rfl := Std.LawfulEqOrd.eq_of_compare same
  refine other (Std.LawfulEqOrd.compare_eq_iff_eq.mpr (apart a.1 b.1 q ?_ ?_ moved moved'))
  · rw [listed first]
    rfl
  · rw [listed second]
    rfl

/-- After a move that keeps cells apart, a cell is where it was moved to, and nothing else is there. -/
theorem cell?_relocate_iff {s : Sheet} {move : Place → Option Place}
    (apart : ∀ p p' q, (s.cell? p.row p.column).isSome → (s.cell? p'.row p'.column).isSome →
      move p = some q → move p' = some q → p = p') {row column : Nat} {c : Cell} :
    (s.relocate move).cell? row column = some c ↔
      ∃ p, move p = some ⟨row, column⟩ ∧ s.cell? p.row p.column = some c := by
  have listed : ∀ {p : Place} {c : Cell}, (p, c) ∈ s.cells.toList ↔ s.cell? p.row p.column = some c :=
    Std.ExtTreeMap.mem_toList_iff_getElem?_eq_some
  constructor
  · exact exists_of_cell?_relocate
  · rintro ⟨p, moved, there⟩
    refine Std.ExtTreeMap.getElem?_ofList_of_mem Std.ReflOrd.compare_self (pairwise_moved apart) ?_
    exact List.mem_filterMap.mpr ⟨(p, c), listed.mpr there, by simp only [moved, Option.map_some]⟩

/-- The extent of a sheet has no bearing on its cells. -/
theorem cell?_resized (s : Shift) (sheet : Sheet) (row column : Nat) :
    (Workbook.resized s sheet).cell? row column = sheet.cell? row column := by
  unfold Workbook.resized
  cases s.direction with
  | rows => rfl
  | columns => rfl

/-- A cell of a sheet whose lines were shifted was a cell of it before. -/
theorem exists_of_cell?_moveCells {s : Shift} {sheet : Sheet} {row column : Nat} {c : Cell}
    (found : (Workbook.moveCells s sheet).cell? row column = some c) :
    ∃ p : Place, sheet.cell? p.row p.column = some c := by
  unfold Workbook.moveCells at found
  rw [cell?_resized] at found
  obtain ⟨p, _, before⟩ := exists_of_cell?_relocate found
  exact ⟨p, before⟩

end Sheet

namespace Workbook

/-- When the cells of a sheet move, a position is empty or gets the content of a position. -/
theorem content_moveCells (w : Workbook) (s : Shift) (q : Position) :
    (w.updateSheet s.sheet (moveCells s)).content q = .empty ∨
      ∃ p, (w.updateSheet s.sheet (moveCells s)).content q = w.content p := by
  unfold content cell?
  rw [sheet?_updateSheet]
  split
  · cases found : w.sheet? s.sheet with
    | none => exact .inl rfl
    | some sheet =>
      rw [Option.map_some, Option.bind_some]
      cases there : (moveCells s sheet).cell? q.row q.column with
      | none => exact .inl rfl
      | some c =>
        obtain ⟨p, before⟩ := Sheet.exists_of_cell?_moveCells there
        refine .inr ⟨⟨s.sheet, p.row, p.column⟩, ?_⟩
        rw [found, Option.bind_some, before]
  · exact .inr ⟨q, rfl⟩

/-- When a sheet is taken away, its contents are. -/
theorem content_eraseSheet (w : Workbook) (id : SheetId) (q : Position) :
    (w.eraseSheet id).content q = if q.sheet = id then .empty else w.content q := by
  unfold content cell? sheet? eraseSheet forgetResults
  dsimp only
  rw [Std.ExtTreeMap.getElem?_erase]
  by_cases here : q.sheet = id
  · simp [here]
  · simp [here, Ne.symm here]

/-- A sheet that is added has no contents. -/
theorem content_insertSheet (w : Workbook) (name : String) (rows columns : Nat) (q : Position) :
    (w.insertSheet name rows columns).content q =
      if q.sheet = w.registry.nextId then .empty else w.content q := by
  unfold content cell? sheet? insertSheet
  dsimp only
  rw [Std.ExtTreeMap.getElem?_insert]
  by_cases here : q.sheet = w.registry.nextId
  · simp [here, Sheet.blank, Sheet.cell?]
  · simp [here, Ne.symm here]

end Workbook

end Spreadsheet
