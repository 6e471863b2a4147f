import Spreadsheet.Proofs.Address.Zones
import Spreadsheet.Proofs.Redirection.OrderedReferences

/-!
# References and moved cells

When the cells of a zone move to another anchor, a reference that lies in the zone as a whole can
move with them. It then covers the cells that its cells have become, unless these are beyond what a
reference of its kind can name. A reference without dollar signs moves in the same way when its
formula is copied.
-/
namespace Spreadsheet

/-- The position that a position of a zone becomes when the zone moves to an anchor. -/
def Position.carried (p : Position) (source : Zone) (anchor : Position) : Position :=
  ⟨anchor.sheet, anchor.row + (p.row - source.top), anchor.column + (p.column - source.left)⟩

/-- The zone that a zone inside another one becomes when that one moves to an anchor. -/
def Zone.carried (z source : Zone) (anchor : Position) : Zone where
  sheet := anchor.sheet
  top := anchor.row + (z.top - source.top)
  left := anchor.column + (z.left - source.left)
  bottom := anchor.row + (z.bottom - source.top)
  right := anchor.column + (z.right - source.left)
  top_le_bottom := by
    have ordered := z.top_le_bottom
    omega
  left_le_right := by
    have ordered := z.left_le_right
    omega

variable {source z other : Zone} {anchor p q : Position}

/-- Positions of a zone are apart from each other after a move. -/
theorem Position.carried_injective (first : source.contains p = true)
    (second : source.contains q = true) (same : p.carried source anchor = q.carried source anchor) :
    p = q := by
  obtain ⟨here, above, _, before, _⟩ := Zone.contains_iff.mp first
  obtain ⟨there, above', _, before', _⟩ := Zone.contains_iff.mp second
  obtain ⟨_, rows, columns⟩ := Position.mk.inj same
  exact eq_of_same (here.trans there.symm) (by omega) (by omega)

/-- Nothing moves when a zone stays where it is. -/
theorem Position.carried_topLeft (inside : source.contains p = true) :
    p.carried source source.topLeft = p := by
  obtain ⟨here, above, _, before, _⟩ := Zone.contains_iff.mp inside
  exact eq_of_same here.symm (Nat.add_sub_cancel' above) (Nat.add_sub_cancel' before)

/-- A zone stays when the one around it stays. -/
theorem Zone.carried_topLeft (within : source.containsZone z = true) :
    z.carried source source.topLeft = z := by
  obtain ⟨sheets, top, bottom, left, right⟩ := containsZone_iff.mp within
  have rows := z.top_le_bottom
  have columns := z.left_le_right
  exact eq_of_same sheets.symm (Nat.add_sub_cancel' top) (Nat.add_sub_cancel' left)
    (Nat.add_sub_cancel' (Nat.le_trans top rows)) (Nat.add_sub_cancel' (Nat.le_trans left columns))

/-- A zone does not stay when the one around it moves elsewhere. -/
theorem Zone.carried_ne (within : source.containsZone z = true) (away : anchor ≠ source.topLeft) :
    z.carried source anchor ≠ z := by
  intro same
  obtain ⟨sheets, top, bottom, left, right⟩ := containsZone_iff.mp within
  have sheet : anchor.sheet = z.sheet := congrArg Zone.sheet same
  have tops : anchor.row + (z.top - source.top) = z.top := congrArg Zone.top same
  have lefts : anchor.column + (z.left - source.left) = z.left := congrArg Zone.left same
  exact away (Position.eq_of_same (sheet.trans sheets) (by simp only [topLeft]; omega)
    (by simp only [topLeft]; omega))

namespace Reference

/-- A reference of this kind can name the cells of a zone: a cell must lie within the grid, the ends
of a range within the numbering. -/
def CanName (target : Reference) (z : Zone) : Prop :=
  match target with
  | .cell _ _ => z.bottom ≤ lastRow ∧ z.right ≤ lastColumn
  | .range _ _ _ => z.bottom < indexBound ∧ z.right < indexBound

variable {target : Reference} {id : SheetId} {named : Option String}

/-- A coordinate moves as far as it can stay within the grid. -/
theorem moveBy_eq_make (c : Coordinate) {rows columns : Int} {row column : Nat}
    (down : (c.row : Int) + rows = row) (across : (c.column : Int) + columns = column) :
    c.moveBy rows columns = Coordinate.make row column c.rowFixed c.columnFixed := by
  unfold Coordinate.moveBy Coordinate.ofSigned
  rw [down, across, if_neg (by omega), if_neg (by omega), Int.toNat_natCast, Int.toNat_natCast]

/-- An axis moves as far as it can stay within the numbering. -/
theorem moveBy?_eq (a : Axis) {distance : Int} {index : Nat} (far : (a.index : Int) + distance = index) :
    a.moveBy? distance = if index < indexBound then some { a with index := index } else none := by
  unfold Axis.moveBy?
  dsimp only
  rw [far]
  by_cases within : index < indexBound
  · rw [if_pos within, if_pos ⟨by omega, by exact_mod_cast within⟩, Int.toNat_natCast]
  · rw [if_neg within, if_neg fun both => within (by exact_mod_cast both.2)]

/-- The zone of a range between two corners is spanned by them in any order. -/
theorem boundedZone?_between (sheet : Option String) (id : SheetId) (top left bottom right : Axis) :
    (between sheet ⟨some top, some left⟩ ⟨some bottom, some right⟩).boundedZone? id =
      some (.span id top.index left.index bottom.index right.index) := by
  have swapped : ∀ first second : Axis, ∃ low high : Axis,
      orderAxes (some first) (some second) = (some low, some high) ∧
        min low.index high.index = min first.index second.index ∧
          max low.index high.index = max first.index second.index := by
    intro first second
    unfold orderAxes
    dsimp only
    split
    · exact ⟨second, first, rfl, Nat.min_comm .., Nat.max_comm ..⟩
    · exact ⟨first, second, rfl, rfl, rfl⟩
  obtain ⟨low, high, rows, least, most⟩ := swapped top bottom
  obtain ⟨first, last, columns, least', most'⟩ := swapped left right
  unfold between
  dsimp only
  rw [rows, columns]
  exact congrArg some (Zone.eq_of_same rfl least least' most most')

/-- The zone of a reference that gives every axis is on the sheet it leads to. -/
theorem sheet_of_boundedZone? (bounded : target.boundedZone? id = some z) : z.sheet = id := by
  unfold boundedZone? at bounded
  split at bounded
  · rw [← Option.some.inj bounded]
    rfl
  · rw [← Option.some.inj bounded]
    rfl
  · contradiction

/-- A reference that gives every axis lies within an extent if its zone does. -/
theorem isWithin_iff (bounded : target.boundedZone? id = some z) (extent : Nat × Nat) :
    target.isWithin extent = true ↔ z.bottom < extent.1 ∧ z.right < extent.2 := by
  unfold boundedZone? at bounded
  split at bounded
  · obtain rfl := Option.some.inj bounded
    simp [isWithin, Zone.single, Zone.span]
  · obtain rfl := Option.some.inj bounded
    simp only [isWithin, Corner.isWithin, Option.all_some, Bool.and_eq_true, decide_eq_true_eq,
      Zone.span]
    omega
  · contradiction

/-- A reference that gives every axis covers the same zone on a sheet of any extent. -/
theorem zone_of_boundedZone? (bounded : target.boundedZone? id = some z) (rows columns : Nat) :
    target.zone id rows columns = z := by
  unfold boundedZone? at bounded
  split at bounded
  · exact Option.some.inj bounded
  · exact Option.some.inj bounded
  · contradiction

/-- Axes of a range move with the zone they bound. -/
theorem moved_axes (first last : Axis) {lowest : Nat} (distant : Nat)
    (within : lowest ≤ min first.index last.index) :
    (distant + (max first.index last.index - lowest) < indexBound →
      ∃ first' last' : Axis, first.moveBy? ((distant : Int) - lowest) = some first' ∧
        last.moveBy? ((distant : Int) - lowest) = some last' ∧
          min first'.index last'.index = distant + (min first.index last.index - lowest) ∧
            max first'.index last'.index = distant + (max first.index last.index - lowest)) ∧
      (¬ distant + (max first.index last.index - lowest) < indexBound →
        first.moveBy? ((distant : Int) - lowest) = none ∨
          last.moveBy? ((distant : Int) - lowest) = none) := by
  have start : (first.index : Int) + ((distant : Int) - lowest) =
      (distant + (first.index - lowest) : Nat) := by omega
  have stop : (last.index : Int) + ((distant : Int) - lowest) =
      (distant + (last.index - lowest) : Nat) := by omega
  constructor
  · intro near
    refine ⟨_, _, (moveBy?_eq first start).trans (if_pos (by omega)),
      (moveBy?_eq last stop).trans (if_pos (by omega)), ?_, ?_⟩
    · dsimp only
      omega
    · dsimp only
      omega
  · intro far
    rcases Nat.le_total first.index last.index with ascending | descending
    · exact .inr ((moveBy?_eq last stop).trans (if_neg (by omega)))
    · exact .inl ((moveBy?_eq first start).trans (if_neg (by omega)))

/-- A cell moves by rows and columns as far as a coordinate can name where it comes. -/
theorem moved_cell (sheet : Option String) (c : Coordinate) {rows columns : Int} {row column : Nat}
    (down : (c.row : Int) + rows = row) (across : (c.column : Int) + columns = column) :
    (row ≤ lastRow ∧ column ≤ lastColumn →
      ∃ c' : Coordinate, moved rows columns named (.cell sheet c) = some (.cell named c') ∧
        c'.row = row ∧ c'.column = column) ∧
      (¬ (row ≤ lastRow ∧ column ≤ lastColumn) →
        moved rows columns named (.cell sheet c) = none) := by
  rw [moved, moveBy_eq_make c down across, Coordinate.make]
  constructor
  · rintro ⟨below, behind⟩
    rw [dif_pos below, dif_pos behind]
    exact ⟨_, rfl, rfl, rfl⟩
  · intro beyond
    by_cases below : row ≤ lastRow
    · rw [dif_pos below, dif_neg fun behind => beyond ⟨below, behind⟩]
      rfl
    · rw [dif_neg below]
      rfl

/-- A range with an axis that cannot move does not move. -/
theorem moved_range_eq_none (sheet : Option String) (first last low high : Axis)
    {rows columns : Int}
    (lost : (first.moveBy? rows = none ∨ last.moveBy? rows = none) ∨
      (low.moveBy? columns = none ∨ high.moveBy? columns = none)) :
    moved rows columns named
      (.range sheet ⟨some first, some low⟩ ⟨some last, some high⟩) = none := by
  rcases lost with (none' | none') | (none' | none') <;> simp [moved, Corner.move?, none']

/-- A reference that lies in a zone as a whole moves with it and then covers what its cells have
become, as far as it can name them. -/
theorem moved_of_containsZone (bounded : target.boundedZone? id = some z)
    (within : source.containsZone z = true) (anchor : Position) (named : Option String) :
    (target.CanName (z.carried source anchor) →
      ∃ new, target.moved ((anchor.row : Int) - source.top) ((anchor.column : Int) - source.left)
          named = some new ∧ new.sheet = named ∧
        ∀ id', new.boundedZone? id' = some { z.carried source anchor with sheet := id' }) ∧
      (¬ target.CanName (z.carried source anchor) →
        target.moved ((anchor.row : Int) - source.top) ((anchor.column : Int) - source.left) named =
          none) := by
  obtain ⟨_, top, _, left, _⟩ := Zone.containsZone_iff.mp within
  unfold boundedZone? at bounded
  split at bounded
  · rename_i sheet c
    obtain rfl := Option.some.inj bounded
    rw [show (Zone.single ⟨id, c.row, c.column⟩).top = c.row from Nat.min_self _] at top
    rw [show (Zone.single ⟨id, c.row, c.column⟩).left = c.column from Nat.min_self _] at left
    have carried : (Zone.single ⟨id, c.row, c.column⟩).carried source anchor =
        .single ⟨anchor.sheet, anchor.row + (c.row - source.top),
          anchor.column + (c.column - source.left)⟩ := by
      refine Zone.eq_of_same rfl ?_ ?_ ?_ ?_ <;> simp [Zone.carried, Zone.single, Zone.span]
    have nameable : CanName (.cell sheet c)
        ((Zone.single ⟨id, c.row, c.column⟩).carried source anchor) ↔
          anchor.row + (c.row - source.top) ≤ lastRow ∧
            anchor.column + (c.column - source.left) ≤ lastColumn := by
      rw [carried]
      simp [CanName, Zone.single, Zone.span]
    have down : (c.row : Int) + ((anchor.row : Int) - source.top) =
        (anchor.row + (c.row - source.top) : Nat) := by omega
    have across : (c.column : Int) + ((anchor.column : Int) - source.left) =
        (anchor.column + (c.column - source.left) : Nat) := by omega
    obtain ⟨near, far⟩ := moved_cell sheet c down across
    rw [nameable, carried]
    refine ⟨fun both => ?_, far⟩
    obtain ⟨c', moved, row, column⟩ := near both
    refine ⟨_, moved, rfl, fun id' => ?_⟩
    rw [boundedZone?, row, column]
    rfl
  · rename_i sheet first low last high
    obtain rfl := Option.some.inj bounded
    obtain ⟨rows, noRows⟩ := moved_axes first last anchor.row top
    obtain ⟨columns, noColumns⟩ := moved_axes low high anchor.column left
    constructor
    · rintro ⟨below, behind⟩
      obtain ⟨first', last', start, stop, least, most⟩ := rows below
      obtain ⟨low', high', start', stop', least', most'⟩ := columns behind
      refine ⟨between named ⟨some first', some low'⟩ ⟨some last', some high'⟩, ?_, rfl, fun id' => ?_⟩
      · simp [moved, Corner.move?, start, stop, start', stop']
      · rw [boundedZone?_between]
        exact congrArg some (Zone.eq_of_same rfl least least' most most')
    · intro beyond
      refine moved_range_eq_none sheet first last low high ?_
      by_cases below : anchor.row + (max first.index last.index - source.top) < indexBound
      · exact .inr (noColumns fun behind => beyond ⟨below, behind⟩)
      · exact .inl (noRows below)
  · contradiction

/-- A reference has no dollar signs. -/
def IsRelative : Reference → Prop
  | .cell _ c => c.rowFixed = false ∧ c.columnFixed = false
  | .range _ start stop => ∀ c ∈ [start, stop], ∀ a : Axis,
      c.row = some a ∨ c.column = some a → a.fixed = false

/-- A reference without dollar signs is copied as it is moved. -/
theorem copied_of_isRelative (relative : target.IsRelative) (rows columns : Int) :
    target.copied rows columns = target.moved rows columns target.sheet := by
  cases target with
  | cell sheet c =>
    obtain ⟨row, column⟩ := relative
    simp [copied, moved, Coordinate.rebase, row, column, Reference.sheet]
  | range sheet start stop =>
    obtain ⟨first, low⟩ := start
    obtain ⟨last, high⟩ := stop
    have free : ∀ (given : Option Axis) (distance : Int), (∀ a, given = some a → a.fixed = false) →
        (given.mapM fun a => if a.fixed then some a else a.moveBy? distance) =
          given.mapM (Axis.moveBy? · distance) := by
      intro given distance loose
      cases given with
      | none => rfl
      | some a => simp [loose a rfl]
    have loose : ∀ c ∈ [(⟨first, low⟩ : Corner), ⟨last, high⟩], ∀ a : Axis,
        c.row = some a ∨ c.column = some a → a.fixed = false := relative
    simp only [List.mem_cons, List.not_mem_nil, or_false, forall_eq_or_imp, forall_eq] at loose
    simp only [copied, moved, Corner.move?, Reference.sheet]
    rw [free first rows fun a same => loose.1 a (.inl same),
      free low columns fun a same => loose.1 a (.inr same),
      free last rows fun a same => loose.2 a (.inl same),
      free high columns fun a same => loose.2 a (.inr same)]

end Reference

end Spreadsheet
