import Mathlib.Data.Sym.Sym2
import Spreadsheet.Proofs.Formula.Trees

/-!
# References copied on the way

A formula may be copied to its place by way of another one. If no reference is lost on the way, none
is lost on the direct way either, and both lead to the same references, up to the order in which the
corners of a range stand: ends with a dollar sign stay, the others may pass them in between. What is
said of the axes of a reference is therefore said of both ends of each, in no order.
-/
namespace Spreadsheet

namespace Axis

/-- The axis after a copy over a distance: with a dollar sign it stays. -/
def carried (distance : Int) (a : Axis) : Axis :=
  if a.fixed then a else { a with index := (a.index + distance).toNat }

/-- A copy over a distance does not take the axis to the left of the first column or above the first
row. -/
def StartsAfter (distance : Int) (a : Axis) : Prop := a.fixed = true ∨ 0 ≤ a.index + distance

/-- A copy over a distance keeps the axis below a bound, unless it stays. -/
def HasRoom (bound : Nat) (distance : Int) (a : Axis) : Prop :=
  a.fixed = true ∨ 0 ≤ a.index + distance ∧ a.index + distance < bound

variable {a : Axis} {distance distance' : Int} {bound : Nat}

/-- An axis keeps its dollar sign. -/
@[simp] theorem fixed_carried : (a.carried distance).fixed = a.fixed := by
  unfold carried
  split <;> rfl

/-- An axis with a dollar sign stays. -/
theorem carried_of_fixed (fixed : a.fixed = true) : a.carried distance = a := if_pos fixed

/-- An axis without a dollar sign goes over the distance. -/
theorem carried_of_not_fixed (free : ¬ a.fixed = true) :
    a.carried distance = { a with index := (a.index + distance).toNat } := if_neg free

/-- A copy to the same place changes nothing. -/
theorem carried_zero (a : Axis) : a.carried 0 = a := by
  unfold carried
  split
  · rfl
  · rw [Int.add_zero, Int.toNat_natCast]

/-- An axis below a bound that has room stays below it. -/
theorem HasRoom.index_carried_lt (room : a.HasRoom bound distance) (before : a.index < bound) :
    (a.carried distance).index < bound := by
  by_cases fixed : a.fixed = true
  · rwa [carried_of_fixed fixed]
  · have within := room.resolve_left fixed
    rw [carried_of_not_fixed fixed]
    dsimp only
    omega

/-- An axis that has room stays behind the first row and column. -/
theorem HasRoom.startsAfter (room : a.HasRoom bound distance) : a.StartsAfter distance :=
  room.imp id And.left

/-- An axis that is copied twice goes over both distances. -/
theorem carried_carried (near : a.StartsAfter distance) :
    (a.carried distance).carried distance' = a.carried (distance + distance') := by
  by_cases fixed : a.fixed = true
  · have stays : a.carried distance = a := carried_of_fixed fixed
    rw [stays, carried_of_fixed fixed, carried_of_fixed fixed]
  · have start : 0 ≤ a.index + distance := near.resolve_left fixed
    have free : ¬ (a.carried distance).fixed = true := by rwa [fixed_carried]
    rw [carried_of_not_fixed free, carried_of_not_fixed fixed, carried_of_not_fixed fixed]
    dsimp only
    rw [Int.toNat_of_nonneg start, Int.add_assoc]

/-- An axis that has room for a second copy has room for both at once. -/
theorem HasRoom.add (near : a.StartsAfter distance)
    (room : (a.carried distance).HasRoom bound distance') : a.HasRoom bound (distance + distance') := by
  by_cases fixed : a.fixed = true
  · exact .inl fixed
  · have start : 0 ≤ a.index + distance := near.resolve_left fixed
    have free : ¬ (a.carried distance).fixed = true := by rwa [fixed_carried]
    have within := room.resolve_left free
    rw [carried_of_not_fixed fixed] at within
    dsimp only at within
    rw [Int.toNat_of_nonneg start] at within
    exact .inr (by omega)

/-- Where an axis below a bound comes to below the same bound. -/
theorem eq_carried_iff (a a' : Axis) (distance : Int) (before : a.index < bound) (behind : a'.index < bound) :
    (a'.fixed = a.fixed ∧ (a'.index : Int) = a.index + if a.fixed then 0 else distance) ↔
      a.HasRoom bound distance ∧ a' = a.carried distance := by
  obtain ⟨index, fixed⟩ := a
  obtain ⟨index', fixed'⟩ := a'
  dsimp only at before behind ⊢
  cases fixed with
  | true =>
    rw [carried_of_fixed rfl, if_pos rfl, mk.injEq]
    constructor
    · exact fun ⟨signs, places⟩ => ⟨.inl rfl, by omega, signs⟩
    · exact fun ⟨_, places, signs⟩ => ⟨signs, by omega⟩
  | false =>
    rw [carried_of_not_fixed Bool.false_ne_true, if_neg Bool.false_ne_true, mk.injEq]
    constructor
    · exact fun ⟨signs, places⟩ => ⟨.inr ⟨by dsimp only; omega, by dsimp only; omega⟩,
        by dsimp only; omega, signs⟩
    · rintro ⟨room, places, signs⟩
      have within := room.resolve_left Bool.false_ne_true
      dsimp only at within places
      exact ⟨signs, by omega⟩

end Axis

/-! ### The ends of references -/

/-- Both ends that a reference gives on one axis have a property. -/
def EachEnd (Holds : Axis → Prop) (ends : Sym2 (Option Axis)) : Prop :=
  ∀ given ∈ ends, ∀ a ∈ given, Holds a

/-- Both ends after a copy over a distance. -/
def carriedEnds (distance : Int) (ends : Sym2 (Option Axis)) : Sym2 (Option Axis) :=
  ends.map (Option.map (Axis.carried distance))

section Ends

variable {Holds Holds' : Axis → Prop} {ends : Sym2 (Option Axis)} {distance distance' : Int}

/-- Both ends are the first one and the last one. -/
theorem eachEnd_pair {first last : Option Axis} :
    EachEnd Holds s(first, last) ↔ (∀ a ∈ first, Holds a) ∧ ∀ a ∈ last, Holds a :=
  Sym2.ball

/-- Both ends are one and the same. -/
theorem eachEnd_single {a : Axis} : EachEnd Holds s(some a, some a) ↔ Holds a := by
  rw [eachEnd_pair]
  simp

/-- The ends after a copy have a property if those before it are copied to axes that have it. -/
theorem eachEnd_carriedEnds_iff :
    EachEnd Holds (carriedEnds distance ends) ↔ EachEnd (fun a => Holds (a.carried distance)) ends := by
  cases ends with
  | _ first last => simp [carriedEnds, eachEnd_pair]

/-- What follows from a property of the ends one by one follows for both. -/
theorem EachEnd.imp₂ {Holds'' : Axis → Prop} (step : ∀ a, Holds a → Holds' a → Holds'' a)
    (first : EachEnd Holds ends) (second : EachEnd Holds' ends) : EachEnd Holds'' ends :=
  fun given listed a here => step a (first given listed a here) (second given listed a here)

/-- A copy to the same place keeps both ends. -/
theorem carriedEnds_zero (ends : Sym2 (Option Axis)) : carriedEnds 0 ends = ends := by
  have same : Axis.carried 0 = id := funext Axis.carried_zero
  rw [carriedEnds, same, Option.map_id, Sym2.map_id]
  rfl

/-- Ends that are copied twice go over both distances. -/
theorem carriedEnds_carriedEnds (near : EachEnd (Axis.StartsAfter distance) ends) :
    carriedEnds distance' (carriedEnds distance ends) = carriedEnds (distance + distance') ends := by
  unfold carriedEnds
  rw [Sym2.map_map]
  apply Sym2.map_congr
  intro given listed
  cases given with
  | none => rfl
  | some a =>
    have both : (a.carried distance).carried distance' = a.carried (distance + distance') :=
      Axis.carried_carried (near (some a) listed a rfl)
    exact congrArg some both

/-- Putting axes in order keeps both. -/
theorem pair_orderAxes (first last : Option Axis) :
    s((orderAxes first last).1, (orderAxes first last).2) = s(first, last) := by
  cases first with
  | none => rfl
  | some a =>
    cases last with
    | none => rfl
    | some b =>
      unfold orderAxes
      dsimp only
      split
      · exact Sym2.eq_swap
      · rfl

end Ends

namespace Coordinate

/-- The row of a coordinate as an axis. -/
def rowAxis (c : Coordinate) : Axis := ⟨c.row, c.rowFixed⟩

/-- The column of a coordinate as an axis. -/
def columnAxis (c : Coordinate) : Axis := ⟨c.column, c.columnFixed⟩

variable {c c' : Coordinate} {rows columns : Int}

/-- A signed row and column make a coordinate exactly if it has them and the dollar signs. -/
theorem ofSigned_eq_ok_iff {row column : Int} {rowFixed columnFixed : Bool} :
    ofSigned row column rowFixed columnFixed = .ok c ↔
      (c.rowFixed = rowFixed ∧ (c.row : Int) = row) ∧
        c.columnFixed = columnFixed ∧ (c.column : Int) = column := by
  unfold ofSigned make
  constructor
  · intro found
    split at found
    · contradiction
    · split at found
      · contradiction
      · rename_i below behind
        split at found
        · split at found
          · rw [← Except.ok.inj found]
            exact ⟨⟨rfl, by dsimp only; omega⟩, rfl, by dsimp only; omega⟩
          · contradiction
        · contradiction
  · rintro ⟨⟨rfl, rfl⟩, rfl, rfl⟩
    rw [if_neg (by omega), if_neg (by omega), Int.toNat_natCast, Int.toNat_natCast,
      dif_pos c.row_le, dif_pos c.column_le]

/-- A coordinate is copied exactly if it has room, and each axis goes its way. -/
theorem rebase_eq_ok_iff :
    c.rebase rows columns = .ok c' ↔
      (c.rowAxis.HasRoom (lastRow + 1) rows ∧ c'.rowAxis = c.rowAxis.carried rows) ∧
        c.columnAxis.HasRoom (lastColumn + 1) columns ∧
          c'.columnAxis = c.columnAxis.carried columns := by
  have row := Axis.eq_carried_iff c.rowAxis c'.rowAxis rows
    (Nat.lt_succ_of_le c.row_le) (Nat.lt_succ_of_le c'.row_le)
  have column := Axis.eq_carried_iff c.columnAxis c'.columnAxis columns
    (Nat.lt_succ_of_le c.column_le) (Nat.lt_succ_of_le c'.column_le)
  rw [rebase, moveBy, ofSigned_eq_ok_iff]
  exact and_congr row column

end Coordinate

namespace Reference

/-- The reference names a single cell. -/
def isCell : Reference → Bool
  | .cell _ _ => true
  | .range _ _ _ => false

/-- The first row and the last one that a reference gives, in no order. -/
def rowEnds : Reference → Sym2 (Option Axis)
  | .cell _ c => s(some c.rowAxis, some c.rowAxis)
  | .range _ start stop => s(start.row, stop.row)

/-- The first column and the last one that a reference gives, in no order. -/
def columnEnds : Reference → Sym2 (Option Axis)
  | .cell _ c => s(some c.columnAxis, some c.columnAxis)
  | .range _ start stop => s(start.column, stop.column)

/-- References of one kind to one sheet that give the same ends on each axis, dollar signs
included. -/
structure SameEnds (target target' : Reference) : Prop where
  sheet : target.sheet = target'.sheet
  kind : target.isCell = target'.isCell
  rows : target.rowEnds = target'.rowEnds
  columns : target.columnEnds = target'.columnEnds

/-- What a reference can become when its formula is copied. -/
structure Copies (rows columns : Int) (target new : Reference) : Prop where
  sheet : new.sheet = target.sheet
  kind : new.isCell = target.isCell
  rows : new.rowEnds = carriedEnds rows target.rowEnds
  columns : new.columnEnds = carriedEnds columns target.columnEnds

/-- The number of rows that references of a kind can name. -/
def rowBound (cell : Bool) : Nat := if cell then lastRow + 1 else indexBound

/-- The number of columns that references of a kind can name. -/
def columnBound (cell : Bool) : Nat := if cell then lastColumn + 1 else indexBound

/-- Copied ends can still be named by a reference of the same kind. -/
def HasRoom (rows columns : Int) (target : Reference) : Prop :=
  EachEnd (Axis.HasRoom (rowBound target.isCell) rows) target.rowEnds ∧
    EachEnd (Axis.HasRoom (columnBound target.isCell) columns) target.columnEnds

variable {target middle new last : Reference} {rows columns rows' columns' : Int}

/-! ### One copy -/

/-- An axis of a range is copied exactly if it has room. -/
theorem copied_axis_eq_some_iff {a a' : Axis} {distance : Int} :
    (if a.fixed then some a else a.moveBy? distance) = some a' ↔
      a.HasRoom indexBound distance ∧ a' = a.carried distance := by
  by_cases fixed : a.fixed = true
  · rw [if_pos fixed, Axis.carried_of_fixed fixed, Option.some.injEq]
    constructor
    · exact fun same => ⟨.inl fixed, same.symm⟩
    · exact fun copied => copied.2.symm
  · rw [if_neg fixed, Axis.carried_of_not_fixed fixed, Axis.moveBy?]
    by_cases within : 0 ≤ (a.index : Int) + distance ∧ (a.index : Int) + distance < indexBound
    · rw [if_pos within, Option.some.injEq]
      constructor
      · exact fun same => ⟨.inr within, same.symm⟩
      · exact fun copied => copied.2.symm
    · rw [if_neg within]
      constructor
      · intro none'
        contradiction
      · rintro ⟨fixed' | within', _⟩
        · exact absurd fixed' fixed
        · exact absurd within' within

/-- An end of a range is copied exactly if it is left out or has room. -/
theorem copied_end_eq_some_iff {given given' : Option Axis} {distance : Int} :
    (given.mapM fun a => if a.fixed then some a else a.moveBy? distance) = some given' ↔
      (∀ a ∈ given, a.HasRoom indexBound distance) ∧ given' = given.map (Axis.carried distance) := by
  cases given with
  | none =>
    constructor
    · exact fun same => ⟨fun _ none' => by contradiction, (Option.some.inj same).symm⟩
    · exact fun copied => congrArg some copied.2.symm
  | some a =>
    have copied : ∀ a', (if a.fixed then some a else a.moveBy? distance) = some a' ↔
        a.HasRoom indexBound distance ∧ a' = a.carried distance :=
      fun _ => copied_axis_eq_some_iff
    simp only [Option.mapM_some, Option.map_eq_map, Option.map_eq_some_iff, copied, Option.mem_some,
      forall_eq', Option.map_some]
    constructor
    · rintro ⟨a', ⟨room, rfl⟩, rfl⟩
      exact ⟨room, rfl⟩
    · rintro ⟨room, rfl⟩
      exact ⟨_, ⟨room, rfl⟩, rfl⟩

/-- The range between two corners gives the ends that they give. -/
theorem ends_between (sheet : Option String) (corner other : Corner) :
    (between sheet corner other).rowEnds = s(corner.row, other.row) ∧
      (between sheet corner other).columnEnds = s(corner.column, other.column) :=
  ⟨pair_orderAxes corner.row other.row, pair_orderAxes corner.column other.column⟩

/-- A copied reference had room and has the ends that were copied. -/
theorem copies_of_copied (found : target.copied rows columns = some new) :
    target.HasRoom rows columns ∧ Copies rows columns target new := by
  cases target with
  | cell sheet c =>
    rw [copied] at found
    cases rebased : c.rebase rows columns with
    | error refusal =>
      rw [rebased] at found
      contradiction
    | ok c' =>
      rw [rebased] at found
      obtain rfl := Option.some.inj found
      obtain ⟨⟨rowRoom, row⟩, columnRoom, column⟩ := Coordinate.rebase_eq_ok_iff.mp rebased
      refine ⟨⟨eachEnd_single.mpr rowRoom, eachEnd_single.mpr columnRoom⟩, rfl, rfl, ?_, ?_⟩
      · rw [rowEnds, row]
        rfl
      · rw [columnEnds, column]
        rfl
  | range sheet start stop =>
    obtain ⟨start', first, rest⟩ := Option.bind_eq_some_iff.mp found
    obtain ⟨stop', second, rest⟩ := Option.bind_eq_some_iff.mp rest
    obtain rfl := Option.some.inj rest
    obtain ⟨row, top, rest⟩ := Option.bind_eq_some_iff.mp first
    obtain ⟨column, left, rest⟩ := Option.bind_eq_some_iff.mp rest
    obtain rfl := Option.some.inj rest
    obtain ⟨row', bottom, rest⟩ := Option.bind_eq_some_iff.mp second
    obtain ⟨column', right, rest⟩ := Option.bind_eq_some_iff.mp rest
    obtain rfl := Option.some.inj rest
    obtain ⟨topRoom, rfl⟩ := copied_end_eq_some_iff.mp top
    obtain ⟨leftRoom, rfl⟩ := copied_end_eq_some_iff.mp left
    obtain ⟨bottomRoom, rfl⟩ := copied_end_eq_some_iff.mp bottom
    obtain ⟨rightRoom, rfl⟩ := copied_end_eq_some_iff.mp right
    refine ⟨⟨eachEnd_pair.mpr ⟨topRoom, bottomRoom⟩, eachEnd_pair.mpr ⟨leftRoom, rightRoom⟩⟩, rfl, rfl,
      ?_, ?_⟩
    · exact (ends_between _ _ _).1
    · exact (ends_between _ _ _).2

/-- A reference that has room is copied. -/
theorem exists_copied (room : target.HasRoom rows columns) :
    ∃ new, target.copied rows columns = some new := by
  obtain ⟨rowRoom, columnRoom⟩ := room
  cases target with
  | cell sheet c =>
    have row : c.rowAxis.HasRoom (lastRow + 1) rows := eachEnd_single.mp rowRoom
    have column : c.columnAxis.HasRoom (lastColumn + 1) columns := eachEnd_single.mp columnRoom
    have below := row.index_carried_lt (Nat.lt_succ_of_le c.row_le)
    have behind := column.index_carried_lt (Nat.lt_succ_of_le c.column_le)
    let c' : Coordinate := {
      row := (c.rowAxis.carried rows).index
      column := (c.columnAxis.carried columns).index
      rowFixed := (c.rowAxis.carried rows).fixed
      columnFixed := (c.columnAxis.carried columns).fixed
      row_le := Nat.le_of_lt_succ below
      column_le := Nat.le_of_lt_succ behind }
    have rebased : c.rebase rows columns = .ok c' :=
      Coordinate.rebase_eq_ok_iff.mpr ⟨⟨row, rfl⟩, column, rfl⟩
    rw [copied, rebased]
    exact ⟨_, rfl⟩
  | range sheet start stop =>
    obtain ⟨top, bottom⟩ := eachEnd_pair.mp rowRoom
    obtain ⟨left, right⟩ := eachEnd_pair.mp columnRoom
    have first := copied_end_eq_some_iff.mpr ⟨top, rfl⟩
    have second := copied_end_eq_some_iff.mpr ⟨left, rfl⟩
    have third := copied_end_eq_some_iff.mpr ⟨bottom, rfl⟩
    have fourth := copied_end_eq_some_iff.mpr ⟨right, rfl⟩
    simp [copied, Corner.move?, first, second, third, fourth]

/-- A reference lies within an extent exactly if all of its ends do. -/
theorem isWithin_iff_eachEnd (target : Reference) (extent : Nat × Nat) :
    target.isWithin extent = true ↔
      EachEnd (fun a => a.index < extent.1) target.rowEnds ∧
        EachEnd (fun a => a.index < extent.2) target.columnEnds := by
  cases target with
  | cell sheet c =>
    simp only [isWithin, rowEnds, columnEnds, eachEnd_single, Bool.and_eq_true, decide_eq_true_eq]
    rfl
  | range sheet start stop =>
    simp only [isWithin, Corner.isWithin, rowEnds, columnEnds, eachEnd_pair, Bool.and_eq_true,
      Option.all_eq_true, decide_eq_true_eq]
    exact and_and_and_comm

/-! ### Copies within the extents of sheets -/

variable {extentOf : Option String → Option (Nat × Nat)}

/-- Where a reference leads when its formula is copied. Nothing is asked of it if the formula stays
where it is. -/
def copiedWithin (extentOf : Option String → Option (Nat × Nat)) (rows columns : Int)
    (target : Reference) : Option Reference :=
  if rows = 0 ∧ columns = 0 then some target
  else (target.copied rows columns).filter fun new => (extentOf target.sheet).all new.isWithin

/-- A reference that is copied has the ends that were copied. -/
theorem copies_of_copiedWithin (found : target.copiedWithin extentOf rows columns = some new) :
    Copies rows columns target new ∧ EachEnd (Axis.StartsAfter rows) target.rowEnds ∧
      EachEnd (Axis.StartsAfter columns) target.columnEnds := by
  rw [copiedWithin] at found
  split at found
  · rename_i stays
    obtain ⟨rfl, rfl⟩ := stays
    obtain rfl := Option.some.inj found
    have start : ∀ a : Axis, a.StartsAfter 0 := fun a => .inr (by omega)
    exact ⟨⟨rfl, rfl, (carriedEnds_zero _).symm, (carriedEnds_zero _).symm⟩,
      fun _ _ a _ => start a, fun _ _ a _ => start a⟩
  · have copied := (Option.filter_eq_some_iff.mp found).1
    obtain ⟨⟨rowRoom, columnRoom⟩, copies⟩ := copies_of_copied copied
    exact ⟨copies, fun given listed a here => (rowRoom given listed a here).startsAfter,
      fun given listed a here => (columnRoom given listed a here).startsAfter⟩

/-- Copies of one reference over the same distances have the same ends. -/
theorem Copies.sameEnds (copies : Copies rows columns target new)
    (copies' : Copies rows columns target last) : new.SameEnds last where
  sheet := copies.sheet.trans copies'.sheet.symm
  kind := copies.kind.trans copies'.kind.symm
  rows := copies.rows.trans copies'.rows.symm
  columns := copies.columns.trans copies'.columns.symm

/-- References with the same ends lie within the same extents. -/
theorem SameEnds.isWithin_eq (same : target.SameEnds new) (extent : Nat × Nat) :
    target.isWithin extent = new.isWithin extent := by
  rw [Bool.eq_iff_iff, isWithin_iff_eachEnd, isWithin_iff_eachEnd, same.rows, same.columns]

/-- The copy of a copy goes over both distances. -/
theorem Copies.trans (first : Copies rows columns target middle)
    (second : Copies rows' columns' middle last)
    (above : EachEnd (Axis.StartsAfter rows) target.rowEnds)
    (before : EachEnd (Axis.StartsAfter columns) target.columnEnds) :
    Copies (rows + rows') (columns + columns') target last where
  sheet := second.sheet.trans first.sheet
  kind := second.kind.trans first.kind
  rows := calc
    last.rowEnds = carriedEnds rows' middle.rowEnds := second.rows
    _ = carriedEnds rows' (carriedEnds rows target.rowEnds) := by rw [first.rows]
    _ = carriedEnds (rows + rows') target.rowEnds := carriedEnds_carriedEnds above
  columns := calc
    last.columnEnds = carriedEnds columns' middle.columnEnds := second.columns
    _ = carriedEnds columns' (carriedEnds columns target.columnEnds) := by rw [first.columns]
    _ = carriedEnds (columns + columns') target.columnEnds := carriedEnds_carriedEnds before

/-- A reference that can be copied on from where it was copied to can be copied there at once. -/
theorem Copies.hasRoom (first : Copies rows columns target middle)
    (room : middle.HasRoom rows' columns')
    (above : EachEnd (Axis.StartsAfter rows) target.rowEnds)
    (before : EachEnd (Axis.StartsAfter columns) target.columnEnds) :
    target.HasRoom (rows + rows') (columns + columns') := by
  obtain ⟨rowRoom, columnRoom⟩ := room
  rw [first.kind, first.rows, eachEnd_carriedEnds_iff] at rowRoom
  rw [first.kind, first.columns, eachEnd_carriedEnds_iff] at columnRoom
  exact ⟨above.imp₂ (fun _ => Axis.HasRoom.add) rowRoom,
    before.imp₂ (fun _ => Axis.HasRoom.add) columnRoom⟩

/-- A reference that is copied twice is copied at once to one with the same ends. -/
theorem copiedWithin_add (first : target.copiedWithin extentOf rows columns = some middle)
    (second : middle.copiedWithin extentOf rows' columns' = some last) :
    ∃ new, target.copiedWithin extentOf (rows + rows') (columns + columns') = some new ∧
      last.SameEnds new := by
  obtain ⟨copies, above, before⟩ := copies_of_copiedWithin first
  obtain ⟨copies', _, _⟩ := copies_of_copiedWithin second
  have both : Copies (rows + rows') (columns + columns') target last :=
    copies.trans copies' above before
  -- It is enough that the reference is copied at all.
  suffices found : ∃ new, target.copiedWithin extentOf (rows + rows') (columns + columns') = some new by
    obtain ⟨new, found⟩ := found
    exact ⟨new, found, both.sameEnds (copies_of_copiedWithin found).1⟩
  by_cases returns : rows + rows' = 0 ∧ columns + columns' = 0
  · exact ⟨target, if_pos returns⟩
  · by_cases stays : rows' = 0 ∧ columns' = 0
    · obtain ⟨rfl, rfl⟩ := stays
      rw [Int.add_zero, Int.add_zero]
      exact ⟨middle, first⟩
    · rw [copiedWithin, if_neg stays] at second
      obtain ⟨copied, fits⟩ := Option.filter_eq_some_iff.mp second
      have room : target.HasRoom (rows + rows') (columns + columns') :=
        copies.hasRoom (copies_of_copied copied).1 above before
      obtain ⟨new, direct⟩ := exists_copied room
      have same : last.SameEnds new := both.sameEnds (copies_of_copied direct).2
      have within : (extentOf target.sheet).all new.isWithin = true := by
        rw [copies.sheet] at fits
        rw [← funext same.isWithin_eq]
        exact fits
      refine ⟨new, ?_⟩
      rw [copiedWithin, if_neg returns, direct, Option.filter_some, if_pos within]

end Reference

namespace Expr

variable {extentOf : Option String → Option (Nat × Nat)} {rows columns rows' columns' : Int} {e e' : Expr}

/-- The tree of a formula that was copied `rows` down and `columns` to the right. -/
def copied (extentOf : Option String → Option (Nat × Nat)) (rows columns : Int) (e : Expr) : Expr :=
  (e.offset? extentOf rows columns).getD e

/-- The tree with one and the same reference in place of all, without tokens and spellings. -/
def shape (e : Expr) : Expr := e.led fun _ => some (.cell none (.clamp 0 0 false false))

/-- Trees of one shape whose references have the same ends, one by one. -/
structure SameEnds (e e' : Expr) : Prop where
  shape : e.shape = e'.shape
  references : List.Forall₂ Reference.SameEnds e.references e'.references

/-- A copy leads each reference where it leads by itself. -/
theorem led_copied (lead : Reference → Option Reference) (e : Expr) :
    (e.copied extentOf rows columns).led lead =
      e.led fun target => (target.copiedWithin extentOf rows columns).bind lead := by
  unfold copied offset? Reference.copiedWithin
  split
  · rfl
  · rw [led_redirect?]
    simp only [Fate.target?_ofTarget?]

/-- The references of a copy are those that were not lost. -/
theorem references_copied (e : Expr) :
    (e.copied extentOf rows columns).references =
      e.references.filterMap (Reference.copiedWithin extentOf rows columns) := by
  calc
    (e.copied extentOf rows columns).references
      = (e.copied extentOf rows columns).bare.references := (references_bare _).symm
    _ = (e.led fun target => (target.copiedWithin extentOf rows columns).bind some).references := by
        rw [bare, led_copied]
    _ = e.references.filterMap fun target => (target.copiedWithin extentOf rows columns).bind some :=
        references_led e
    _ = e.references.filterMap (Reference.copiedWithin extentOf rows columns) := by
        simp only [Option.bind_fun_some]

/-- A copy has the shape of a tree exactly if none of its references is lost. -/
theorem shape_copied_eq_iff :
    (e.copied extentOf rows columns).shape = e.shape ↔
      ∀ target ∈ e.references, ∃ new, target.copiedWithin extentOf rows columns = some new := by
  rw [shape, led_copied, shape, led_eq_led_iff]
  refine forall₂_congr fun target _ => ?_
  cases target.copiedWithin extentOf rows columns with
  | none => simp
  | some new => simp

/-- A copy to the same place is the formula itself. -/
theorem copied_zero (extentOf : Option String → Option (Nat × Nat)) (e : Expr) :
    e.copied extentOf 0 0 = e := by
  have unchanged : e.offset? extentOf 0 0 = none := if_pos ⟨rfl, rfl⟩
  rw [copied, unchanged]
  rfl

/-- Of references that are led along two ways, none is lost on either, and those at the ends are
related one by one if they are for each. -/
theorem forall₂_filterMap {Related : Reference → Reference → Prop}
    {lead lead' : Reference → Option Reference} {targets : List Reference}
    (each : ∀ target ∈ targets, ∃ new new', lead target = some new ∧ lead' target = some new' ∧
      Related new new') :
    List.Forall₂ Related (targets.filterMap lead) (targets.filterMap lead') := by
  induction targets with
  | nil => exact .nil
  | cons target rest ih =>
    obtain ⟨new, new', found, found', related⟩ := each target List.mem_cons_self
    rw [List.filterMap_cons_some found, List.filterMap_cons_some found']
    exact .cons related (ih fun target listed => each target (List.mem_cons_of_mem _ listed))

/-- A formula that is copied to its place by way of another one without losing a reference loses none
when it is copied there at once. Both copies have one shape, and each reference has the same sheet,
the same kind and the same ends on each axis. In particular the way back restores all references. -/
theorem copied_add
    (first : (e.copied extentOf rows columns).shape = e.shape)
    (second : ((e.copied extentOf rows columns).copied extentOf rows' columns').shape =
      (e.copied extentOf rows columns).shape) :
    (e.copied extentOf (rows + rows') (columns + columns')).shape = e.shape ∧
      ((e.copied extentOf rows columns).copied extentOf rows' columns').SameEnds
        (e.copied extentOf (rows + rows') (columns + columns')) ∧
      (rows' = -rows → columns' = -columns →
        ((e.copied extentOf rows columns).copied extentOf rows' columns').SameEnds e) := by
  have each : ∀ target ∈ e.references, ∃ last new,
      ((target.copiedWithin extentOf rows columns).bind
        (Reference.copiedWithin extentOf rows' columns')) = some last ∧
      target.copiedWithin extentOf (rows + rows') (columns + columns') = some new ∧
        last.SameEnds new := by
    intro target listed
    obtain ⟨middle, led⟩ := shape_copied_eq_iff.mp first target listed
    have kept : middle ∈ (e.copied extentOf rows columns).references := by
      rw [references_copied]
      exact List.mem_filterMap.mpr ⟨target, listed, led⟩
    obtain ⟨last, led'⟩ := shape_copied_eq_iff.mp second middle kept
    obtain ⟨new, direct, same⟩ := Reference.copiedWithin_add led led'
    exact ⟨last, new, Option.bind_eq_some_iff.mpr ⟨middle, led, led'⟩, direct, same⟩
  have direct : (e.copied extentOf (rows + rows') (columns + columns')).shape = e.shape := by
    apply shape_copied_eq_iff.mpr
    intro target listed
    obtain ⟨_, new, _, found, _⟩ := each target listed
    exact ⟨new, found⟩
  have ends : ((e.copied extentOf rows columns).copied extentOf rows' columns').SameEnds
      (e.copied extentOf (rows + rows') (columns + columns')) := by
    refine ⟨second.trans (first.trans direct.symm), ?_⟩
    rw [references_copied, references_copied, references_copied, List.filterMap_filterMap]
    exact forall₂_filterMap each
  refine ⟨direct, ends, ?_⟩
  rintro rfl rfl
  rw [Int.add_right_neg, Int.add_right_neg, copied_zero] at ends
  exact ends

/-- The sum of `A$3:$B5` and `D7`. -/
def sumOfCrossingEnds : Expr :=
  .binary .plus
    (.reference (.range none ⟨some ⟨2, true⟩, some ⟨0, false⟩⟩ ⟨some ⟨4, false⟩, some ⟨1, true⟩⟩)
      "A$3:$B5" none)
    (.reference (.cell none (.clamp 6 3 false false)) "D7" none) none

/-- Both free ends of a range pass the fixed ones on the way up and to the right, and one of them
passes again on the way down and to the left. On the whole way back both do. -/
theorem copied_add_sumOfCrossingEnds :
    ∃ extentOf : Option String → Option (Nat × Nat),
      (sumOfCrossingEnds.copied extentOf (-3) 2).shape = sumOfCrossingEnds.shape ∧
      ((sumOfCrossingEnds.copied extentOf (-3) 2).copied extentOf 4 (-1)).shape =
        (sumOfCrossingEnds.copied extentOf (-3) 2).shape ∧
      ((sumOfCrossingEnds.copied extentOf (-3) 2).copied extentOf 4 (-1)).SameEnds
        (sumOfCrossingEnds.copied extentOf 1 1) ∧
      ((sumOfCrossingEnds.copied extentOf (-3) 2).copied extentOf 3 (-2)).SameEnds sumOfCrossingEnds :=
  ⟨fun _ => some (10, 10), rfl, rfl, (copied_add rfl rfl).2.1, (copied_add rfl rfl).2.2 rfl rfl⟩

end Expr

end Spreadsheet
