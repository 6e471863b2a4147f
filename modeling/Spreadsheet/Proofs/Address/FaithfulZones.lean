import Mathlib.Data.List.Basic
import Mathlib.Order.Interval.Set.UnorderedInterval
import Mathlib.Order.Lattice.Nat
import Spreadsheet.Proofs.Address.Zones

/-!
# Zones as sets of positions

What is asked of a zone by its borders is answered as if its positions were looked through one by one:
whether two zones meet, whether one lies within another, whether there is one position only. A zone that
is moved lists the moved positions.
-/
namespace Spreadsheet

/-- A position is moved to the one at that distance, if its row and its column have a number. -/
theorem Position.moveBy?_eq_some_iff {p q : Position} {rows columns : Int} :
    p.moveBy? rows columns = some q ↔
      q.sheet = p.sheet ∧ (q.row : Int) = p.row + rows ∧ (q.column : Int) = p.column + columns ∧
        q.row < indexBound ∧ q.column < indexBound := by
  obtain ⟨sheet, row, column⟩ := q
  unfold moveBy?
  dsimp only
  split
  · rw [Option.some.injEq, mk.injEq, eq_comm]
    refine and_congr_right fun _ => ?_
    omega
  · refine iff_of_false nofun ?_
    omega

namespace Zone

variable {z moved : Zone} {rows columns : Int}

/-! ### Borders and positions -/

/-- A zone holds what lies between its corners, in whatever order these are given. -/
theorem contains_span {sheet : SheetId} {row column otherRow otherColumn : Nat} {p : Position} :
    (span sheet row column otherRow otherColumn).contains p = true ↔
      p.sheet = sheet ∧ p.row ∈ Set.uIcc row otherRow ∧ p.column ∈ Set.uIcc column otherColumn := by
  rw [contains_iff, Set.mem_uIcc, Set.mem_uIcc]
  dsimp only [span]
  refine and_congr_right fun _ => ?_
  omega

/-- The last position of a zone lies in it. -/
@[simp] theorem contains_bottomRight (z : Zone) : z.contains z.bottomRight = true :=
  contains_iff.mpr ⟨rfl, z.top_le_bottom, Nat.le_refl _, z.left_le_right, Nat.le_refl _⟩

/-- The positions of a zone by their distances from the first one. -/
theorem positions_eq (z : Zone) :
    z.positions = (List.range z.rows).flatMap fun row =>
      (List.range z.columns).map fun column => ⟨z.sheet, z.top + row, z.left + column⟩ := by
  simp only [positions, List.range'_eq_map_range, List.flatMap_map, List.map_map]
  rfl

/-- A zone has as many positions as its rows have columns. -/
theorem length_positions (z : Zone) : z.positions.length = z.rows * z.columns := by
  rw [positions, List.length_flatMap]
  simp only [List.length_map, List.length_range', List.map_const', List.sum_replicate_nat]

/-- A zone is of one position exactly if its borders say so. -/
theorem isSingle_iff : z.isSingle = true ↔ ∃! p, z.contains p = true := by
  constructor
  · intro alone
    exact ⟨z.topLeft, z.contains_topLeft, fun p inside => (contains_of_isSingle alone).mp inside⟩
  · rintro ⟨p, _, only⟩
    have same : z.topLeft = z.bottomRight :=
      (only _ z.contains_topLeft).trans (only _ z.contains_bottomRight).symm
    obtain ⟨_, rows, columns⟩ := Position.mk.inj same
    simp only [isSingle, Bool.and_eq_true, beq_iff_eq]
    exact ⟨rows, columns⟩

/-- A zone lies within another one exactly if all of its positions do. -/
theorem containsZone_iff_contains {outer inner : Zone} :
    outer.containsZone inner = true ↔ ∀ p, inner.contains p = true → outer.contains p = true :=
  ⟨fun within _ inside => contains_of_containsZone within inside, containsZone_of_contains⟩

/-! ### Moved zones -/

/-- A zone is moved to the one with its borders at that distance, if the first position has a number. -/
theorem moveBy?_eq_some_iff :
    z.moveBy? rows columns = some moved ↔
      z.topLeft.moveBy? rows columns = some moved.topLeft ∧
        (moved.bottom : Int) = z.bottom + rows ∧ (moved.right : Int) = z.right + columns := by
  have vertical := z.top_le_bottom
  have horizontal := z.left_le_right
  unfold moveBy?
  rw [Option.map_eq_some_iff]
  constructor
  · rintro ⟨anchor, found, rfl⟩
    obtain ⟨-, row, column, -, -⟩ := Position.moveBy?_eq_some_iff.mp found
    refine ⟨found, ?_, ?_⟩ <;> simp only [fromAnchor, Zone.rows, Zone.columns, topLeft] at row column ⊢ <;>
      omega
  · rintro ⟨found, bottom, right⟩
    obtain ⟨-, row, column, -, -⟩ := Position.moveBy?_eq_some_iff.mp found
    refine ⟨_, found, eq_of_same rfl rfl rfl ?_ ?_⟩ <;>
      simp only [fromAnchor, Zone.rows, Zone.columns, topLeft] at row column ⊢ <;> omega

/-- A zone is moved within the numbering to the one that lists the moved positions. -/
theorem map_moveBy?_positions (found : z.moveBy? rows columns = some moved)
    (last : (z.bottom : Int) + rows < indexBound ∧ (z.right : Int) + columns < indexBound) :
    z.positions.map (·.moveBy? rows columns) = moved.positions.map some := by
  obtain ⟨corner, bottom, right⟩ := moveBy?_eq_some_iff.mp found
  obtain ⟨sheet, top, left, -, -⟩ := Position.moveBy?_eq_some_iff.mp corner
  dsimp only [topLeft] at sheet top left
  have high : moved.rows = z.rows := by
    unfold Zone.rows
    omega
  have wide : moved.columns = z.columns := by
    unfold Zone.columns
    omega
  rw [positions_eq, positions_eq, List.map_flatMap, List.map_flatMap, high, wide]
  refine List.flatMap_congr fun row inRows => ?_
  rw [List.map_map, List.map_map]
  refine List.map_congr_left fun column inColumns => ?_
  rw [List.mem_range] at inRows inColumns
  have vertical := z.top_le_bottom
  have horizontal := z.left_le_right
  unfold Zone.rows at inRows
  unfold Zone.columns at inColumns
  refine Position.moveBy?_eq_some_iff.mpr ⟨sheet, ?_, ?_, ?_, ?_⟩ <;> dsimp only <;> omega

/-- A zone that lists the moved positions of another one has its borders at that distance. -/
theorem moveBy?_of_positions (same : z.positions.map (·.moveBy? rows columns) = moved.positions.map some) :
    z.moveBy? rows columns = some moved ∧
      (z.bottom : Int) + rows < indexBound ∧ (z.right : Int) + columns < indexBound := by
  have images : ∀ target, (∃ p, z.contains p = true ∧ p.moveBy? rows columns = target) ↔
      ∃ q, moved.contains q = true ∧ some q = target := by
    intro target
    simpa only [List.mem_map, mem_positions] using iff_of_eq (congrArg (target ∈ ·) same)
  -- The corners of each zone go to, or come from, positions within the borders of the other one.
  obtain ⟨first, firstInside, firstMoved⟩ := (images _).mp ⟨_, z.contains_topLeft, rfl⟩
  obtain ⟨last, lastInside, lastMoved⟩ := (images _).mp ⟨_, z.contains_bottomRight, rfl⟩
  obtain ⟨origin, originInside, originMoved⟩ := (images _).mpr ⟨_, moved.contains_topLeft, rfl⟩
  obtain ⟨source, sourceInside, sourceMoved⟩ := (images _).mpr ⟨_, moved.contains_bottomRight, rfl⟩
  rw [contains_iff] at firstInside lastInside originInside sourceInside
  rw [eq_comm, Position.moveBy?_eq_some_iff] at firstMoved lastMoved
  rw [Position.moveBy?_eq_some_iff] at originMoved sourceMoved
  dsimp only [topLeft, bottomRight] at firstMoved lastMoved originMoved sourceMoved
  have corner : z.topLeft.moveBy? rows columns = some moved.topLeft := by
    refine Position.moveBy?_eq_some_iff.mpr ⟨originMoved.1.trans originInside.1, ?_, ?_, ?_, ?_⟩ <;>
      dsimp only [topLeft] <;> omega
  refine ⟨moveBy?_eq_some_iff.mpr ⟨corner, ?_, ?_⟩, ?_, ?_⟩ <;> omega

/-- A zone is the set of the positions between its corners, in whatever order these are given. It lists
them row by row, each once, as many as its rows have columns. Two zones meet exactly if they have a
position in common, one lies within another exactly if all of its positions do, and a zone is of one
position exactly if it holds only one. A position is moved to the one at the distance asked for, and a zone,
as long as it stays within the numbering, to the one that lists its positions moved. -/
theorem faithful_to_positions :
    (∀ (sheet : SheetId) (row column otherRow otherColumn : Nat) (p : Position),
      (span sheet row column otherRow otherColumn).contains p = true ↔
        p.sheet = sheet ∧ p.row ∈ Set.uIcc row otherRow ∧ p.column ∈ Set.uIcc column otherColumn) ∧
    (∀ z : Zone, (∀ p, p ∈ z.positions ↔ z.contains p = true) ∧ z.positions.Nodup ∧
      z.positions.Pairwise Position.Precedes ∧ z.positions.length = z.rows * z.columns ∧
        (z.isSingle = true ↔ ∃! p, z.contains p = true)) ∧
    (∀ y z : Zone, (y.intersects z = true ↔ ∃ p, y.contains p = true ∧ z.contains p = true) ∧
      (y.containsZone z = true ↔ ∀ p, z.contains p = true → y.contains p = true)) ∧
    (∀ (p q : Position) (rows columns : Int), p.moveBy? rows columns = some q ↔
      q.sheet = p.sheet ∧ (q.row : Int) = p.row + rows ∧ (q.column : Int) = p.column + columns ∧
        q.row < indexBound ∧ q.column < indexBound) ∧
    ∀ (z moved : Zone) (rows columns : Int),
      z.moveBy? rows columns = some moved ∧
          (z.bottom : Int) + rows < indexBound ∧ (z.right : Int) + columns < indexBound ↔
        z.positions.map (·.moveBy? rows columns) = moved.positions.map some := by
  refine ⟨fun _ _ _ _ _ _ => contains_span, fun z => ?_, fun y z => ?_,
    fun _ _ _ _ => Position.moveBy?_eq_some_iff, fun z moved rows columns => ?_⟩
  · exact ⟨fun _ => mem_positions, z.nodup_positions, z.pairwise_positions, z.length_positions,
      isSingle_iff⟩
  · exact ⟨intersects_iff, containsZone_iff_contains⟩
  · exact ⟨fun ⟨found, last⟩ => map_moveBy?_positions found last, moveBy?_of_positions⟩

end Zone

end Spreadsheet
