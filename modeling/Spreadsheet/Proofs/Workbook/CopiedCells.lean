import Spreadsheet.Proofs.Workbook.Requests

/-!
# Copied cells

Zones can be copied or cut if they lie on one sheet. What is copied are their cells, each once, counted
from the first position of the smallest zone around them.
-/
namespace Spreadsheet

namespace Zone

/-- The smallest zone around several ones contains each of them. -/
theorem containsZone_hull (z : Zone) (rest : List Zone) (sheets : ∀ y ∈ rest, y.sheet = z.sheet) :
    ∀ y ∈ z :: rest, (z.hull rest).containsZone y = true := by
  induction rest generalizing z with
  | nil =>
    intro y listed
    rw [List.mem_singleton.mp listed]
    exact z.containsZone_self
  | cons next rest ih =>
    let both : Zone := .span z.sheet (min z.top next.top) (min z.left next.left)
      (max z.bottom next.bottom) (max z.right next.right)
    have around : ∀ y ∈ both :: rest, (z.hull (next :: rest)).containsZone y = true :=
      ih both fun y later => sheets y (List.mem_cons_of_mem _ later)
    have first : both.containsZone z = true := containsZone_iff.mpr
      ⟨rfl, by simp only [both, span]; omega, by simp only [both, span]; omega,
        by simp only [both, span]; omega, by simp only [both, span]; omega⟩
    have second : both.containsZone next = true := containsZone_iff.mpr
      ⟨sheets next List.mem_cons_self, by simp only [both, span]; omega,
        by simp only [both, span]; omega, by simp only [both, span]; omega,
        by simp only [both, span]; omega⟩
    intro y listed
    rcases List.mem_cons.mp listed with rfl | later
    · exact containsZone_trans (around both List.mem_cons_self) first
    · rcases List.mem_cons.mp later with rfl | later
      · exact containsZone_trans (around both List.mem_cons_self) second
      · exact around y (List.mem_cons_of_mem _ later)

end Zone

/-- The smallest zone around copied cells. -/
def Clip.bounds (clip : Clip) : Zone := .fromAnchor clip.origin clip.rows clip.columns

/-- What is copied of zones with the smallest zone around them. -/
def Clip.ofZones (w : Workbook) (bounds : Zone) (zones : List Zone) : Clip where
  origin := bounds.topLeft
  rows := bounds.rows
  columns := bounds.columns
  cells := (distinctPositions (zones.flatMap Zone.positions)).map (w.clipCell bounds)

/-- The smallest zone around what is copied. -/
theorem Clip.bounds_ofZones (w : Workbook) (bounds : Zone) (zones : List Zone) :
    (ofZones w bounds zones).bounds = bounds := bounds.fromAnchor_topLeft

namespace Workbook

variable {w : Workbook} {clip : Clip} {block first : Zone} {zones rest : List Zone}

/-- A sheet has room for a zone that ends within its extent. -/
theorem any_hasRoomFor_of_extent? {z : Zone} {rows columns : Nat}
    (known : w.extent? z.sheet = some (rows, columns)) (below : z.bottom < rows)
    (behind : z.right < columns) : (w.sheet? z.sheet).any (·.hasRoomFor z) = true := by
  obtain ⟨s, found, extent⟩ := Option.map_eq_some_iff.mp known
  obtain ⟨rfl, rfl⟩ := Prod.mk.inj extent
  simp [found, Sheet.hasRoomFor, Sheet.inBounds, below, behind]

/-- Zones pass the check for copying when they lie on one sheet. -/
theorem checkCopied_eq_ok_iff {sheet : SheetId} : w.checkCopied sheet zones = .ok () ↔
    ∀ z ∈ zones, z.sheet = sheet ∧ (w.sheet? z.sheet).any (·.hasRoomFor z) = true := by
  induction zones with
  | nil => exact iff_of_true rfl fun z none => absurd none List.not_mem_nil
  | cons first rest ih =>
    rw [List.forall_mem_cons, ← ih, ← checkZone_eq_ok_iff, checkCopied]
    cases held : w.checkZone first with
    | error e => simp [bind, Except.bind]
    | ok _ =>
      by_cases same : first.sheet = sheet
      · simp [bind, Except.bind, same]
      · simp [bind, Except.bind, same, throw, throwThe, MonadExceptOf.throw]

/-- Zones are copied when they lie on one sheet. -/
theorem copyCells_cons_eq_ok_iff : w.copyCells (first :: rest) = .ok clip ↔
    (∀ z ∈ first :: rest, z.sheet = first.sheet ∧
      (w.sheet? z.sheet).any (·.hasRoomFor z) = true) ∧
      clip = .ofZones w (first.hull rest) (first :: rest) := by
  rw [← checkCopied_eq_ok_iff, copyCells]
  cases passed : w.checkCopied first.sheet (first :: rest) with
  | error e => simp [bind, Except.bind]
  | ok _ =>
    simp only [bind, Except.bind, pure, Except.pure, Except.ok.injEq, true_and]
    exact eq_comm

/-- What is copied are the cells of the zones, which are on a sheet and within the bounds. -/
theorem copyCells_spec (copied : w.copyCells zones = .ok clip) :
    clip = .ofZones w clip.bounds zones ∧ (w.sheet? clip.bounds.sheet).isSome = true ∧
      ∀ z ∈ zones, clip.bounds.containsZone z = true := by
  cases zones with
  | nil => contradiction
  | cons first rest =>
    obtain ⟨held, rfl⟩ := copyCells_cons_eq_ok_iff.mp copied
    have around := first.containsZone_hull rest fun y later =>
      (held y (List.mem_cons_of_mem _ later)).1
    have here : first.sheet = (first.hull rest).sheet :=
      (Zone.containsZone_iff.mp (around first List.mem_cons_self)).1
    rw [Clip.bounds_ofZones]
    refine ⟨rfl, ?_, around⟩
    rw [← here]
    exact Option.isSome_of_any (held first List.mem_cons_self).2

/-- One zone can be copied if it lies on its sheet, and all of its cells are copied, row by row. -/
theorem copyCells_singleton_eq_ok_iff :
    w.copyCells [block] = .ok clip ↔
      (w.sheet? block.sheet).any (·.hasRoomFor block) = true ∧
        clip = ⟨block.topLeft, block.rows, block.columns, block.positions.map (w.clipCell block)⟩ := by
  have all : distinctPositions ([block].flatMap Zone.positions) = block.positions := by
    rw [List.flatMap_singleton, distinctPositions_of_nodup block.nodup_positions]
  rw [copyCells_cons_eq_ok_iff, List.forall_mem_singleton, and_iff_right (rfl : block.sheet = _),
    Clip.ofZones, all]
  rfl

/-- The workbook after zones have been copied. -/
theorem after_copy (copied : w.copyCells zones = .ok clip) :
    w.after (.copy zones) = { w with clipboard := some (.copied clip) } := by
  rw [after_eq, clipped, copied]
  rfl

/-- The workbook after zones have been cut. -/
theorem after_cut (copied : w.copyCells zones = .ok clip) :
    w.after (.cut zones) = { w with clipboard := some (.cut zones) } := by
  rw [after_eq, clipped, copied]
  rfl

end Workbook

end Spreadsheet
