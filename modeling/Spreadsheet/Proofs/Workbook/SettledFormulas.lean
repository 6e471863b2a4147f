import Spreadsheet.Proofs.Workbook.Arrays
import Spreadsheet.Proofs.Workbook.SingleResults

/-!
# Settled formulas

A formula is settled if it has published what it comes to: a single value, the array it has spilled,
or the error of an array that really has no room. It stays settled as long as nothing disturbs what
it reads, its own result and array, and what is in the way of the array.
-/
namespace Spreadsheet

namespace Spills

variable {s t : Spills} {p q a : Position}

/-- The zone of an anchor is that of its state. -/
theorem activeZone?_congr (state : t.state? a = s.state? a) : t.activeZone? a = s.activeZone? a := by
  unfold activeZone?
  rw [state]

end Spills

/-- With the same sources formulas read the same. -/
theorem SameSources.reads_iff {w w' : Workbook} {p q : Position} (same : SameSources w w') :
    w'.Reads p q ↔ w.Reads p q := by
  unfold Workbook.Reads
  rw [same.dependencies]

namespace Workbook

variable {w w' w'' : Workbook} {p q : Position} {zone : Zone}

/-- Something is in the way of an array: the zone leaves the sheet, or a position of it other than
the anchor holds content or lies in the zone of another anchor. -/
def Obstructed (w : Workbook) (anchor : Position) (zone : Zone) : Prop :=
  ¬ w.HasRoom zone ∨ ∃ q, zone.contains q = true ∧ q ≠ anchor ∧
    (w.hasContent q = true ∨
      ∃ b other, b ≠ anchor ∧ w.spills.activeZone? b = some other ∧ other.contains q = true)

/-- A formula has published an outcome. A single value is its result, and it has no array. An array
is spilled with its values and formats, or it is blocked with an error and something is in its
way. -/
def Published (w : Workbook) (p : Position) : Outcome → Prop
  | .single value format =>
    w.spills.state? p = none ∧ w.result? p = some (.single value format)
  | .array values formats =>
    let zone := Zone.fromAnchor p values.extent.1 values.extent.2
    (w.spills.state? p = some (.spilled zone values formats) ∧
      w.result? p = some (.single (.array values) formats.first?.join)) ∨
    (w.spills.state? p = some (.blocked zone) ∧ w.Obstructed p zone ∧
      ∃ collision, w.result? p =
        some (.failure (.ofCollision collision values.extent.1 values.extent.2)))

/-- A formula has published what it comes to as things stand. -/
def Settled (w : Workbook) (p : Position) : Prop := w.Published p (w.compute p).outcome

/-- What a formula publishes is the same as before, values compared as values, only if it is the very
one it was before: no zero has changed its sign. -/
def SignsKept (w w' : Workbook) (p : Position) : Prop :=
  w.SameResult w' p → Round.sameState (w'.spills.state? p) (w.spills.state? p) = true →
    w'.result? p = w.result? p ∧ w'.spills.state? p = w.spills.state? p

/-- Between two workbooks nothing about a formula has changed: what it reads, what it comes to, its
result, its array, and that something is in the way of an array on its sheet. -/
structure Undisturbed (w w' : Workbook) (p : Position) : Prop where
  reads : ∀ q, w'.Reads p q ↔ w.Reads p q
  compute : w'.compute p = w.compute p
  result : w'.result? p = w.result? p
  state : w'.spills.state? p = w.spills.state? p
  obstructed : ∀ zone, zone.sheet = p.sheet → w.spills.state? p = some (.blocked zone) →
    w.Obstructed p zone → w'.Obstructed p zone

namespace Undisturbed

/-- Nothing changes between a workbook and itself. -/
theorem refl (w : Workbook) (p : Position) : Undisturbed w w p :=
  ⟨fun _ => .rfl, rfl, rfl, rfl, fun _ _ _ => id⟩

/-- What two steps do not disturb is undisturbed. -/
theorem trans (first : Undisturbed w w' p) (second : Undisturbed w' w'' p) :
    Undisturbed w w'' p where
  reads q := (second.reads q).trans (first.reads q)
  compute := second.compute.trans first.compute
  result := second.result.trans first.result
  state := second.state.trans first.state
  obstructed zone here blocked held :=
    second.obstructed zone here (first.state.trans blocked) (first.obstructed zone here blocked held)

/-- A formula that is not disturbed is a formula before and after. -/
theorem isFormula (still : Undisturbed w w' p) : w'.isFormula p = w.isFormula p := by
  have results := congrArg Option.isSome still.result
  simpa [Workbook.result?, Workbook.isFormula] using results

/-- A formula that is not disturbed has still published what it had. -/
theorem published (still : Undisturbed w w' p) {outcome : Outcome}
    (published : w.Published p outcome) : w'.Published p outcome := by
  cases outcome with
  | single value format => exact ⟨still.state.trans published.1, still.result.trans published.2⟩
  | array values formats =>
    rcases published with ⟨spilled, result⟩ | ⟨blocked, held, collision, result⟩
    · exact .inl ⟨still.state.trans spilled, still.result.trans result⟩
    · exact .inr ⟨still.state.trans blocked, still.obstructed _ rfl blocked held, collision,
        still.result.trans result⟩

/-- A formula that is not disturbed stays settled. -/
theorem settled (still : Undisturbed w w' p) (settled : w.Settled p) : w'.Settled p := by
  unfold Settled at settled ⊢
  rw [still.compute]
  exact still.published settled

end Undisturbed

/-- A zone has room where the extent of its sheet is the same. -/
theorem hasRoom_congr (extent : w'.extent? zone.sheet = w.extent? zone.sheet) :
    w'.HasRoom zone ↔ w.HasRoom zone := by
  unfold HasRoom
  rw [extent]

/-- What is in the way of an array still is, if sheets and contents stay and no zone that meets the
array is given up. -/
theorem Obstructed.mono {anchor : Position} (held : w.Obstructed anchor zone)
    (extent : w'.extent? zone.sheet = w.extent? zone.sheet)
    (content : ∀ q, zone.contains q = true → w.hasContent q = true → w'.hasContent q = true)
    (active : ∀ b other q, b ≠ anchor → w.spills.activeZone? b = some other →
      other.contains q = true → zone.contains q = true →
        ∃ other', w'.spills.activeZone? b = some other' ∧ other'.contains q = true) :
    w'.Obstructed anchor zone := by
  rcases held with outside | ⟨q, inside, different, filled | ⟨b, other, foreign, claimed, within⟩⟩
  · exact .inl fun room => outside ((hasRoom_congr extent).mp room)
  · exact .inr ⟨q, inside, different, .inl (content q inside filled)⟩
  · obtain ⟨other', claimed', within'⟩ := active b other q foreign claimed within inside
    exact .inr ⟨q, inside, different, .inr ⟨b, other', foreign, claimed', within'⟩⟩

/-- Dependencies are up to date, and the numbers and names of sheets lead to each other. -/
structure Grounded (w : Workbook) : Prop where
  current : w.UpToDate
  registered : w.Registered

/-- The same sources have the same ground. -/
theorem Grounded.of_sources (grounded : w.Grounded) (same : SameSources w w') : w'.Grounded :=
  ⟨grounded.current.of_sameSources same, grounded.registered.congr same.toSameSheets⟩

/-- A position shows the same value if its content stays and the arrays show the same there. -/
theorem value_of_showSame (content : w'.content q = w.content q)
    (shown : w.spills.ShowSame w'.spills q) : w'.value q = w.value q := by
  rw [value_eq, value_eq, content, shown.value]

/-- A position shows the same format if its content and the chosen format stay and the arrays show
the same there. -/
theorem format_of_showSame (content : w'.content q = w.content q) (chosen : w'.chosen q = w.chosen q)
    (shown : w.spills.ShowSame w'.spills q) : w'.format q = w.format q := by
  rw [format_eq, format_eq, chosen, content, shown.format, shown.active]

/-- With the same sources a formula comes to the same if the positions it reads keep their results
and the arrays show the same there. -/
theorem compute_of_showSame (grounded : w.Grounded) (same : SameSources w w')
    (results : ∀ q, w.Reads p q → w'.result? q = w.result? q)
    (shown : ∀ q, w.Reads p q → w.spills.ShowSame w'.spills q) : w'.compute p = w.compute p := by
  refine compute_congr grounded.current grounded.registered same.toSameSheets ?_
    (fun q reads => ?_) fun q reads => ?_
  · have cleared := congrArg (Option.map Formula.tree) (same.formula? p)
    simpa [Option.map_map, Function.comp_def, Formula.cleared] using cleared
  · exact value_of_showSame (content_eq_of_result? same (results q reads)) (shown q reads)
  · exact format_of_showSame (content_eq_of_result? same (results q reads)) (same.chosen q)
      (shown q reads)

/-- With the same sources a formula is undisturbed if it and the positions it reads keep their
results and arrays, and no zone that meets its own blocked array is given up. -/
theorem undisturbed_of_showSame (grounded : w.Grounded) (same : SameSources w w')
    (result : w'.result? p = w.result? p)
    (state : w'.spills.state? p = w.spills.state? p)
    (results : ∀ q, w.Reads p q → w'.result? q = w.result? q)
    (shown : ∀ q, w.Reads p q → w.spills.ShowSame w'.spills q)
    (active : ∀ zone b other q, w.spills.state? p = some (.blocked zone) → b ≠ p →
      w.spills.activeZone? b = some other → other.contains q = true → zone.contains q = true →
        ∃ other', w'.spills.activeZone? b = some other' ∧ other'.contains q = true) :
    Undisturbed w w' p where
  reads q := same.reads_iff
  compute := compute_of_showSame grounded same results shown
  result := result
  state := state
  obstructed zone _ blocked held :=
    held.mono (same.extent _) (fun q _ filled => by rw [same.hasContent, filled])
      fun b other q foreign claimed within inside =>
        active zone b other q blocked foreign claimed within inside

end Workbook

end Spreadsheet
