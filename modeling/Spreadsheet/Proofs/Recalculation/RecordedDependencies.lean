import Mathlib.Data.List.Induction
import Spreadsheet.Formula.Expr
import Spreadsheet.Proofs.Recalculation.Dependencies

/-!
# Dependencies along updates

Dependencies are recorded for one formula at a time, removed for one formula at a time, or cleared.
However often that happens, what a formula reads is what the last update that concerned it left, and
the readers of a position are found from these lists alone.
-/
namespace Spreadsheet

namespace Dependencies

/-- One update of what formulas read. A reference that is not resolved is not recorded. -/
inductive Update where
  | record (reader : Position) (e : Expr) (resolve : Reference → Option Zone)
  | remove (reader : Position)
  | clear

namespace Update

/-- Perform an update. -/
def perform (d : Dependencies) : Update → Dependencies
  | record reader e resolve => d.record reader (e.references.filterMap resolve)
  | remove reader => d.remove reader
  | clear => .empty

/-- The zones that an update leaves to a formula, if it concerns the formula. -/
def zonesLeft? (p : Position) : Update → Option (List Zone)
  | record reader e resolve =>
    if reader = p then some (sortedZones (e.references.filterMap resolve)) else none
  | remove reader => if reader = p then some [] else none
  | clear => some []

end Update

/-- The dependencies after updates, nothing being recorded at the start. -/
def updated (updates : List Update) : Dependencies := updates.foldl Update.perform .empty

/-- The zones that the last update that concerns a formula leaves to it. -/
def zonesLeft (updates : List Update) (p : Position) : List Zone :=
  (updates.reverse.findSome? (·.zonesLeft? p)).getD []

/-- One more update. -/
theorem updated_concat (updates : List Update) (u : Update) :
    updated (updates ++ [u]) = u.perform (updated updates) := by
  simp [updated]

/-- The last of several updates decides for the formulas that it concerns. -/
theorem zonesLeft_concat (updates : List Update) (u : Update) (p : Position) :
    zonesLeft (updates ++ [u]) p = (u.zonesLeft? p).getD (zonesLeft updates p) := by
  unfold zonesLeft
  rw [List.reverse_append, List.reverse_singleton, List.singleton_append, List.findSome?_cons]
  cases u.zonesLeft? p with
  | none => rfl
  | some zones => rfl

namespace Update

variable {d : Dependencies}

/-- An update keeps the indexes right. -/
theorem indexed_perform (indexed : d.Indexed) (u : Update) : (u.perform d).Indexed := by
  cases u with
  | record reader e resolve => exact indexed.record reader _
  | remove reader => exact indexed.remove reader
  | clear => exact indexed_empty

/-- An update decides what the formulas read that it concerns; the others read what they did. -/
theorem zonesOf_perform (d : Dependencies) (u : Update) (p : Position) :
    (u.perform d).zonesOf p = (u.zonesLeft? p).getD (d.zonesOf p) := by
  cases u with
  | record reader e resolve =>
    simp only [perform, zonesLeft?, zonesOf_record, eq_comm (a := p)]
    split <;> rfl
  | remove reader =>
    simp only [perform, zonesLeft?, zonesOf_remove, eq_comm (a := p)]
    split <;> rfl
  | clear => simp [perform, zonesLeft?, zonesOf, empty]

end Update

/-- Updates keep the indexes right. -/
theorem indexed_updated (updates : List Update) : (updated updates).Indexed :=
  List.foldlRecOn updates _ (motive := Indexed) indexed_empty fun _ indexed u _ =>
    u.indexed_perform indexed

/-- What a formula reads after updates is what the last one that concerned it left. -/
theorem zonesOf_updated (updates : List Update) (p : Position) :
    (updated updates).zonesOf p = zonesLeft updates p := by
  induction updates using List.reverseRecOn with
  | nil => simp [updated, zonesLeft, zonesOf, empty]
  | append_singleton updates u ih =>
    rw [updated_concat, u.zonesOf_perform, zonesLeft_concat, ih]

/-- The readers of a position come in ascending order, each once. -/
theorem pairwise_readersOf (d : Dependencies) (q : Position) :
    (d.readersOf q).Pairwise fun p p' => compare p p' = .lt := by
  unfold readersOf sortedPositions
  exact Std.ExtTreeSet.ordered_toList

/-- After any updates the readers of a position are, in ascending order and each once, the formulas
that read a zone around it, and what a formula reads was left to it by the last update that concerned
it, whatever other formulas were recorded or removed since. -/
theorem readersOf_updated (updates : List Update) :
    (∀ q, ((updated updates).readersOf q).Pairwise (fun p p' => compare p p' = .lt) ∧
      ∀ p, p ∈ (updated updates).readersOf q ↔
        ∃ zone ∈ (updated updates).zonesOf p, zone.contains q = true) ∧
      ∀ p, (updated updates).zonesOf p = zonesLeft updates p :=
  ⟨fun q => ⟨pairwise_readersOf _ q, fun _ => (indexed_updated updates).mem_readersOf⟩,
    zonesOf_updated updates⟩

end Dependencies

end Spreadsheet
