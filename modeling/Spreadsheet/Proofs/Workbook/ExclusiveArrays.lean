import Spreadsheet.Proofs.Workbook.CitedRuns
import Spreadsheet.Proofs.Workbook.RequestedArrays
import Spreadsheet.Proofs.Workbook.ShapedRequests

/-!
# Exclusive arrays along runs

Every position that leads to an anchor lies in the zone of that anchor and of no other, and a zone
shows the entries of its array, as long as functions keep values rectangular.
-/
namespace Spreadsheet

namespace Workbook

variable {w : Workbook}

/-- The workbooks that requests and new functions can lead to, as long as functions keep values
rectangular. Cells that are pasted on request were copied from such a workbook. -/
inductive Reachable : Workbook → Prop where
  | new (settings : Settings) (functions : FunctionTable)
    (keeps : ∀ f ∈ functions.functions, f.KeepsRectangular) :
    Reachable (Workbook.new settings functions)
  | register {w : Workbook} (reached : Reachable w) (f : Function) (keeps : f.KeepsRectangular) :
    Reachable { w with functions := w.functions.register f }
  | after {w : Workbook} (reached : Reachable w) (request : Request)
    (own : ∀ clip targets mode, request ≠ .pasteCells clip targets mode) :
    Reachable (w.after request)
  | pasteCells {w source : Workbook} {zones : List Zone} {clip : Clip} (reached : Reachable w)
    (from' : Reachable source) (copied : source.copyCells zones = .ok clip)
    (few : source.registry.names.length ≤ sheetIdBound) (targets : List Zone) (mode : PasteMode) :
    Reachable (w.after (.pasteCells clip targets mode))

/-- A workbook that is reached is at rest and shaped if no more sheets were added than there are
numbers. -/
theorem Reachable.atRest (reached : w.Reachable)
    (few : w.registry.names.length ≤ sheetIdBound) : w.AtRest ∧ w.Shaped := by
  induction reached with
  | new settings functions keeps => exact ⟨atRest_new settings functions, shaped_new settings keeps⟩
  | register _ f keeps ih =>
    obtain ⟨rest, shaped⟩ := ih few
    have arranged := rest.arranged
    refine ⟨⟨⟨arranged.exclusive, arranged.formula, arranged.room⟩, rest.numbered⟩,
      shaped.content, shaped.states, fun g listed => ?_, shaped.clipboard⟩
    rcases List.mem_cons.mp listed with rfl | old
    · exact keeps
    · exact shaped.functions g (List.mem_filter.mp old).1
  | @after w _ request own ih =>
    obtain ⟨rest, shaped⟩ := ih ((w.names_le_after request).trans few)
    refine ⟨rest.after few, shaped.after ?_⟩
    cases request with
    | pasteCells clip targets mode => exact absurd rfl (own clip targets mode)
    | _ => trivial
  | @pasteCells w source zones clip _ _ copied few' targets mode ih from' =>
    obtain ⟨rest, shaped⟩ := ih ((w.names_le_after _).trans few)
    exact ⟨rest.after few, shaped.after ((from' few').2.rectangular_copyCells copied)⟩

/-- What spilled arrays owe each other and the cells. -/
structure SpillsExclusive (w : Workbook) : Prop where
  owner_iff : ∀ q a, w.spills.owner? q = some a ↔
    ∃ zone values formats, w.spills.state? a = some (.spilled zone values formats) ∧
      zone.contains q = true
  disjoint : ∀ a b zone other q, w.spills.activeZone? a = some zone →
    w.spills.activeZone? b = some other → zone.contains q = true → other.contains q = true → a = b
  formula : ∀ a, (w.spills.state? a).isSome = true → w.isFormula a = true
  starts : ∀ a zone, w.spills.activeZone? a = some zone → zone.topLeft = a
  room : ∀ a zone, w.spills.activeZone? a = some zone →
    ∃ s, w.sheet? a.sheet = some s ∧ s.hasRoomFor zone = true
  alone : ∀ a zone q, w.spills.activeZone? a = some zone → zone.contains q = true → q ≠ a →
    w.hasContent q = false
  sized : ∀ a zone values formats, w.spills.state? a = some (.spilled zone values formats) →
    values.Sized zone.rows zone.columns ∧ formats.Sized zone.rows zone.columns
  shown : ∀ a zone values formats q, w.spills.state? a = some (.spilled zone values formats) →
    zone.contains q = true →
      values.at? (q.row - zone.top) (q.column - zone.left) = some (w.value q)

/-- At rest spilled arrays that are rectangular are exclusive. -/
theorem AtRest.spillsExclusive (rest : w.AtRest) (shaped : w.Shaped) : w.SpillsExclusive := by
  have arranged := rest.arranged
  have sound := arranged.exclusive.toSound
  have owner : ∀ {a zone q}, w.spills.activeZone? a = some zone → zone.contains q = true →
      w.spills.owner? q = some a := fun active inside => arranged.exclusive.owner?_eq id active inside
  have clear : ∀ a zone q, w.spills.activeZone? a = some zone → zone.contains q = true → q ≠ a →
      w.hasContent q = false := fun a zone q active inside other => by
    rw [← Bool.not_eq_true]
    exact arranged.exclusive.clear a zone q active inside other
  have sized : ∀ a zone values formats,
      w.spills.state? a = some (.spilled zone values formats) →
        values.Sized zone.rows zone.columns ∧ formats.Sized zone.rows zone.columns := by
    intro a zone values formats found
    cases shaped.states a _ found with
    | spilled sized formatted _ => exact ⟨sized, formatted⟩
  refine ⟨fun q a => ⟨fun leads => ?_, ?_⟩, ?_, arranged.formula, sound.anchored, ?_, clear, sized,
    ?_⟩
  · obtain ⟨zone, active, inside⟩ := sound.covered q a leads
    obtain ⟨values, formats, found⟩ := Spills.activeZone?_eq_some_iff.mp active
    exact ⟨zone, values, formats, found, inside⟩
  · rintro ⟨zone, values, formats, found, inside⟩
    exact owner (Spills.activeZone?_eq_some_iff.mpr ⟨values, formats, found⟩) inside
  · intro a b zone other q first second inside within
    have leads := owner first inside
    rw [owner second within] at leads
    exact (Option.some.inj leads).symm
  · intro a zone active
    obtain ⟨rows, columns, held, below, beside⟩ := arranged.room a zone active
    rw [sound.sheet_eq active] at held
    obtain ⟨s, found, same⟩ := Option.map_eq_some_iff.mp held
    obtain ⟨rfl, rfl⟩ := Prod.mk.inj same
    refine ⟨s, found, ?_⟩
    simp [Sheet.hasRoomFor, Sheet.inBounds, below, beside]
  · intro a zone values formats q found inside
    have active := Spills.activeZone?_eq_some_iff.mpr ⟨values, formats, found⟩
    have starts := sound.anchored a zone active
    obtain ⟨_, above, below, left, right⟩ := Zone.contains_iff.mp inside
    -- The array has an entry at the place of the position in the zone, which is published there.
    obtain ⟨v, entry⟩ := (sized a zone values formats found).1.isSome_at?
      (i := q.row - zone.top) (j := q.column - zone.left)
      (by unfold Zone.rows; omega) (by unfold Zone.columns; omega)
    have shown : w.spills.value? q = some v := by
      unfold Spills.value? Spills.published
      rw [owner active inside]
      simp only [Option.bind_eq_bind, Option.bind_some, found, SpillState.value?]
      rw [← starts]
      exact entry
    rw [entry, value_eq, shown]
    by_cases here : q = a
    · obtain ⟨f, formula⟩ := Option.isSome_iff_exists.mp (arranged.isFormula_of_active active)
      rw [here, content_of_formula? formula]
    · have blank := clear a zone q active inside here
      rw [hasContent_eq, Bool.not_eq_false'] at blank
      cases typed : w.content q with
      | empty => rfl
      | literal typed v => simp [typed, Content.isEmpty] at blank
      | formula f => simp [typed, Content.isEmpty] at blank

/-- In every workbook that is reached with no more sheets than there are numbers, a position leads to
an anchor exactly if it lies in the zone the anchor has claimed, zones are those of formulas, lie on
their sheets and hold no other content, and each position of a zone shows its entry of the array. -/
theorem spillsExclusive_of_reachable (reached : w.Reachable)
    (few : w.registry.names.length ≤ sheetIdBound) : w.SpillsExclusive :=
  (reached.atRest few).1.spillsExclusive (reached.atRest few).2

/-- Arrays are exclusive once a row of two numbers has been typed into a new workbook. The row is
spilled then, and the second number is shown beside the first. -/
theorem spillsExclusive_of_typed_row :
    let w := (new Settings.standard FunctionTable.empty).after
      (.setContent 0 0 0 "=\x7b1,2\x7d")
    w.SpillsExclusive ∧
      w.spills.activeZone? ⟨0, 0, 0⟩ = some (.fromAnchor ⟨0, 0, 0⟩ 1 2) ∧
      (w.value ⟨0, 0, 1⟩).display = "2" := by
  intro w
  have start : (new Settings.standard FunctionTable.empty).Reachable :=
    .new _ _ fun f none => by contradiction
  have typed : w = ((new Settings.standard FunctionTable.empty).replaceContent ⟨0, 0, 0⟩
      (.ofText "=\x7b1,2\x7d")).inTurn [⟨0, 0, 0⟩] := ChainSettles.after (by decide +kernel)
  have few : w.registry.names.length ≤ sheetIdBound := by
    rw [typed]
    decide +kernel
  refine ⟨spillsExclusive_of_reachable (start.after _ fun _ _ _ same => by contradiction) few, ?_⟩
  rw [typed]
  exact ⟨by decide +kernel, by decide +kernel⟩

end Workbook

end Spreadsheet
