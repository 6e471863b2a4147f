import Spreadsheet.Proofs.Workbook.EditedContents
import Spreadsheet.Proofs.Workbook.PreparedArrays
import Spreadsheet.Proofs.Workbook.SettledRecalculations

/-!
# Who is alerted by a change

A change of a workbook alerts every formula that it disturbs: the formula is marked, or it reads a
position that is marked as changed. Typing, deleting and formatting do so position by position.
-/
namespace Spreadsheet

namespace Workbook

variable {w w' w'' : Workbook} {p q : Position}

/-- A formula is marked to be evaluated, or it reads a position that is marked as changed. -/
def Alerted (w : Workbook) (p : Position) : Prop := p ∈ w.dirty ∨ ∃ q ∈ w.changed, w.Reads p q

/-- The formulas that are due are those that are alerted. -/
theorem UpToDate.mem_due_iff (current : w.UpToDate) :
    p ∈ w.due ↔ w.Alerted p ∧ w.isFormula p = true := by
  simp only [mem_due, Alerted, current.mem_readersOf]

/-- From one workbook to another every formula that was alerted is alerted, and so is every formula
that has been disturbed. -/
structure Alerts (w w' : Workbook) : Prop where
  alerted : ∀ p, w'.isFormula p = true → w.Alerted p → w'.Alerted p
  others : ∀ p, w'.isFormula p = true → w'.Alerted p ∨ Undisturbed w w' p

namespace Alerts

/-- Where nothing changes nobody has to be alerted. -/
theorem refl (w : Workbook) : Alerts w w := ⟨fun _ _ => id, fun p _ => .inr (.refl w p)⟩

/-- Two changes that alert whom they disturb do so together. -/
theorem trans (first : Alerts w w') (second : Alerts w' w'') : Alerts w w'' where
  alerted p formula alerted := by
    rcases second.others p formula with now | still
    · exact now
    · rw [still.isFormula] at formula
      exact second.alerted p (still.isFormula.trans formula) (first.alerted p formula alerted)
  others p formula := by
    rcases second.others p formula with now | still
    · exact .inl now
    · have formula' := still.isFormula.symm.trans formula
      exact (first.others p formula').imp (second.alerted p formula) fun before =>
        before.trans still

end Alerts

/-- Formulas stay watched when whoever is disturbed is alerted. -/
theorem Watched.of_alerts (watched : w.Watched) (current : w.UpToDate) (current' : w'.UpToDate)
    (alerts : Alerts w w') : w'.Watched := by
  intro p formula
  rw [current'.mem_due_iff]
  rcases alerts.others p formula with alerted | still
  · exact .inl ⟨alerted, formula⟩
  · rcases watched p (still.isFormula.symm.trans formula) with due | own | settled
    · exact .inl ⟨alerts.alerted p formula (current.mem_due_iff.mp due).1, formula⟩
    · exact .inr (.inl ((still.reads p).mpr own))
    · exact .inr (.inr (still.settled settled))

/-- Marks disturb nothing. -/
theorem alerts_markDirty (w : Workbook) (positions : List Position) :
    Alerts w (w.markDirty positions) where
  alerted _ _ alerted := alerted.imp (fun dirty => PositionSet.mem_insertMany.mpr (.inl dirty)) id
  others _ _ := .inr ⟨fun _ => .rfl, rfl, rfl, rfl, fun _ _ _ => id⟩

/-! ### Contents -/

/-- A blocked anchor that is not marked when content is replaced is blocked around neither the position
nor the zone that is given up. -/
theorem apart_of_blocked {content : Content} {zone : Zone} {u : Position} (other : q ≠ p)
    (blocked : w.spills.state? q = some (.blocked zone)) (inside : zone.contains u = true)
    (clean : q ∉ (w.replaceContent p content).dirty) :
    u ≠ p ∧ ∀ given, w.spills.activeZone? p = some given → given.contains u = false := by
  have around : q ∈ (w.spills.release p).blockedAround u := by
    refine Spills.mem_blockedAround.mpr ⟨zone, ?_, inside⟩
    rw [Spills.state?_release, if_neg other, blocked]
  have apart : u ≠ p := fun same =>
    clean (mem_dirty_replaceContent.mpr (.inr ⟨other, .inr (.inr (same ▸ around))⟩))
  refine ⟨apart, fun given active => Bool.eq_false_iff.mpr fun within => clean ?_⟩
  exact mem_dirty_replaceContent.mpr (.inr ⟨other, .inl (mem_dirty_releaseArray.mpr
    (.inr ⟨other, given, active, u, within, apart, around⟩))⟩)

/-- Replacing content alerts the formula that is typed, the readers of its cell and of the zone that
is given up, the anchor whose zone it enters and the anchors blocked around. -/
theorem alerts_replaceContent (grounded : w.Grounded) (sound : w.spills.Sound)
    (exist : (w.sheet? p.sheet).isSome = true) (content : Content) :
    Alerts w (w.replaceContent p content) := by
  have typed : ∀ q, (w.replaceContent p content).isFormula q = true → q = p →
      q ∈ (w.replaceContent p content).dirty := by
    rintro q formula rfl
    rw [isFormula, formula?_eq, content_replaceContent, if_pos ⟨rfl, exist⟩,
      Content.isSome_formula?_entered] at formula
    exact mem_dirty_replaceContent.mpr (.inl ⟨rfl, formula⟩)
  have elsewhere : ∀ q, q ≠ p → (w.replaceContent p content).content q = w.content q :=
    fun q other => by rw [content_replaceContent, if_neg fun both => other both.1]
  have reads : ∀ q u, q ≠ p → ((w.replaceContent p content).Reads q u ↔ w.Reads q u) := by
    intro q u other
    unfold Reads
    rw [zonesOf_replaceContent, if_neg other]
  refine ⟨fun q formula alerted => ?_, fun q formula => ?_⟩
  · by_cases here : q = p
    · exact .inl (typed q formula here)
    · rcases alerted with dirty | ⟨u, changed, reader⟩
      · exact .inl (mem_dirty_replaceContent.mpr
          (.inr ⟨here, .inl (mem_dirty_releaseArray.mpr (.inl dirty))⟩))
      · exact .inr ⟨u, mem_changed_replaceContent.mpr
          (.inl (mem_changed_releaseArray.mpr (.inl changed))), (reads q u here).mpr reader⟩
  · by_cases here : q = p
    · exact .inl (.inl (typed q formula here))
    refine or_iff_not_imp_left.mpr fun quiet => ?_
    obtain ⟨clean, unread⟩ := not_or.mp quiet
    have state : (w.replaceContent p content).spills.state? q = w.spills.state? q := by
      rw [spills_replaceContent, Spills.state?_release, if_neg here]
    -- What the formula reads is neither the cell nor a position of the zone that is given up.
    have apart : ∀ u, w.Reads q u → u ≠ p ∧
        ∀ zone, w.spills.activeZone? p = some zone → zone.contains u = false := by
      intro u reader
      have unchanged : u ∉ (w.replaceContent p content).changed := fun changed =>
        unread ⟨u, changed, (reads q u here).mpr reader⟩
      rw [mem_changed_replaceContent, mem_changed_releaseArray] at unchanged
      push Not at unchanged
      refine ⟨unchanged.2, fun zone active => Bool.eq_false_iff.mpr fun inside => ?_⟩
      exact unchanged.1.2 unchanged.2 zone active inside
    have shown : ∀ u, w.Reads q u → w.spills.ShowSame (w.replaceContent p content).spills u :=
      fun u reader => by
        rw [spills_replaceContent]
        exact sound.showSame_release (apart u reader).2
    -- A blocked array that holds the cell, or a position of the zone that is given up, is woken.
    have awake : ∀ zone u, w.spills.state? q = some (.blocked zone) → zone.contains u = true →
        u ≠ p ∧ ∀ given, w.spills.activeZone? p = some given → given.contains u = false :=
      fun zone u blocked inside => apart_of_blocked here blocked inside clean
    refine ⟨fun u => reads q u here, ?_, ?_, state, fun zone _ blocked held => ?_⟩
    · refine compute_congr grounded.current grounded.registered (sameSheets_replaceContent ..) ?_
        (fun u reader => ?_) fun u reader => ?_
      · rw [formula?_eq, formula?_eq, elsewhere q here]
      · exact value_of_showSame (elsewhere u (apart u reader).1) (shown u reader)
      · exact format_of_showSame (elsewhere u (apart u reader).1) (chosen_replaceContent ..)
          (shown u reader)
    · unfold result?
      rw [formula?_eq, formula?_eq, elsewhere q here]
    · refine held.mono ((sameSheets_replaceContent ..).extent _) (fun u inside filled => ?_)
        fun b other u foreign claimed within inside => ?_
      · rw [hasContent_eq, elsewhere u (awake zone u blocked inside).1, ← hasContent_eq, filled]
      · have kept : b ≠ p := by
          rintro rfl
          rw [(awake zone u blocked inside).2 other claimed] at within
          contradiction
        refine ⟨other, ?_, within⟩
        rw [spills_replaceContent, Spills.activeZone?_release, if_neg kept, claimed]

/-- Replacing content keeps the ground of a workbook. -/
theorem Grounded.replaceContent (grounded : w.Grounded) (exist : (w.sheet? p.sheet).isSome = true)
    (content : Content) : (w.replaceContent p content).Grounded :=
  ⟨grounded.current.replaceContent p content exist,
    grounded.registered.congr (sameSheets_replaceContent w p content)⟩

/-- Deleting content alerts whom it disturbs. -/
theorem alerts_emptied (grounded : w.Grounded) (ready : w.Ready) (positions : List Position) :
    Alerts w (w.emptied positions) := by
  have run : (w.emptied positions).Grounded ∧ (w.emptied positions).Ready ∧
      Alerts w (w.emptied positions) := by
    refine emptied_induction (P := fun w' => w'.Grounded ∧ w'.Ready ∧ Alerts w w')
      ⟨grounded, ready, .refl w⟩ (fun w' p filled kept => ?_) positions
    obtain ⟨grounded, ready, alerts⟩ := kept
    have exist := isSome_sheet?_of_hasContent filled
    exact ⟨grounded.replaceContent exist .empty, ready.replaceContent p .empty,
      alerts.trans (alerts_replaceContent grounded ready.arranged.exclusive.toSound exist .empty)⟩
  exact run.2.2

/-! ### Formats -/

/-- What is marked changed when a format is chosen that a position did not have. -/
theorem mem_changed_chooseFormat {format : Option String} (other : w.chosen p ≠ format) :
    q ∈ (w.chooseFormat p format).changed ↔ q ∈ w.changed ∨ q = p := by
  have new : w.chooseFormat p format =
      (w.updateCell p fun c => { c with format := format }).markChanged [p] := if_neg other
  rw [new]
  simp only [markChanged, PositionSet.mem_insertMany, List.mem_singleton]
  rfl

/-- Choosing a format alerts the readers of the cell. -/
theorem alerts_chooseFormat (grounded : w.Grounded) (p : Position) (format : Option String) :
    Alerts w (w.chooseFormat p format) := by
  by_cases old : w.chosen p = format
  · rw [show w.chooseFormat p format = w from if_pos old]
    exact .refl w
  have reads : ∀ q u, (w.chooseFormat p format).Reads q u ↔ w.Reads q u := fun q u => by
    unfold Reads
    rw [dependencies_chooseFormat]
  have contents := fun q => content_chooseFormat w p q format
  refine ⟨fun q _ alerted => ?_, fun q _ => or_iff_not_imp_left.mpr fun quiet => ?_⟩
  · rcases alerted with dirty | ⟨u, changed, reader⟩
    · exact .inl (by rwa [dirty_chooseFormat])
    · exact .inr ⟨u, (mem_changed_chooseFormat old).mpr (.inl changed), (reads q u).mpr reader⟩
  · have apart : ∀ u, w.Reads q u → u ≠ p := fun u reader here =>
      quiet (.inr ⟨u, (mem_changed_chooseFormat old).mpr (.inr here), (reads q u).mpr reader⟩)
    refine ⟨reads q, ?_, ?_, by rw [spills_chooseFormat], fun zone _ _ held => ?_⟩
    · refine compute_congr grounded.current grounded.registered (sameSheets_chooseFormat ..) ?_
        (fun u _ => ?_) fun u reader => ?_
      · rw [formula?_eq, formula?_eq, contents]
      · rw [value_eq, value_eq, spills_chooseFormat, contents]
      · rw [format_eq, format_eq, spills_chooseFormat, contents,
          chosen_chooseFormat w format (apart u reader)]
    · unfold result?
      rw [formula?_eq, formula?_eq, contents]
    · refine held.mono ((sameSheets_chooseFormat ..).extent _) (fun u _ filled => ?_)
        fun b other u _ claimed within _ => ⟨other, by rw [spills_chooseFormat, claimed], within⟩
      rw [hasContent_eq, contents, ← hasContent_eq, filled]

/-- Choosing formats alerts whom it disturbs. -/
theorem alerts_formatted (grounded : w.Grounded) (positions : List Position)
    (format : Option String) : Alerts w (w.formatted positions format) := by
  have run : (w.formatted positions format).Grounded ∧ Alerts w (w.formatted positions format) := by
    refine formatted_induction (P := fun w' => w'.Grounded ∧ Alerts w w') ⟨grounded, .refl w⟩
      fun w' p _ kept => ?_
    obtain ⟨grounded, alerts⟩ := kept
    exact ⟨⟨grounded.current.chooseFormat p format,
      grounded.registered.congr (sameSheets_chooseFormat w' p format)⟩,
      alerts.trans (alerts_chooseFormat grounded p format)⟩
  exact run.2

end Workbook

end Spreadsheet
