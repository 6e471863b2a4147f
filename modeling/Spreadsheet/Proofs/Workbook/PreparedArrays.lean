import Spreadsheet.Proofs.Workbook.Arrays
import Spreadsheet.Proofs.Workbook.Requests

/-!
# Arrays while a request is prepared

Between recalculations every anchor owns its whole zone, and an anchor in whose zone something was
typed is dirty. Each change that a request makes keeps that: it gives up the array of what it
replaces, marks the anchor whose zone it enters, and forgets the arrays of a sheet before the cells
of the sheet move.
-/
namespace Spreadsheet

namespace Workbook

/-- Every anchor owns its whole zone, and is dirty if there is content in it. -/
structure Ready (w : Workbook) : Prop where
  arranged : w.Arranged (· ∈ w.dirty)
  owned : ∀ a zone q, w.spills.activeZone? a = some zone → zone.contains q = true →
    w.spills.owner? q = some a

namespace Ready

variable {w w' : Workbook} {p : Position}

/-- Where no anchor is exempt everything is ready for a request. -/
theorem of_arranged (arranged : w.Arranged fun _ => False) : w.Ready where
  arranged := arranged.mono fun _ _ never => never.elim
  owned _ _ _ active inside := arranged.exclusive.owner?_eq id active inside

/-- Arrays stay ready where they stay, as long as their anchors stay formulas and their zones stay
on their sheets and without further content, or their anchors are dirty. -/
theorem transfer (ready : w.Ready) (spills : w'.spills = w.spills)
    (formula : ∀ a, (w.spills.state? a).isSome = true → w.isFormula a = true →
      w'.isFormula a = true)
    (room : ∀ a zone, w.spills.activeZone? a = some zone → w.HasRoom zone → w'.HasRoom zone)
    (clear : ∀ a zone q, w.spills.activeZone? a = some zone → zone.contains q = true →
      w'.hasContent q = true → w.hasContent q = true)
    (dirty : ∀ a, w.isFormula a = true → a ∈ w.dirty → a ∈ w'.dirty) : w'.Ready where
  arranged :=
    { exclusive := by
        rw [spills]
        exact
          { toSound := ready.arranged.exclusive.toSound
            owned := fun a zone q active inside => .inl (ready.owned a zone q active inside)
            clear := fun a zone q active inside other filled =>
              dirty a (ready.arranged.isFormula_of_active active)
                (ready.arranged.exclusive.clear a zone q active inside other
                  (clear a zone q active inside filled)) }
      formula := by
        rw [spills]
        exact fun a found => formula a found (ready.arranged.formula a found)
      room := by
        rw [spills]
        exact fun a zone active => room a zone active (ready.arranged.room a zone active) }
  owned := by
    rw [spills]
    exact ready.owned

/-- Arrays stay ready where arrays, contents and sheets stay and no mark is lost. -/
theorem of_contents (ready : w.Ready) (spills : w'.spills = w.spills)
    (content : ∀ p, (w'.content p).isEmpty = (w.content p).isEmpty)
    (formula : ∀ p, (w'.content p).formula?.isSome = (w.content p).formula?.isSome)
    (extent : ∀ id, w'.extent? id = w.extent? id) (dirty : ∀ a, a ∈ w.dirty → a ∈ w'.dirty) :
    w'.Ready := by
  refine ready.transfer spills (fun a _ typed => ?_) (fun a zone _ room => ?_)
    (fun a zone q _ _ filled => ?_) fun a _ marked => dirty a marked
  · rw [isFormula, formula?_eq] at typed ⊢
    rw [formula, typed]
  · obtain ⟨rows, columns, held, fits⟩ := room
    exact ⟨rows, columns, by rw [extent, held], fits⟩
  · rwa [hasContent_eq, content, ← hasContent_eq] at filled

/-- Marks keep arrays ready. -/
theorem markDirty (ready : w.Ready) (positions : List Position) : (w.markDirty positions).Ready :=
  ready.of_contents rfl (fun _ => rfl) (fun _ => rfl) (fun _ => rfl) fun _ marked =>
      PositionSet.mem_insertMany.mpr (.inl marked)

/-- Recording dependencies anew keeps arrays ready. -/
theorem rebuildDependencies (ready : w.Ready) : w.rebuildDependencies.Ready :=
  ready.of_contents rfl (fun _ => rfl) (fun _ => rfl) (fun _ => rfl) fun _ marked => marked

/-- Choosing a format keeps arrays ready. -/
theorem chooseFormat (ready : w.Ready) (p : Position) (format : Option String) :
    (w.chooseFormat p format).Ready := by
  refine ready.of_contents (spills_chooseFormat w p format) (fun q => ?_) (fun q => ?_)
    (sameSheets_chooseFormat w p format).extent fun a marked => ?_
  · rw [content_chooseFormat]
  · rw [content_chooseFormat]
  · rw [dirty_chooseFormat]
    exact marked

/-- Redirecting references keeps arrays ready. -/
theorem redirectFormulas (ready : w.Ready) (redirect : SheetId → Expr → Option Expr) :
    (w.redirectFormulas redirect).Ready := by
  have content : ∀ q, ∃ change, (w.redirectFormulas redirect).content q =
      (w.content q).mapFormula change := fun q => ⟨_, content_redirectFormulas w redirect q⟩
  refine ready.of_contents rfl (fun q => ?_) (fun q => ?_)
    (extent?_redirectFormulas w redirect) fun a marked => marked
  · obtain ⟨change, same⟩ := content q
    rw [same, Content.isEmpty_mapFormula]
  · obtain ⟨change, same⟩ := content q
    rw [same, Content.formula?_mapFormula, Option.isSome_map]

/-- Enlarging a sheet keeps arrays ready. -/
theorem growTo (ready : w.Ready) (p : Position) : (w.growTo p).Ready := by
  refine ready.transfer (spills_growTo w p) (fun a _ typed => ?_) (fun a zone _ room => ?_)
    (fun a zone q _ _ filled => ?_) fun a _ marked => ?_
  · rwa [isFormula, formula?_eq, content_growTo, ← formula?_eq]
  · obtain ⟨rows, columns, held, below, beside⟩ := room
    by_cases here : zone.sheet = p.sheet
    · refine ⟨max rows (p.row + 1), max columns (p.column + 1), ?_, ?_, ?_⟩
      · rw [extent?_growTo, if_pos here, held]
        rfl
      · exact lt_of_lt_of_le below (Nat.le_max_left _ _)
      · exact lt_of_lt_of_le beside (Nat.le_max_left _ _)
    · exact ⟨rows, columns, by rw [extent?_growTo, if_neg here, held], below, beside⟩
  · rwa [hasContent_eq, content_growTo, ← hasContent_eq] at filled
  · exact mem_dirty_growTo.mpr (.inl marked)

/-- Replacing content keeps arrays ready: the array of the replaced formula is given up, and the
anchor whose zone the content enters is marked. -/
theorem replaceContent (ready : w.Ready) (p : Position) (content : Content) :
    (w.replaceContent p content).Ready := by
  have sound := ready.arranged.exclusive.toSound
  have released := ready.arranged.exclusive.release p
  -- The zones that are left are those of other anchors, which own them as before.
  have owned : ∀ a zone q, (w.spills.release p).activeZone? a = some zone → zone.contains q = true →
      a ≠ p ∧ w.spills.activeZone? a = some zone ∧ (w.spills.release p).owner? q = some a := by
    intro a zone q active inside
    rw [Spills.activeZone?_release] at active
    split at active
    · contradiction
    · rename_i other
      refine ⟨other, active, ?_⟩
      rw [sound.owner?_release, ready.owned a zone q active inside,
        if_neg fun same => other (Option.some.inj same)]
  have elsewhere : ∀ q, q ≠ p → (w.replaceContent p content).content q = w.content q :=
    fun q other => by rw [content_replaceContent, if_neg fun both => other both.1]
  refine ⟨⟨?_, ?_, ?_⟩, ?_⟩
  · rw [spills_replaceContent]
    refine ⟨released.toSound, fun a zone q active inside => ?_, ?_⟩
    · exact .inl (owned a zone q active inside).2.2
    · intro a zone q active inside different filled
      obtain ⟨other, before, leads⟩ := owned a zone q active inside
      refine mem_dirty_replaceContent.mpr (.inr ⟨other, ?_⟩)
      by_cases here : q = p
      · subst here
        exact .inr (.inl leads)
      · rw [hasContent_eq, elsewhere q here, ← hasContent_eq] at filled
        exact .inl (mem_dirty_releaseArray.mpr (.inl
          (ready.arranged.exclusive.clear a zone q before inside different filled)))
  · intro a found
    rw [spills_replaceContent, Spills.state?_release] at found
    split at found
    · contradiction
    · rename_i other
      rw [isFormula, formula?_eq, elsewhere a other, ← formula?_eq]
      exact ready.arranged.formula a found
  · intro a zone active
    rw [spills_replaceContent, Spills.activeZone?_release] at active
    split at active
    · contradiction
    · obtain ⟨rows, columns, held, fits⟩ := ready.arranged.room a zone active
      exact ⟨rows, columns, by rw [(sameSheets_replaceContent w p content).extent, held], fits⟩
  · rw [spills_replaceContent]
    exact fun a zone q active inside => (owned a zone q active inside).2.2

/-- Clearing a cell keeps arrays ready. -/
theorem clearCell (ready : w.Ready) (p : Position) : (w.clearCell p).Ready := by
  unfold Workbook.clearCell
  split
  · exact (ready.replaceContent p .empty).chooseFormat p none
  · exact ready

/-- Forgetting the results of a sheet keeps arrays ready. -/
theorem forgetResults (ready : w.Ready) (id : SheetId) : (w.forgetResults id).Ready where
  arranged :=
    { exclusive := (ready.arranged.exclusive.clearSheet id).mono fun a _ held =>
        PositionSet.mem_filter.mpr ⟨held.1, bne_iff_ne.mpr held.2⟩
      formula := fun a found => by
        rw [Workbook.forgetResults, Spills.state?_clearSheet] at found
        split at found
        · contradiction
        · exact ready.arranged.formula a found
      room := fun a zone active => by
        rw [Workbook.forgetResults, Spills.activeZone?_clearSheet] at active
        split at active
        · contradiction
        · exact ready.arranged.room a zone active }
  owned a zone q active inside := by
    rw [Workbook.forgetResults, Spills.activeZone?_clearSheet] at active
    split at active
    · contradiction
    · rename_i elsewhere
      have sheets : q.sheet = a.sheet := by
        rw [← ready.arranged.exclusive.toSound.sheet_eq active, (Zone.contains_iff.mp inside).1]
      rw [Workbook.forgetResults, Spills.owner?_clearSheet, sheets, if_neg elsewhere]
      exact ready.owned a zone q active inside

/-- A sheet without arrays may change as long as the others stay. -/
theorem elsewhere (ready : w.Ready) (id : SheetId)
    (bare : ∀ a, a.sheet = id → w.spills.state? a = none) (spills : w'.spills = w.spills)
    (sheets : ∀ other, other ≠ id → w'.sheet? other = w.sheet? other)
    (dirty : ∀ a, a.sheet ≠ id → a ∈ w.dirty → a ∈ w'.dirty) : w'.Ready := by
  have cells : ∀ q : Position, q.sheet ≠ id → w'.cell? q = w.cell? q := fun q other => by
    unfold cell?
    rw [sheets q.sheet other]
  have away : ∀ a, (w.spills.state? a).isSome = true → a.sheet ≠ id := fun a found here => by
    rw [bare a here] at found
    contradiction
  have activeAway : ∀ a zone, w.spills.activeZone? a = some zone → zone.sheet ≠ id := by
    intro a zone active
    obtain ⟨values, formats, found⟩ := Spills.activeZone?_eq_some_iff.mp active
    rw [ready.arranged.exclusive.toSound.sheet_eq active]
    exact away a (by rw [found]; rfl)
  -- An anchor on the sheet need not stay marked: it has no array.
  refine Ready.mk ⟨?_, ?_, ?_⟩ ?_
  · rw [spills]
    refine ⟨ready.arranged.exclusive.toSound, fun a zone q active inside => ?_, ?_⟩
    · exact .inl (ready.owned a zone q active inside)
    · intro a zone q active inside different filled
      have other := activeAway a zone active
      have sheet := (Zone.contains_iff.mp inside).1
      rw [hasContent, cells q (by rw [sheet]; exact other)] at filled
      refine dirty a ?_ (ready.arranged.exclusive.clear a zone q active inside different filled)
      rw [← ready.arranged.exclusive.toSound.sheet_eq active]
      exact other
  · rw [spills]
    intro a found
    rw [isFormula, formula?, cells a (away a found)]
    exact ready.arranged.formula a found
  · rw [spills]
    intro a zone active
    obtain ⟨rows, columns, held, fits⟩ := ready.arranged.room a zone active
    refine ⟨rows, columns, ?_, fits⟩
    rw [extent?, sheets _ (activeAway a zone active)]
    exact held
  · rw [spills]
    exact ready.owned

end Ready

end Workbook

end Spreadsheet
