import Spreadsheet.Proofs.Redirection.InsertedReferences
import Spreadsheet.Proofs.Workbook.DeletedLines
import Spreadsheet.Proofs.Workbook.Refusals

/-!
# Inserting rows and columns of a workbook and deleting them again

An insertion that is undone by a deletion restores the extents, what was typed and the chosen formats.
Formulas are restored with the exception of cell references that the insertion has moved past the last
row or column that a reference can name: these are cut there and do not find back.
-/
namespace Spreadsheet

variable {direction : Direction} {sheet : SheetId} {gap : Nat × Nat}

/-! ### Lines -/

/-- Where a line ends up when lines are inserted, if it stays within the numbering. -/
def openGap? (gap : Nat × Nat) (line : Nat) : Option Nat :=
  if gap.1 ≤ line ∧ lastIndex < line + gap.2 then none else some (openGap gap line)

/-- A line within the numbering is where it was once the inserted ones are deleted. -/
theorem openGap?_bind_closeRun (gap : Nat × Nat) (line : Nat) :
    (openGap? gap line).bind (closeRun gap) =
      if gap.1 ≤ line ∧ lastIndex < line + gap.2 then none else some line := by
  unfold openGap?
  split
  · rfl
  · exact closeRun_openGap gap line

/-- Inserted lines keep the others apart. -/
theorem openGap?_injective {i j line : Nat} (first : openGap? gap i = some line)
    (second : openGap? gap j = some line) : i = j := by
  have before := openGap?_bind_closeRun gap i
  have after := openGap?_bind_closeRun gap j
  rw [first] at before
  rw [second, before] at after
  unfold openGap? at first second
  split at first
  · contradiction
  · split at second
    · contradiction
    · rename_i near near'
      rw [if_neg near, if_neg near'] at after
      exact Option.some.inj after

/-- An insertion moves the lines of its sheet, those at the end of the numbering apart. -/
theorem Shift.move_ofGap {p : Position} (near : p.sheet = sheet →
    ¬(gap.1 ≤ p.line direction ∧ lastIndex < p.line direction + gap.2)) :
    (Shift.ofGap direction sheet gap).move p = p.onLines direction sheet (openGap? gap) := by
  unfold move Position.onLines
  show (if p.sheet = sheet then _ else _) = _
  split
  · rename_i here
    have index : (Shift.ofGap direction sheet gap).mapIndex (p.line direction) =
        openGap? gap (p.line direction) := by
      have within := near here
      unfold openGap?
      rw [Shift.mapIndex_ofGap, if_neg within]
      unfold openGap
      split
      · rw [Nat.min_eq_left (by omega)]
      · rfl
    unfold mapPlace
    cases direction
    · show Option.map _ (Option.map _ ((Shift.ofGap .rows sheet gap).mapIndex p.row)) = _
      rw [show (Shift.ofGap .rows sheet gap).mapIndex p.row = _ from index, Option.map_map]
      rfl
    · show Option.map _ (Option.map _ ((Shift.ofGap .columns sheet gap).mapIndex p.column)) = _
      rw [show (Shift.ofGap .columns sheet gap).mapIndex p.column = _ from index, Option.map_map]
      rfl
  · rfl

/-- A position within the numbering is where it was once the inserted lines are deleted. -/
theorem Position.onLines_openGap?_bind_closeRuns (p : Position) :
    (p.onLines direction sheet (openGap? gap)).bind (·.onLines direction sheet (closeRuns [gap])) =
      if p.sheet = sheet ∧ gap.1 ≤ p.line direction ∧ lastIndex < p.line direction + gap.2 then none
      else some p := by
  have once : closeRuns [gap] = closeRun gap := funext fun line => by
    rw [closeRuns_cons]
    exact Option.bind_fun_some _
  rw [onLines_bind, once]
  unfold onLines
  dsimp only
  by_cases here : p.sheet = sheet
  · by_cases beyond : gap.1 ≤ p.line direction ∧ lastIndex < p.line direction + gap.2
    · rw [if_pos here, if_pos ⟨here, beyond⟩, openGap?_bind_closeRun, if_pos beyond]
      rfl
    · rw [if_pos here, if_neg fun both => beyond both.2, openGap?_bind_closeRun, if_neg beyond]
      exact congrArg some (p.withLine_self direction)
  · rw [if_neg here, if_neg fun both => here both.1]

/-! ### Contents -/

/-- Content that follows is unchanged exactly if every reference of its formula stays. -/
theorem Content.Follows.follows_some_iff {lead : Reference → Option Reference}
    {content content' : Content} (follows : content.Follows lead content') :
    content.Follows some content' ↔
      ∀ e, content.expr? = some e → ∀ target ∈ e.references, lead target = some target := by
  cases follows with
  | empty => exact iff_of_true .empty fun e none => by contradiction
  | literal typed value => exact iff_of_true (.literal typed value) fun e none => by contradiction
  | @formula f f' follows =>
    have kept : (Content.formula f).Follows some (.formula f') ↔
        f'.tree.map Expr.bare = f.tree.map Expr.bare := by
      constructor
      · rintro (_ | _ | same)
        exact same.tree
      · exact fun same => .formula ⟨same, follows.sequence, follows.worded⟩
    rw [kept, follows.tree]
    show _ ↔ ∀ e, f.expr? = some e → _
    unfold Formula.expr?
    cases f.tree with
    | error fault => exact iff_of_true rfl fun e none => by contradiction
    | ok e =>
      constructor
      · rintro same _ ⟨⟩
        exact Expr.led_eq_bare_iff.mp (Except.ok.inj same)
      · exact fun stay => congrArg Except.ok (Expr.led_eq_bare_iff.mpr (stay e rfl))

namespace Workbook

variable {w w' : Workbook} {index count : Nat}

/-- The sheets, what was typed and the chosen formats are the same, and formulas differ in their
tokens, the spellings of their references and their results at most. -/
structure Restored (w w' : Workbook) : Prop where
  names : w'.registry = w.registry
  lines : ∀ id, w'.lines? id = w.lines? id
  content : ∀ p, (w.content p).Follows some (w'.content p)
  chosen : ∀ p, w'.chosen p = w.chosen p

/-- Nothing has changed in a workbook that is the same. -/
theorem Restored.refl (w : Workbook) : Restored w w :=
  ⟨rfl, fun _ => rfl, fun _ => Content.follows_refl _, fun _ => rfl⟩

/-- Cells that are back where they were are restored exactly if no reference leads elsewhere. -/
theorem Relocated.restored_iff {move : Position → Option Position}
    {lead : SheetId → Reference → Option Reference} (relocated : Relocated move lead w w')
    (back : ∀ p q, move p = some q → p = q)
    (stored : ∀ p, (w.cell? p).isSome = true → move p = some p)
    (lines : ∀ id, w'.lines? id = w.lines? id) :
    Restored w w' ↔ ∀ p e, w.expr? p = some e → ∀ target ∈ e.references,
      lead p.sheet target = some target := by
  have vacant : ∀ p, move p ≠ some p → w.cell? p = none ∧ ∀ q, move q ≠ some p := by
    intro p apart
    refine ⟨Option.eq_none_iff_forall_ne_some.mpr fun c there => ?_, fun q moved => ?_⟩
    · exact apart (stored p (by rw [there]; rfl))
    · obtain rfl := back q p moved
      exact apart moved
  constructor
  · intro restored p e typed
    by_cases moved : move p = some p
    · exact (relocated.follows p p moved).follows_some_iff.mp (restored.content p) e typed
    · rw [Workbook.expr?, Workbook.content, (vacant p moved).1] at typed
      contradiction
  · intro stay
    refine ⟨relocated.registry, lines, fun p => ?_, fun p => ?_⟩
    · by_cases moved : move p = some p
      · exact (relocated.follows p p moved).follows_some_iff.mpr (stay p)
      · obtain ⟨blank, nowhere⟩ := vacant p moved
        rw [relocated.empty p nowhere, Workbook.content, blank]
        exact .empty
    · by_cases moved : move p = some p
      · exact relocated.chosen p p moved
      · obtain ⟨blank, nowhere⟩ := vacant p moved
        rw [relocated.unchosen p nowhere, Workbook.chosen, blank]
        rfl

/-! ### Requests -/

/-- An insertion is accepted before or right behind a row or column of a sheet that is there, if the
sheet does not become too large. -/
theorem accepted_insertion_iff :
    ((Request.insertLines direction sheet index count).edit.perform w).1 = .ok () ↔
      ∃ lines, w.lines? sheet = some lines ∧ index ≤ lines direction ∧
        lines direction + count < indexBound := by
  simp only [Request.edit, Edit.insertLines, Edit.perform_bind, Edit.perform_check,
    Workbook.sheet, lines?]
  cases found : w.sheet? sheet with
  | none => simp
  | some s =>
    simp only [Option.map_some, Option.some.injEq, exists_eq_left']
    by_cases behind : s.lines direction < index
    · simp [behind, Nat.not_le.mpr behind]
    · by_cases large : indexBound ≤ s.lines direction + count
      · simp [behind, large, Nat.not_lt.mpr large]
      · have fits := Nat.lt_of_not_le large
        have inside := Nat.le_of_not_lt behind
        by_cases any : 0 < count <;> simp [behind, large, any, fits, inside]

/-- An accepted insertion of rows or columns moves the cells behind them, leads the references of all
formulas and makes no other difference to what was typed, to chosen formats and to extents. -/
theorem relocated_insertLines {lines : Direction → Nat} (known : w.lines? sheet = some lines)
    (inside : index ≤ lines direction) (fits : lines direction + count < indexBound)
    (any : 0 < count) (near : ∀ p, (w.cell? p).isSome = true → p.sheet = sheet →
      p.line direction + count < indexBound) :
    Relocated (fun p => p.onLines direction sheet (openGap? (index, count)))
        (w.registry.follow (Shift.ofGap direction sheet (index, count))) w
        (w.after (.insertLines direction sheet index count)) ∧
      ∀ id, (w.after (.insertLines direction sheet index count)).lines? id =
        if id = sheet then (w.lines? id).map fun lines =>
          Function.update lines direction (lines direction + count)
        else w.lines? id := by
  obtain ⟨s, found, rfl⟩ := Option.map_eq_some_iff.mp known
  have prepared : w.prepared (.insertLines direction sheet index count) =
      some (w.restructure sheet [Shift.ofGap direction sheet (index, count)]) := by
    simp only [prepared, found, Option.bind_some]
    exact if_pos ⟨inside, fits, any⟩
  obtain ⟨w₀, names, sheets, names', sheets'⟩ := w.exists_restructured sheet
    [Shift.ofGap direction sheet (index, count)]
  have same := (w.restructure sheet
    [Shift.ofGap direction sheet (index, count)]).sameSources_recalculate
  have cells : ∀ p, w₀.cell? p = w.cell? p := fun p => by rw [cell?, cell?, sheet?, sheet?, sheets]
  have moves : ∀ p, (w₀.cell? p).isSome = true →
      p.onLines direction sheet (openGap? (index, count)) =
        (Shift.ofGap direction sheet (index, count)).move p := by
    intro p there
    refine (Shift.move_ofGap fun here => ?_).symm
    have within := near p (by rwa [← cells p]) here
    have bound : lastIndex + 1 = indexBound := rfl
    dsimp only
    omega
  have agrees : ∀ p q, p.onLines direction sheet (openGap? (index, count)) = some q →
      (Shift.ofGap direction sheet (index, count)).move p = some q := by
    intro p q moved
    rw [Shift.move_ofGap fun here beyond => ?_]
    · exact moved
    · unfold Position.onLines openGap? at moved
      rw [if_pos here, if_pos beyond] at moved
      contradiction
  have relocated := w₀.relocated_applyShift (Shift.ofGap direction sheet (index, count)) agrees moves
    fun p p' q => Position.onLines_injective fun _ _ _ => openGap?_injective
  rw [names] at relocated
  rw [after_eq, prepared]
  refine ⟨(relocated.congr names.symm sheets.symm names' sheets').of_sameSources same, fun id => ?_⟩
  rw [lines?_of_sameSheets same.toSameSheets, lines?_congr sheets', List.foldl_cons, List.foldl_nil,
    lines?_applyShift, lines?_congr sheets]
  rfl

/-- Where an insertion of lines and their deletion lead a reference in a formula on `home`. -/
theorem follow_bind_followAll_eq_some_iff {r : Registry} {home : SheetId} {target : Reference}
    (bounded : index + count ≤ lastIndex) (ordered : target.Ordered)
    (far : target.FarFromEnd direction count) :
    (r.follow (Shift.ofGap direction sheet (index, count)) home target).bind
        (r.followAll sheet [Shift.ofRun direction sheet (index, count)] home) = some target ↔
      (r.resolve target.sheet home = some sheet → ¬target.RunsOff direction (index, count)) := by
  have own : (Shift.ofGap direction sheet (index, count)).sheet = sheet := rfl
  have once : ∀ new : Reference, new.followed [Shift.ofRun direction sheet (index, count)] =
      new.shifted (Shift.ofRun direction sheet (index, count)) := by
    intro new
    rw [Reference.followed_cons]
    exact Option.bind_fun_some _
  rw [r.follow_bind_followAll own, Registry.followAll, Reference.followed_cons]
  simp only [once]
  split
  · rename_i led
    rw [Reference.shifted_ofGap_ofRun_iff bounded ordered far]
    exact ⟨fun stays _ => stays, fun stays => stays led⟩
  · rename_i elsewhere
    exact iff_of_true rfl fun led => absurd led elsewhere

/-- An accepted insertion and the deletion of what it inserted put cells back where they were, leading
the references of all formulas there and back, if the sheet is not left without lines. -/
theorem relocated_insertLines_deleteLines {lines : Direction → Nat}
    (known : w.lines? sheet = some lines) (inside : index ≤ lines direction)
    (fits : lines direction + count < indexBound) (any : 0 < count) (left : 0 < lines direction)
    (near : ∀ p, (w.cell? p).isSome = true → p.sheet = sheet →
      p.line direction + count < indexBound) :
    Relocated
        (fun p => (p.onLines direction sheet (openGap? (index, count))).bind
          (·.onLines direction sheet (closeRuns [(index, count)])))
        (fun home target =>
          (w.registry.follow (Shift.ofGap direction sheet (index, count)) home target).bind
            (w.registry.followAll sheet [Shift.ofRun direction sheet (index, count)] home)) w
        ((w.after (.insertLines direction sheet index count)).after
          (.deleteLines direction sheet (List.range' index count))) ∧
      ∀ id, ((w.after (.insertLines direction sheet index count)).after
        (.deleteLines direction sheet (List.range' index count))).lines? id = w.lines? id := by
  obtain ⟨inserted, extents⟩ := relocated_insertLines known inside fits any near
  have longer : (w.after (.insertLines direction sheet index count)).lines? sheet =
      some (Function.update lines direction (lines direction + count)) := by
    rw [extents, if_pos rfl, known, Option.map_some]
  have card : (List.range' index count).toFinset.card = count := by
    rw [List.toFinset_card_of_nodup List.nodup_range', List.length_range']
  have within : ∀ i ∈ List.range' index count,
      i < Function.update lines direction (lines direction + count) direction := by
    intro i listed
    have above := (List.mem_range'_1.mp listed).2
    rw [Function.update_self]
    omega
  have some' : (List.range' index count).toFinset.card <
      Function.update lines direction (lines direction + count) direction := by
    rw [card, Function.update_self]
    omega
  have bounded : Function.update lines direction (lines direction + count) direction ≤
      lastIndex := by
    rw [Function.update_self]
    exact Nat.le_sub_one_of_lt fits
  obtain ⟨deleted, extents'⟩ := relocated_deleteLines longer within some' bounded
  rw [descendingRuns_range' index any] at deleted extents'
  rw [inserted.registry] at deleted
  refine ⟨inserted.trans deleted fun p q => Position.sheet_of_onLines, fun id => ?_⟩
  rw [extents']
  split
  · rename_i here
    subst here
    rw [longer, known]
    refine congrArg some ?_
    simp [runsLength]
  · rename_i elsewhere
    rw [extents, if_neg elsewhere]

/-- An insertion of no lines changes nothing. -/
theorem after_insertLines_zero (w : Workbook) (direction : Direction) (sheet : SheetId)
    (index : Nat) : w.after (.insertLines direction sheet index 0) = w := by
  rw [after_eq]
  cases found : w.sheet? sheet with
  | none => simp [prepared, found, clipped]
  | some s => simp [prepared, found, clipped]

/-- Lines that were inserted into a sheet without any are not deleted, being all of its lines. -/
theorem lines?_insertLines_deleteLines_of_eq_zero {lines : Direction → Nat}
    (known : w.lines? sheet = some lines) (empty : lines direction = 0)
    (inside : index ≤ lines direction) (fits : lines direction + count < indexBound)
    (any : 0 < count) (near : ∀ p, (w.cell? p).isSome = true → p.sheet = sheet →
      p.line direction + count < indexBound) :
    ((w.after (.insertLines direction sheet index count)).after
        (.deleteLines direction sheet (List.range' index count))).lines? sheet =
      some (Function.update lines direction count) := by
  have extent := (relocated_insertLines known inside fits any near).2 sheet
  rw [if_pos rfl, known, Option.map_some, empty, Nat.zero_add] at extent
  have refused : (w.after (.insertLines direction sheet index count)).after
      (.deleteLines direction sheet (List.range' index count)) =
        w.after (.insertLines direction sheet index count) := by
    cases result : ((Request.deleteLines direction sheet (List.range' index count)).edit.perform
        (w.after (.insertLines direction sheet index count))).1 with
    | error e =>
      exact (Request.deleteLines direction sheet (List.range' index count)).refusesCleanly _ e result
    | ok done =>
      obtain ⟨lines', known', _, left⟩ := accepted_deletion_iff.mp result
      rw [extent] at known'
      obtain rfl := Option.some.inj known'
      rw [Function.update_self, List.toFinset_card_of_nodup List.nodup_range',
        List.length_range'] at left
      exact absurd left (Nat.lt_irrefl count)
  rw [refused, extent]

/-- An accepted insertion and the deletion of what it inserted restore a workbook exactly if the sheet
had rows or columns before, so that not all of them are to be deleted, and no reference to the sheet
was moved past the last row or column that it can name. This is so in every workbook that can be
attained, as long as no cell and no end of a range comes near the end of the numbering. -/
theorem restored_iff_of_accepted (attained : w.Attainable)
    (accepted : ((Request.insertLines direction sheet index count).edit.perform w).1 = .ok ())
    (near : ∀ p, (w.cell? p).isSome = true → p.sheet = sheet →
      p.line direction + count < indexBound)
    (far : ∀ p e, w.expr? p = some e → ∀ target ∈ e.references,
      target.FarFromEnd direction count) :
    Restored w ((w.after (.insertLines direction sheet index count)).after
        (.deleteLines direction sheet (List.range' index count))) ↔
      (0 < count → ∀ lines, w.lines? sheet = some lines → 0 < lines direction) ∧
        ∀ p e, w.expr? p = some e → ∀ target ∈ e.references,
          w.registry.resolve target.sheet p.sheet = some sheet →
            ¬target.RunsOff direction (index, count) := by
  obtain ⟨lines, known, inside, fits⟩ := accepted_insertion_iff.mp accepted
  have bounded : index + count ≤ lastIndex := by
    have bound : lastIndex + 1 = indexBound := rfl
    omega
  rcases Nat.eq_zero_or_pos count with rfl | any
  · have same : (w.after (.insertLines direction sheet index 0)).after
        (.deleteLines direction sheet (List.range' index 0)) = w := by
      rw [after_insertLines_zero, after_deleteLines_of_runs_eq_nil rfl]
    rw [same]
    exact iff_of_true (.refl w) ⟨fun positive => absurd positive (Nat.lt_irrefl 0),
      fun _ _ _ target _ _ => target.not_runsOff_zero direction index⟩
  rcases Nat.eq_zero_or_pos (lines direction) with empty | left
  · refine iff_of_false (fun restored => ?_) fun both => ?_
    · have extent := restored.lines sheet
      rw [lines?_insertLines_deleteLines_of_eq_zero known empty inside fits any near] at extent
      have longer := congrFun (Option.some.inj (extent.trans known)) direction
      rw [Function.update_self] at longer
      omega
    · have some' := both.1 any lines known
      omega
  obtain ⟨relocated, extents⟩ := relocated_insertLines_deleteLines known inside fits any left near
  rw [relocated.restored_iff ?_ ?_ extents]
  · have nonempty : 0 < count → ∀ lines, w.lines? sheet = some lines → 0 < lines direction := by
      intro _ lines' known'
      rw [known] at known'
      rwa [← Option.some.inj known']
    rw [and_iff_right nonempty]
    refine forall_congr' fun p => forall_congr' fun e => imp_congr_right fun typed =>
      forall_congr' fun target => imp_congr_right fun listed => ?_
    exact follow_bind_followAll_eq_some_iff bounded
      (attained.allReferences Reference.law_ordered typed target listed)
      (far p e typed target listed)
  · intro p q moved
    rw [Position.onLines_openGap?_bind_closeRuns, Option.ite_none_left_eq_some] at moved
    exact Option.some.inj moved.2
  · intro p there
    rw [Position.onLines_openGap?_bind_closeRuns, if_neg]
    rintro ⟨here, _, beyond⟩
    have within := near p there here
    have bound : lastIndex + 1 = indexBound := rfl
    dsimp only at beyond
    omega

/-- A reference to the last row that can be named is cut when a row is inserted above its cell, and
leads to another cell once that row is deleted. -/
theorem not_restored_of_typed_last_row :
    ¬Restored
      ((new ⟨1048576, 2, 30, "Sheet1"⟩ FunctionTable.empty).after (.setContent 0 0 1 "=A1048576"))
      ((((new ⟨1048576, 2, 30, "Sheet1"⟩ FunctionTable.empty).after
        (.setContent 0 0 1 "=A1048576")).after (.insertLines .rows 0 0 1)).after
          (.deleteLines .rows 0 [0])) := by
  generalize start : new ⟨1048576, 2, 30, "Sheet1"⟩ FunctionTable.empty = w
  have blank : ∀ q, w.cell? q = none := fun q => start ▸ cell?_new _ _ q
  have room : (w.sheet? 0).any (·.inBounds 0 1) = true := start ▸ by decide +kernel
  have sheets := w.sameSheets_after_setContent ⟨0, 0, 1⟩ "=A1048576"
  have known : (w.after (.setContent 0 0 1 "=A1048576")).lines? 0 =
      some (Sheet.blank 1048576 2).lines := (lines?_of_sameSheets sheets 0).trans (start ▸ lines?_new ..)
  have tree : (Content.ofText "=A1048576").expr?.map Expr.references =
      some [.cell none ⟨1048575, 0, false, false, by decide, by decide⟩] := by decide +kernel
  obtain ⟨e, tree, references⟩ := Option.map_eq_some_iff.mp tree
  have typed : ∀ q, (w.after (.setContent 0 0 1 "=A1048576")).expr? q =
      if q = ⟨0, 0, 1⟩ then some e else none := by
    intro q
    have nothing : w.expr? q = none := by
      rw [expr?, content, blank]
      rfl
    have after := w.expr?_after_setContent ⟨0, 0, 1⟩ "=A1048576" q room
    rwa [tree, nothing] at after
  intro restored
  have attained : (w.after (.setContent 0 0 1 "=A1048576")).Attainable :=
    .after (start ▸ .new _ _) _ fun _ _ _ same => by contradiction
  have back := (restored_iff_of_accepted attained
    (accepted_insertion_iff.mpr ⟨_, known, by decide, by decide⟩) ?_ ?_).mp restored
  · refine back.2 ⟨0, 0, 1⟩ e (typed _) _ (references ▸ List.mem_singleton_self _) ?_ ?_
    · rw [sheets.registry, ← start]
      decide +kernel
    · exact ⟨by decide, by decide⟩
  · intro p there _
    rcases w.isSome_cell?_after_setContent ⟨0, 0, 1⟩ "=A1048576" there with rfl | before
    · decide
    · rw [blank] at before
      contradiction
  · intro p e' found target listed
    rw [typed] at found
    split at found
    · obtain rfl := Option.some.inj found
      rw [references, List.mem_singleton] at listed
      rw [listed]
      trivial
    · contradiction

end Workbook

end Spreadsheet
