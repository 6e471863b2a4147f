import Spreadsheet.Proofs.Workbook.Requests

/-!
# Refusals

An edit checks a request before it changes anything, and no change that follows the checks can be
refused. So a request that is refused leaves the workbook as it was, down to its marks and its
clipboard.
-/
namespace Spreadsheet

namespace Edit

variable {α β : Type} {w : Workbook}

/-- A refusal of the edit would leave the workbook as it is. -/
def RefusesCleanly (edit : Edit α) (w : Workbook) : Prop :=
  ∀ e, (edit.perform w).1 = .error e → (edit.perform w).2 = w

/-- An edit that is not refused has nothing to leave behind. -/
theorem RefusesCleanly.of_ok {edit : Edit α} {a : α} {w' : Workbook}
    (done : edit.perform w = (.ok a, w')) : edit.RefusesCleanly w := by
  intro e refused
  rw [done] at refused
  contradiction

/-- An edit that leaves the workbook as it is does so when it is refused. -/
theorem RefusesCleanly.of_kept {edit : Edit α} (kept : (edit.perform w).2 = w) :
    edit.RefusesCleanly w := fun _ _ => kept

/-- After a step that leaves the workbook as it is, refusals of the rest are those of the whole. -/
theorem RefusesCleanly.bind {first : Edit α} {rest : α → Edit β}
    (kept : (first.perform w).2 = w)
    (clean : ∀ a, (first.perform w).1 = .ok a → (rest a).RefusesCleanly w) :
    (first >>= rest).RefusesCleanly w := by
  intro e refused
  rw [perform_bind] at refused ⊢
  obtain ⟨w', found⟩ : ∃ w', (first.perform w).2 = w' := ⟨_, rfl⟩
  cases result : (first.perform w).1 with
  | error e' =>
    have whole : first.perform w = (.error e', w) := Prod.ext result kept
    rw [whole]
  | ok a =>
    have whole : first.perform w = (.ok a, w) := Prod.ext result kept
    rw [whole] at refused ⊢
    exact clean a result e refused

/-- After a check, refusals of the rest are those of the whole. -/
theorem RefusesCleanly.check_bind {look : Workbook → Except EditError α} {rest : α → Edit β}
    (clean : ∀ a, look w = .ok a → (rest a).RefusesCleanly w) :
    (check look >>= rest).RefusesCleanly w :=
  .bind (by rw [perform_check]) fun a passed => clean a (by rwa [perform_check] at passed)

/-- A change and a recalculation are not refused. -/
theorem refusesCleanly_change (change : Workbook → Workbook) :
    (apply change >>= fun _ => recalculate).RefusesCleanly w := .of_ok rfl

/-- An edit of zones is refused before it changes anything. -/
theorem refusesCleanly_checkZones (zones : List Zone) (change : Workbook → Workbook) :
    (do
      zones.forM fun z => check (·.checkZone z)
      apply change
      recalculate : Edit Unit).RefusesCleanly w := by
  refine .bind ?_ fun _ _ => refusesCleanly_change change
  rw [perform_forM_check fun z => perform_check (·.checkZone z)]

/-- Adding a sheet is refused before it changes anything. -/
theorem refusesCleanly_addSheet (name : String) (rows columns : Nat) :
    (addSheet name rows columns).RefusesCleanly w := by
  unfold addSheet
  refine .bind rfl fun w' same => ?_
  obtain rfl := Except.ok.inj same
  dsimp only
  split
  · exact .of_kept rfl
  · exact .of_ok rfl

/-- Deleting a sheet is refused before it changes anything. -/
theorem refusesCleanly_deleteSheet (name : String) : (deleteSheet name).RefusesCleanly w := by
  unfold deleteSheet
  refine .bind rfl fun w' same => ?_
  obtain rfl := Except.ok.inj same
  split
  · exact .of_kept rfl
  · dsimp only
    split
    · exact .of_kept rfl
    · exact .of_ok rfl

/-- Typing is refused before it changes anything. -/
theorem refusesCleanly_setContent (sheet : SheetId) (row column : Nat) (text : String) :
    (setContent sheet row column text).RefusesCleanly w := by
  unfold setContent
  refine .check_bind fun s _ => ?_
  dsimp only
  split
  · exact refusesCleanly_change _
  · exact .of_kept rfl

/-- Inserting rows or columns is refused before it changes anything. -/
theorem refusesCleanly_insertLines (direction : Direction) (sheet : SheetId) (index count : Nat) :
    (insertLines direction sheet index count).RefusesCleanly w := by
  unfold insertLines
  refine .check_bind fun s _ => ?_
  by_cases inside : s.lines direction < index
  · simp only [inside, ↓reduceIte]
    exact .of_kept rfl
  · by_cases large : indexBound ≤ s.lines direction + count
    · simp only [inside, large, ↓reduceIte]
      exact .of_kept rfl
    · by_cases any : 0 < count
      · simp only [inside, large, any, ↓reduceIte]
        exact refusesCleanly_change _
      · simp only [inside, large, any, ↓reduceIte]
        exact .of_kept rfl

/-- Deleting rows or columns is refused before it changes anything. -/
theorem refusesCleanly_deleteLines (direction : Direction) (sheet : SheetId)
    (indices : List Nat) : (deleteLines direction sheet indices).RefusesCleanly w := by
  unfold deleteLines
  refine .check_bind fun s _ => ?_
  split
  · exact .of_kept rfl
  · dsimp only
    split
    · exact .of_kept rfl
    · split
      · exact .of_kept rfl
      · exact refusesCleanly_change _

/-- Pasting a clip is refused before it changes anything: the sheets it is pasted on stay. -/
theorem refusesCleanly_pasteCells (clip : Clip) (targets : List Zone) (mode : PasteMode) :
    (pasteCells clip targets mode).RefusesCleanly w := by
  by_cases exist : ∀ z ∈ targets, (w.sheet? z.sheet).isSome = true
  · exact .of_ok (Workbook.perform_pasteCells_of_exist exist clip mode)
  · obtain ⟨e, refused⟩ := Workbook.perform_pasteCells_of_missing exist clip mode
    exact .of_kept (by rw [refused])

/-- Pasting a cut is refused before it changes anything: cells that can be copied can be taken, and
the sheet they go to stays. -/
theorem refusesCleanly_pasteCut (zones targets : List Zone) :
    (pasteCut zones targets).RefusesCleanly w := by
  cases targets with
  | nil => exact .of_kept rfl
  | cons target rest =>
    by_cases exists' : (w.sheet? target.sheet).isSome = true
    · cases copied : w.copyCells zones with
      | error e =>
        obtain ⟨s, found⟩ := Option.isSome_iff_exists.mp exists'
        exact .of_kept (by simp [pasteCut, Workbook.sheet, found, copied])
      | ok clip => exact .of_ok (Workbook.perform_pasteCut_of_copied exists' copied rest)
    · rw [Option.not_isSome_iff_eq_none] at exists'
      exact .of_kept (by simp [pasteCut, Workbook.sheet, exists'])

/-- Pasting is refused before it changes anything. -/
theorem refusesCleanly_paste (targets : List Zone) (mode : PasteMode) :
    (paste targets mode).RefusesCleanly w := by
  unfold paste
  refine .bind rfl fun w' same => ?_
  obtain rfl := Except.ok.inj same
  split
  · exact .of_kept rfl
  · exact refusesCleanly_pasteCells _ targets mode
  · split
    · exact refusesCleanly_pasteCut _ targets
    · exact .of_kept rfl

end Edit

/-- Every request is refused before it changes anything. -/
theorem Request.refusesCleanly (request : Request) (w : Workbook) :
    request.edit.RefusesCleanly w := by
  cases request with
  | addSheet name rows columns =>
    intro e refused
    simp only [Request.edit, Edit.perform_bind] at refused ⊢
    have clean := Edit.refusesCleanly_addSheet (w := w) name rows columns
    rcases found : (Edit.addSheet name rows columns).perform w with ⟨result, w'⟩
    unfold Edit.RefusesCleanly at clean
    rw [found] at refused clean
    cases result with
    | ok id => contradiction
    | error e' => exact clean e' rfl
  | deleteSheet name => exact Edit.refusesCleanly_deleteSheet name
  | setContent sheet row column text => exact Edit.refusesCleanly_setContent sheet row column text
  | deleteContent zones => exact Edit.refusesCleanly_checkZones zones _
  | setFormat zones format => exact Edit.refusesCleanly_checkZones zones _
  | reevaluate positions => exact Edit.refusesCleanly_change _
  | flush => exact .of_ok rfl
  | insertLines direction sheet index count =>
    exact Edit.refusesCleanly_insertLines direction sheet index count
  | deleteLines direction sheet indices =>
    exact Edit.refusesCleanly_deleteLines direction sheet indices
  | copy zones => exact .check_bind fun clip _ => .of_ok rfl
  | cut zones => exact .check_bind fun clip _ => .of_ok rfl
  | paste targets mode => exact Edit.refusesCleanly_paste targets mode
  | pasteCells clip targets mode => exact Edit.refusesCleanly_pasteCells clip targets mode

namespace Workbook

/-- A request that is refused leaves the workbook exactly as it was: its sheets and cells, results
and arrays, dependencies, names, marks and clipboard. -/
theorem after_eq_self_of_refused {w : Workbook} {request : Request} {e : EditError}
    (refused : (request.edit.perform w).1 = .error e) : w.after request = w :=
  request.refusesCleanly w e refused

/-- A cut stays as it was when it is pasted where there is no sheet. -/
theorem after_paste_eq_self_of_cut :
    ((Request.paste [.single ⟨5, 0, 0⟩] .everything).edit.perform
        ((new Settings.standard FunctionTable.empty).after (.cut [.single ⟨0, 0, 0⟩]))).1 =
          .error (.noSheet 5) ∧
      ((new Settings.standard FunctionTable.empty).after (.cut [.single ⟨0, 0, 0⟩])).after
          (.paste [.single ⟨5, 0, 0⟩] .everything) =
        (new Settings.standard FunctionTable.empty).after (.cut [.single ⟨0, 0, 0⟩]) :=
  ⟨rfl, after_eq_self_of_refused (e := .noSheet 5) rfl⟩

end Workbook

end Spreadsheet
