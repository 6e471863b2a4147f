import Spreadsheet.Proofs.Workbook.Growth
import Spreadsheet.Workbook.Structure

/-!
# Requests and runs

Everything that can be asked of a workbook is a request. A request is refused, or it prepares a
workbook by its change and brings the results of that workbook up to date. Copying and cutting only
fill the clipboard.
-/
namespace Spreadsheet

/-- What can be asked of a workbook. -/
inductive Request where
  | addSheet (name : String) (rows columns : Nat)
  | deleteSheet (name : String)
  | setContent (sheet : SheetId) (row column : Nat) (text : String)
  | deleteContent (zones : List Zone)
  | setFormat (zones : List Zone) (format : Option String)
  | reevaluate (positions : List Position)
  | flush
  | insertLines (direction : Direction) (sheet : SheetId) (index count : Nat)
  | deleteLines (direction : Direction) (sheet : SheetId) (indices : List Nat)
  | copy (zones : List Zone)
  | cut (zones : List Zone)
  | paste (targets : List Zone) (mode : PasteMode)
  | pasteCells (clip : Clip) (targets : List Zone) (mode : PasteMode)

/-- The edit that a request asks for. -/
def Request.edit : Request → Edit Unit
  | addSheet name rows columns => do
    let _ ← Edit.addSheet name rows columns
  | deleteSheet name => Edit.deleteSheet name
  | setContent sheet row column text => Edit.setContent sheet row column text
  | deleteContent zones => Edit.deleteContent zones
  | setFormat zones format => Edit.setFormat zones format
  | reevaluate positions => Edit.reevaluate positions
  | flush => Edit.recalculate
  | insertLines direction sheet index count => Edit.insertLines direction sheet index count
  | deleteLines direction sheet indices => Edit.deleteLines direction sheet indices
  | copy zones => Edit.copy zones
  | cut zones => Edit.cut zones
  | paste targets mode => Edit.paste targets mode
  | pasteCells clip targets mode => Edit.pasteCells clip targets mode

namespace Workbook

/-- The workbook after a request. -/
def after (w : Workbook) (request : Request) : Workbook := (request.edit.perform w).2

/-- The workbook after requests one after the other. -/
def afterAll (w : Workbook) (requests : List Request) : Workbook := requests.foldl after w

end Workbook

namespace Edit

variable {α β : Type} {w : Workbook}

/-- An edit that does nothing. -/
@[simp] theorem perform_pure (a : α) : (pure a : Edit α).perform w = (.ok a, w) := rfl

/-- A refusal ends an edit. -/
@[simp] theorem perform_throw (e : EditError) : (throw e : Edit α).perform w = (.error e, w) := rfl

/-- Looking at the workbook. -/
@[simp] theorem perform_get : (get : Edit Workbook).perform w = (.ok w, w) := rfl

/-- A change that is never refused. -/
@[simp] theorem perform_apply (change : Workbook → Workbook) :
    (apply change).perform w = (.ok (), change w) := rfl

/-- Bringing results up to date. -/
@[simp] theorem perform_recalculate : recalculate.perform w = (.ok (), w.recalculate) := rfl

/-- One edit after another, which a refusal of the first ends. -/
@[simp] theorem perform_bind (first : Edit α) (rest : α → Edit β) :
    (first >>= rest).perform w =
      match first.perform w with
      | (.ok a, w') => (rest a).perform w'
      | (.error e, w') => (.error e, w') := by
  show ((first.run >>= ExceptT.bindCont rest) : StateM Workbook _) w = _
  unfold perform
  show StateT.bind _ _ w = _
  unfold StateT.bind
  show (match first.run w with | (a, w') => ExceptT.bindCont rest a w') = _
  rcases first.run w with ⟨result, w'⟩
  cases result <;> rfl

/-- A check leaves the workbook as it is. -/
@[simp] theorem perform_check (look : Workbook → Except EditError α) :
    (check look).perform w = (look w, w) := by
  unfold check
  rw [perform_bind, perform_get]
  dsimp only
  cases look w <;> rfl

/-- Checks of several things leave the workbook as it is. -/
theorem perform_forM_check {γ : Type} {body : γ → Edit Unit} {look : γ → Except EditError Unit}
    (checks : ∀ c, (body c).perform w = (look c, w)) (things : List γ) :
    (things.forM body).perform w = (things.forM look, w) := by
  induction things with
  | nil => rfl
  | cons c rest ih =>
    show (body c >>= fun _ => rest.forM body).perform w = (look c >>= fun _ => rest.forM look, w)
    rw [perform_bind, checks]
    cases look c with
    | ok _ => exact ih
    | error e => rfl

/-- Steps that are never refused, as long as something holds that they keep, are done in order. -/
theorem perform_forM_step {γ : Type} {body : γ → Edit Unit} {step : Workbook → γ → Workbook}
    (Holds : Workbook → Prop) {things : List γ}
    (steps : ∀ c ∈ things, ∀ w, Holds w → (body c).perform w = (.ok (), step w c))
    (kept : ∀ c ∈ things, ∀ w, Holds w → Holds (step w c)) (holds : Holds w) :
    (things.forM body).perform w = (.ok (), things.foldl step w) := by
  induction things generalizing w with
  | nil => rfl
  | cons c rest ih =>
    show (body c >>= fun _ => rest.forM body).perform w = _
    rw [perform_bind, steps c List.mem_cons_self w holds]
    exact ih (fun d later => steps d (List.mem_cons_of_mem _ later))
      (fun d later => kept d (List.mem_cons_of_mem _ later))
      (kept c List.mem_cons_self w holds)

/-- Checks of several things pass when each does. -/
theorem forM_eq_ok_iff {γ : Type} {look : γ → Except EditError Unit} {things : List γ} :
    things.forM look = .ok () ↔ ∀ c ∈ things, look c = .ok () := by
  induction things with
  | nil => simp [List.forM, pure, Except.pure]
  | cons c rest ih =>
    show (look c >>= fun _ => rest.forM look) = .ok () ↔ _
    cases found : look c with
    | ok _ => simpa [found, bind, Except.bind] using ih
    | error e => simp [found, bind, Except.bind]

end Edit

namespace Workbook

/-- All zones lie on their sheets. -/
def holds (w : Workbook) (zones : List Zone) : Bool :=
  zones.all fun z => (w.sheet? z.sheet).any (·.hasRoomFor z)

/-- The content of positions is deleted. -/
def emptied (w : Workbook) (positions : List Position) : Workbook :=
  positions.foldl (fun w p => if w.hasContent p then w.replaceContent p .empty else w) w

/-- A format is chosen for positions. -/
def formatted (w : Workbook) (positions : List Position) (format : Option String) : Workbook :=
  positions.foldl (fun w p => w.chooseFormat p format) w

/-- The cells of a clip and where they go, in the order in which they are pasted. -/
def pastings (clip : Clip) (targets : List Zone) : List (ClipCell × Position) :=
  (targets.flatMap (Edit.anchors clip)).flatMap fun anchor =>
    clip.cells.map fun cell => (cell, cell.placed anchor)

/-- A copied cell is pasted, its sheet having been enlarged to hold it. -/
def pasted (clip : Clip) (mode : PasteMode) (w : Workbook) (pasting : ClipCell × Position) :
    Workbook :=
  (w.growTo pasting.2).pasteCell pasting.1 (pasting.1.placed clip.origin) pasting.2 mode

/-- The change that pasting a clip makes. -/
def pastedAll (w : Workbook) (clip : Clip) (targets : List Zone) (mode : PasteMode) : Workbook :=
  (pastings clip targets).foldl (pasted clip mode) w

/-- What is kept when the content of a position is deleted is kept when that of several ones is. -/
theorem emptied_induction {P : Workbook → Prop} {w : Workbook} (start : P w)
    (replace : ∀ w' p, w'.hasContent p = true → P w' → P (w'.replaceContent p .empty))
    (positions : List Position) : P (w.emptied positions) := by
  refine List.foldlRecOn positions _ (motive := P) start fun w' kept p _ => ?_
  split
  · rename_i filled
    exact replace w' p filled kept
  · exact kept

/-- What is kept when a format is chosen for a position is kept when it is chosen for several ones. -/
theorem formatted_induction {P : Workbook → Prop} {w : Workbook} {positions : List Position}
    {format : Option String} (start : P w)
    (choose : ∀ w' p, p ∈ positions → P w' → P (w'.chooseFormat p format)) :
    P (w.formatted positions format) :=
  List.foldlRecOn positions _ (motive := P) start fun w' kept p listed => choose w' p listed kept

/-- What is kept when a cell of a clip is pasted is kept when the clip is. -/
theorem pastedAll_induction {P : Workbook → Prop} {w : Workbook} {clip : Clip} {mode : PasteMode}
    (start : P w)
    (paste : ∀ w' pasting, pasting.1 ∈ clip.cells → P w' → P (pasted clip mode w' pasting))
    (targets : List Zone) : P (w.pastedAll clip targets mode) := by
  refine List.foldlRecOn _ _ (motive := P) start fun w' kept pasting listed => ?_
  obtain ⟨anchor, _, inner⟩ := List.mem_flatMap.mp listed
  obtain ⟨cell, member, rfl⟩ := List.mem_map.mp inner
  exact paste w' (cell, cell.placed anchor) member kept

/-- The cells of a clip are taken away. -/
def taken (w : Workbook) (clip : Clip) : Workbook :=
  clip.cells.foldl (fun w cell => w.clearCell (cell.placed clip.origin)) w

/-- The cells of a clip are put where they go when its origin is at an anchor. -/
def putDown (w : Workbook) (clip : Clip) (anchor : Position) : Workbook :=
  clip.cells.foldl
    (fun w cell => (w.growTo (cell.placed anchor)).placeCell
      (.fromAnchor clip.origin clip.rows clip.columns) anchor cell (cell.placed anchor))
    w

/-- How references on a sheet follow the cells of a clip that go to an anchor. -/
def follow (w : Workbook) (clip : Clip) (anchor : Position) (home : SheetId) :
    Expr → Option Expr :=
  w.moveRedirection (.fromAnchor clip.origin clip.rows clip.columns) anchor home home

/-- The change that pasting a cut makes. -/
def moved (w : Workbook) (clip : Clip) (anchor : Position) : Workbook :=
  let taken := w.taken clip
  let put := (taken.redirectFormulas (taken.follow clip anchor)).putDown clip anchor
  { (put.rebuildDependencies).markDirty (taken.redirected (taken.follow clip anchor)) with
    clipboard := none }

/-- The change that pasting a clip makes, if there are sheets to paste it on. -/
def preparedPaste (w : Workbook) (clip : Clip) (targets : List Zone) (mode : PasteMode) :
    Option Workbook :=
  if targets.all fun z => (w.sheet? z.sheet).isSome then some (w.pastedAll clip targets mode)
  else none

/-- The change that pasting a cut makes, if there is a place for it. -/
def preparedMove (w : Workbook) (zones : List Zone) : List Zone → Option Workbook
  | [] => none
  | target :: _ =>
    if (w.sheet? target.sheet).isSome then
      (w.copyCells zones).toOption.map fun clip => w.moved clip target.topLeft
    else none

/-- The change that a request makes before results are brought up to date. There is none if the
request is refused or has nothing to do. -/
def prepared (w : Workbook) : Request → Option Workbook
  | .addSheet name rows columns =>
    if (w.registry.id? name).isSome then none
    else some (((w.insertSheet name rows columns).rebuildDependencies).markMentions
      w.registry.nextId)
  | .deleteSheet name =>
    (w.registry.id? name).bind fun id =>
      if w.registry.liveIds.length ≤ 1 then none
      else some ((w.eraseSheet id).redirectAndMark fun _ e =>
        e.invalidate? ((w.registry.name? id).getD name))
  | .setContent sheet row column text =>
    if (w.sheet? sheet).any (·.inBounds row column) then
      some (w.replaceContent ⟨sheet, row, column⟩ (.ofText text))
    else none
  | .deleteContent zones =>
    if w.holds zones then some (w.emptied (zones.flatMap Zone.positions)) else none
  | .setFormat zones format =>
    if w.holds zones then some (w.formatted (zones.flatMap Zone.positions) format) else none
  | .reevaluate positions => some (w.markDirty (positions.filter w.isFormula))
  | .flush => some w
  | .insertLines direction sheet index count =>
    (w.sheet? sheet).bind fun s =>
      if index ≤ s.lines direction ∧ s.lines direction + count < indexBound ∧ 0 < count then
        some (w.restructure sheet [⟨.insertion, direction, sheet, index, count⟩])
      else none
  | .deleteLines direction sheet indices =>
    (w.sheet? sheet).bind fun s =>
      if (∀ i ∈ indices, i < s.lines direction) ∧
          (distinctIndices indices).length < s.lines direction ∧ descendingRuns indices ≠ [] then
        some (w.restructure sheet ((descendingRuns indices).map fun (start, count) =>
          ⟨.deletion, direction, sheet, start, count⟩))
      else none
  | .copy _ => none
  | .cut _ => none
  | .paste targets mode =>
    match w.clipboard with
    | none => none
    | some (.copied clip) => w.preparedPaste clip targets mode
    | some (.cut zones) => if mode = .everything then w.preparedMove zones targets else none
  | .pasteCells clip targets mode => w.preparedPaste clip targets mode

/-- The workbook after a request that changes at most the clipboard. -/
def clipped (w : Workbook) : Request → Workbook
  | .copy zones =>
    match w.copyCells zones with
    | .ok clip => { w with clipboard := some (.copied clip) }
    | .error _ => w
  | .cut zones =>
    match w.copyCells zones with
    | .ok _ => { w with clipboard := some (.cut zones) }
    | .error _ => w
  | _ => w

/-- Clipping changes at most the clipboard. -/
theorem clipped_eq (w : Workbook) (request : Request) :
    w.clipped request = { w with clipboard := (w.clipped request).clipboard } := by
  unfold clipped
  split
  · split <;> rfl
  · split <;> rfl
  · rfl

/-- A zone passes its check when it lies on its sheet. -/
theorem checkZone_eq_ok_iff {w : Workbook} {z : Zone} :
    w.checkZone z = .ok () ↔ (w.sheet? z.sheet).any (·.hasRoomFor z) = true := by
  unfold checkZone sheet
  cases w.sheet? z.sheet with
  | none => simp [bind, Except.bind]
  | some s =>
    by_cases room : s.hasRoomFor z = true
    · simp [room, bind, Except.bind, pure, Except.pure]
    · simp [room, bind, Except.bind, throw, throwThe, MonadExceptOf.throw]

/-- Zones pass their checks when they lie on their sheets. -/
theorem checkZones_eq_ok_iff {w : Workbook} {zones : List Zone} :
    zones.forM w.checkZone = .ok () ↔ w.holds zones = true := by
  rw [Edit.forM_eq_ok_iff]
  simp only [holds, List.all_eq_true, checkZone_eq_ok_iff]

/-- An edit of zones is done when they lie on their sheets. -/
theorem perform_checkZones (w : Workbook) (zones : List Zone) (change : Workbook → Workbook) :
    ((do
      zones.forM fun z => Edit.check (·.checkZone z)
      Edit.apply change
      Edit.recalculate : Edit Unit).perform w).2 =
      if w.holds zones then (change w).recalculate else w := by
  rw [Edit.perform_bind, Edit.perform_forM_check (fun z => Edit.perform_check (·.checkZone z))]
  by_cases pass : w.holds zones = true
  · rw [checkZones_eq_ok_iff.mpr pass, if_pos pass]
    rfl
  · rw [if_neg pass]
    cases found : zones.forM fun z => w.checkZone z with
    | ok _ => exact absurd (checkZones_eq_ok_iff.mp found) pass
    | error e => rfl

/-- Room can be made for a position on a sheet that exists. -/
theorem perform_ensureRoom {w : Workbook} {p : Position}
    (exist : (w.sheet? p.sheet).isSome = true) :
    (Edit.ensureRoom p).perform w = (.ok (), w.growTo p) := by
  obtain ⟨s, found⟩ := Option.isSome_iff_exists.mp exist
  simp [Edit.ensureRoom, Workbook.sheet, found]

/-- Pasting a cell neither adds nor removes sheets. -/
theorem isSome_sheet?_pasted (clip : Clip) (mode : PasteMode) (w : Workbook)
    (pasting : ClipCell × Position) (id : SheetId) :
    ((pasted clip mode w pasting).sheet? id).isSome = (w.sheet? id).isSome := by
  unfold pasted
  rw [(sameSheets_pasteCell ..).isSome_sheet?, isSome_sheet?_growTo]

/-- Pasting the cells of a clip at one anchor neither adds nor removes sheets. -/
theorem isSome_sheet?_foldl_pasted (clip : Clip) (mode : PasteMode) (id : SheetId)
    (pastings : List (ClipCell × Position)) (w : Workbook) :
    ((pastings.foldl (pasted clip mode) w).sheet? id).isSome = (w.sheet? id).isSome :=
  List.foldlRecOn pastings _
    (motive := fun (w' : Workbook) => (w'.sheet? id).isSome = (w.sheet? id).isSome) rfl
    fun w' same pasting _ => (isSome_sheet?_pasted clip mode w' pasting id).trans same

/-- The anchors of a clip are on the sheet of the zone it is pasted into. -/
theorem sheet_of_mem_anchors {clip : Clip} {target : Zone} {anchor : Position}
    (listed : anchor ∈ Edit.anchors clip target) : anchor.sheet = target.sheet := by
  unfold Edit.anchors at listed
  split at listed
  · exact (Zone.contains_iff.mp (Zone.mem_positions.mp listed)).1
  · rw [List.mem_singleton.mp listed]
    rfl

/-- Looking for the sheets of zones finds them all if they exist. -/
theorem forM_sheet_eq_ok_iff {w : Workbook} {targets : List Zone} :
    (targets.forM fun z => (w.sheet z.sheet).map fun _ => ()) = .ok () ↔
      ∀ z ∈ targets, (w.sheet? z.sheet).isSome = true := by
  rw [Edit.forM_eq_ok_iff]
  refine forall₂_congr fun z _ => ?_
  unfold sheet
  cases w.sheet? z.sheet <;> simp [Except.map]

/-- Looking for the sheets of zones leaves the workbook as it is. -/
theorem perform_checkSheets (w : Workbook) (targets : List Zone) :
    (targets.forM fun z => do let _ ← Edit.check (·.sheet z.sheet) : Edit Unit).perform w =
      (targets.forM fun z => (w.sheet z.sheet).map fun _ => (), w) := by
  refine Edit.perform_forM_check (fun z => ?_) targets
  rw [Edit.perform_bind, Edit.perform_check]
  cases w.sheet z.sheet <;> rfl

/-- Pasting a clip where the sheets of all targets exist is not refused. -/
theorem perform_pasteCells_of_exist {w : Workbook} {targets : List Zone}
    (exist : ∀ z ∈ targets, (w.sheet? z.sheet).isSome = true) (clip : Clip) (mode : PasteMode) :
    (Edit.pasteCells clip targets mode).perform w =
      (.ok (), (w.pastedAll clip targets mode).recalculate) := by
  have cells : ∀ anchor ∈ targets.flatMap (Edit.anchors clip), ∀ w' : Workbook,
      (∀ z ∈ targets, (w'.sheet? z.sheet).isSome = true) →
        (clip.cells.forM fun cell => do
          Edit.ensureRoom (cell.placed anchor)
          Edit.apply (·.pasteCell cell (cell.placed clip.origin) (cell.placed anchor) mode) :
            Edit Unit).perform w' =
          (.ok (), (clip.cells.map fun cell => (cell, cell.placed anchor)).foldl
            (pasted clip mode) w') := by
    intro anchor listed w' exist'
    obtain ⟨z, target, inside⟩ := List.mem_flatMap.mp listed
    rw [List.foldl_map]
    refine Edit.perform_forM_step (fun w'' => (w''.sheet? anchor.sheet).isSome = true) ?_ ?_ ?_
    · intro cell _ w'' here
      rw [Edit.perform_bind, perform_ensureRoom (p := cell.placed anchor) here]
      rfl
    · intro cell _ w'' here
      rw [isSome_sheet?_pasted, here]
    · rw [sheet_of_mem_anchors inside, exist' z target]
  unfold Edit.pasteCells
  rw [Edit.perform_bind, perform_checkSheets, forM_sheet_eq_ok_iff.mpr exist]
  dsimp only
  rw [Edit.perform_bind, Edit.perform_forM_step
    (fun w' => ∀ z ∈ targets, (w'.sheet? z.sheet).isSome = true) cells ?_ exist]
  · dsimp only
    rw [Edit.perform_recalculate]
    simp only [pastedAll, pastings, List.foldl_flatMap]
  · intro anchor _ w' here z target
    rw [isSome_sheet?_foldl_pasted, here z target]

/-- Pasting a clip where the sheet of a target is missing is refused at once. -/
theorem perform_pasteCells_of_missing {w : Workbook} {targets : List Zone}
    (missing : ¬ ∀ z ∈ targets, (w.sheet? z.sheet).isSome = true) (clip : Clip)
    (mode : PasteMode) : ∃ e, (Edit.pasteCells clip targets mode).perform w = (.error e, w) := by
  unfold Edit.pasteCells
  rw [Edit.perform_bind, perform_checkSheets]
  cases refused : targets.forM fun z => (w.sheet z.sheet).map fun _ => () with
  | ok _ => exact absurd (forM_sheet_eq_ok_iff.mp refused) missing
  | error e => exact ⟨e, rfl⟩

/-- Pasting a clip is refused unless there are sheets to paste it on, and then nothing of it is. -/
theorem perform_pasteCells (w : Workbook) (clip : Clip) (targets : List Zone) (mode : PasteMode) :
    ((Edit.pasteCells clip targets mode).perform w).2 =
      match w.preparedPaste clip targets mode with
      | some w' => w'.recalculate
      | none => w := by
  unfold preparedPaste
  by_cases exist : ∀ z ∈ targets, (w.sheet? z.sheet).isSome = true
  · rw [perform_pasteCells_of_exist exist, if_pos (List.all_eq_true.mpr exist)]
  · obtain ⟨e, refused⟩ := perform_pasteCells_of_missing exist clip mode
    rw [refused, if_neg fun all => exist (List.all_eq_true.mp all)]

/-- Taking cells away leaves the sheets. -/
theorem sameSheets_taken (w : Workbook) (clip : Clip) : SameSheets w (w.taken clip) :=
  List.foldlRecOn clip.cells _ (motive := fun (w' : Workbook) => SameSheets w w') (.refl w)
    fun w' same _ _ => same.trans (sameSheets_clearCell w' _)

/-- Putting a cut cell down neither adds nor removes sheets. -/
theorem isSome_sheet?_placeCell (w : Workbook) (source : Zone) (anchor : Position)
    (cell : ClipCell) (p : Position) (id : SheetId) :
    (((w.growTo p).placeCell source anchor cell p).sheet? id).isSome = (w.sheet? id).isSome := by
  rw [(sameSheets_placeCell ..).isSome_sheet?, isSome_sheet?_growTo]

/-- Pasting a cut is not refused where the sheet of the target exists and the cells can be
copied. -/
theorem perform_pasteCut_of_copied {w : Workbook} {zones : List Zone} {target : Zone} {clip : Clip}
    (exists' : (w.sheet? target.sheet).isSome = true) (copied : w.copyCells zones = .ok clip)
    (rest : List Zone) :
    (Edit.pasteCut zones (target :: rest)).perform w =
      (.ok (), (w.moved clip target.topLeft).recalculate) := by
  obtain ⟨s, found⟩ := Option.isSome_iff_exists.mp exists'
  simp only [Edit.pasteCut, Edit.perform_bind, Edit.perform_check, Workbook.sheet, found, copied,
    Edit.perform_apply, Edit.perform_get]
  have exist : (((w.taken clip).redirectFormulas ((w.taken clip).follow clip
      target.topLeft)).sheet? target.sheet).isSome = true := by
    rw [isSome_sheet?_eq, extent?_redirectFormulas, ← isSome_sheet?_eq,
      (sameSheets_taken w clip).isSome_sheet?, exists']
  have placed : (clip.cells.forM fun cell => do
      Edit.ensureRoom (cell.placed target.topLeft)
      Edit.apply fun w => w.placeCell (.fromAnchor clip.origin clip.rows clip.columns)
        target.topLeft cell (cell.placed target.topLeft) : Edit Unit).perform
        ((w.taken clip).redirectFormulas ((w.taken clip).follow clip target.topLeft)) =
      (.ok (), putDown ((w.taken clip).redirectFormulas
        ((w.taken clip).follow clip target.topLeft)) clip target.topLeft) := by
    refine Edit.perform_forM_step (fun w' => (w'.sheet? target.sheet).isSome = true) ?_ ?_ exist
    · intro cell _ w' here
      rw [Edit.perform_bind, perform_ensureRoom (p := cell.placed target.topLeft) here]
      rfl
    · intro _ _ w' here
      rw [isSome_sheet?_placeCell, here]
  unfold follow taken at placed
  unfold moved follow taken
  rw [placed]
  rfl

/-- Pasting a cut is refused unless there is a place for it, and then nothing of it is. -/
theorem perform_pasteCut (w : Workbook) (zones targets : List Zone) :
    ((Edit.pasteCut zones targets).perform w).2 =
      match w.preparedMove zones targets with
      | some w' => w'.recalculate
      | none => w := by
  cases targets with
  | nil => rfl
  | cons target rest =>
    by_cases exists' : (w.sheet? target.sheet).isSome = true
    · cases copied : w.copyCells zones with
      | error e =>
        obtain ⟨s, found⟩ := Option.isSome_iff_exists.mp exists'
        simp [Edit.pasteCut, preparedMove, Workbook.sheet, found, copied, Except.toOption]
      | ok clip =>
        rw [perform_pasteCut_of_copied exists' copied]
        simp [preparedMove, exists', copied, Except.toOption]
    · rw [Option.not_isSome_iff_eq_none] at exists'
      simp [Edit.pasteCut, preparedMove, Workbook.sheet, exists']

/-- Rows or columns are not inserted beyond the sheet or where the sheet would become too long, and
nothing is done if there is none to insert. -/
theorem perform_insertLines (w : Workbook) (direction : Direction) (sheet : SheetId)
    (index count : Nat) :
    ((Edit.insertLines direction sheet index count).perform w).2 =
      match w.prepared (.insertLines direction sheet index count) with
      | some w' => w'.recalculate
      | none => w := by
  simp only [Edit.insertLines, prepared, Edit.perform_bind, Edit.perform_check, Workbook.sheet]
  cases found : w.sheet? sheet with
  | none => simp
  | some s =>
    by_cases inside : s.lines direction < index
    · have outside : ¬ (index ≤ s.lines direction) := by omega
      simp [inside, outside]
    · by_cases large : indexBound ≤ s.lines direction + count
      · have outside : ¬ (s.lines direction + count < indexBound) := by omega
        simp [inside, large, outside]
      · by_cases any : 0 < count
        · have fits : index ≤ s.lines direction ∧ s.lines direction + count < indexBound ∧
              0 < count := by omega
          simp [inside, large, fits]
        · simp [inside, large, any]

/-- Rows or columns are not deleted beyond the sheet or if none would be left, and nothing is done if
there is none to delete. -/
theorem perform_deleteLines (w : Workbook) (direction : Direction) (sheet : SheetId)
    (indices : List Nat) :
    ((Edit.deleteLines direction sheet indices).perform w).2 =
      match w.prepared (.deleteLines direction sheet indices) with
      | some w' => w'.recalculate
      | none => w := by
  simp only [Edit.deleteLines, prepared, Edit.perform_bind, Edit.perform_check, Workbook.sheet]
  cases found : w.sheet? sheet with
  | none => simp
  | some s =>
    dsimp only
    cases beyond : indices.find? fun i => decide (s.lines direction ≤ i) with
    | some i =>
      have listed := List.mem_of_find?_eq_some beyond
      have outside := List.find?_some beyond
      rw [decide_eq_true_eq] at outside
      have excess : ¬ ∀ i ∈ indices, i < s.lines direction := fun all => by
        have := all i listed
        omega
      simp [excess]
    | none =>
      have inside : ∀ i ∈ indices, i < s.lines direction := fun i listed => by
        have := List.find?_eq_none.mp beyond i listed
        simpa using this
      by_cases every : s.lines direction ≤ (distinctIndices indices).length
      · have excess : ¬ (distinctIndices indices).length < s.lines direction := by omega
        simp [every, excess]
      · have left : (distinctIndices indices).length < s.lines direction := by omega
        by_cases nothing : descendingRuns indices = []
        · simp [every, nothing]
        · have fits : (∀ i ∈ indices, i < s.lines direction) ∧
              (distinctIndices indices).length < s.lines direction ∧
                descendingRuns indices ≠ [] := ⟨inside, left, nothing⟩
          rw [Option.bind_some, if_pos fits]
          simp [every, nothing]

/-- A request is its change, if it makes one, and a recalculation. -/
theorem after_eq (w : Workbook) (request : Request) :
    w.after request =
      match w.prepared request with
      | some w' => w'.recalculate
      | none => w.clipped request := by
  unfold after
  cases request with
  | addSheet name rows columns =>
    simp only [Request.edit, Edit.addSheet, prepared]
    by_cases taken : (w.registry.id? name).isSome = true
    · simp [taken, clipped]
    · simp [taken]
  | deleteSheet name =>
    simp only [Request.edit, Edit.deleteSheet, prepared]
    cases found : w.registry.id? name with
    | none => simp [found, clipped]
    | some id =>
      by_cases last : w.registry.liveIds.length ≤ 1
      · simp [found, last, clipped]
      · simp [found, last]
  | setContent sheet row column text =>
    simp only [Request.edit, Edit.setContent, prepared, Edit.perform_bind, Edit.perform_check,
      Workbook.sheet]
    cases found : w.sheet? sheet with
    | none => simp [clipped]
    | some s =>
      by_cases inside : s.inBounds row column = true
      · simp [inside]
      · simp [inside, clipped]
  | deleteContent zones =>
    simp only [Request.edit, Edit.deleteContent, prepared]
    rw [perform_checkZones]
    by_cases pass : w.holds zones = true
    · simp [pass, emptied]
    · simp [pass, clipped]
  | setFormat zones format =>
    simp only [Request.edit, Edit.setFormat, prepared]
    rw [perform_checkZones]
    by_cases pass : w.holds zones = true
    · simp [pass, formatted]
    · simp [pass, clipped]
  | reevaluate positions => rfl
  | flush => rfl
  | insertLines direction sheet index count => exact w.perform_insertLines direction sheet index count
  | deleteLines direction sheet indices => exact w.perform_deleteLines direction sheet indices
  | copy zones =>
    simp only [Request.edit, Edit.copy, prepared, clipped, Edit.perform_bind, Edit.perform_check]
    cases w.copyCells zones with
    | ok clip => rfl
    | error e => rfl
  | cut zones =>
    simp only [Request.edit, Edit.cut, prepared, clipped, Edit.perform_bind, Edit.perform_check]
    cases w.copyCells zones with
    | ok clip => rfl
    | error e => rfl
  | paste targets mode =>
    simp only [Request.edit, Edit.paste, prepared, Edit.perform_bind, Edit.perform_get]
    cases found : w.clipboard with
    | none => rfl
    | some clipboard =>
      cases clipboard with
      | copied clip => exact perform_pasteCells w clip targets mode
      | cut zones =>
        dsimp only
        by_cases whole : mode = .everything
        · rw [if_pos whole, if_pos whole]
          exact perform_pasteCut w zones targets
        · rw [if_neg whole, if_neg whole]
          rfl
  | pasteCells clip targets mode => exact perform_pasteCells w clip targets mode

/-- What a request may prepare, and when. -/
inductive Prepares (w : Workbook) : Request → Workbook → Prop where
  | addSheet {name : String} {rows columns : Nat} (unknown : w.registry.id? name = none) :
    Prepares w (.addSheet name rows columns)
      (((w.insertSheet name rows columns).rebuildDependencies).markMentions w.registry.nextId)
  | deleteSheet {name : String} {id : SheetId} (known : w.registry.id? name = some id) :
    Prepares w (.deleteSheet name) ((w.eraseSheet id).redirectAndMark fun _ e =>
      e.invalidate? ((w.registry.name? id).getD name))
  | setContent {sheet : SheetId} {row column : Nat} {text : String} {s : Sheet}
    (found : w.sheet? sheet = some s) (inside : s.inBounds row column = true) :
    Prepares w (.setContent sheet row column text)
      (w.replaceContent ⟨sheet, row, column⟩ (.ofText text))
  | deleteContent {zones : List Zone} (held : w.holds zones = true) :
    Prepares w (.deleteContent zones) (w.emptied (zones.flatMap Zone.positions))
  | setFormat {zones : List Zone} {format : Option String} (held : w.holds zones = true) :
    Prepares w (.setFormat zones format) (w.formatted (zones.flatMap Zone.positions) format)
  | reevaluate {positions : List Position} :
    Prepares w (.reevaluate positions) (w.markDirty (positions.filter w.isFormula))
  | flush : Prepares w .flush w
  | insertLines {direction : Direction} {sheet : SheetId} {index count : Nat} {s : Sheet}
    (found : w.sheet? sheet = some s) :
    Prepares w (.insertLines direction sheet index count)
      (w.restructure sheet [⟨.insertion, direction, sheet, index, count⟩])
  | deleteLines {direction : Direction} {sheet : SheetId} {indices : List Nat} {s : Sheet}
    (found : w.sheet? sheet = some s) :
    Prepares w (.deleteLines direction sheet indices)
      (w.restructure sheet ((descendingRuns indices).map fun (start, count) =>
        ⟨.deletion, direction, sheet, start, count⟩))
  | paste {clip : Clip} {targets : List Zone} {mode : PasteMode}
    (waits : w.clipboard = some (.copied clip)) :
    Prepares w (.paste targets mode) (w.pastedAll clip targets mode)
  | move {zones : List Zone} {target : Zone} {rest : List Zone} {clip : Clip}
    (waits : w.clipboard = some (.cut zones)) (copied : w.copyCells zones = .ok clip) :
    Prepares w (.paste (target :: rest) .everything) (w.moved clip target.topLeft)
  | pasteCells {clip : Clip} {targets : List Zone} {mode : PasteMode} :
    Prepares w (.pasteCells clip targets mode) (w.pastedAll clip targets mode)

/-- A clip is pasted as a whole if it is. -/
theorem eq_of_preparedPaste {w w' : Workbook} {clip : Clip} {targets : List Zone} {mode : PasteMode}
    (found : w.preparedPaste clip targets mode = some w') : w.pastedAll clip targets mode = w' := by
  unfold preparedPaste at found
  split at found
  · exact Option.some.inj found
  · contradiction

/-- A cut is pasted at the first of the targets, if it is. -/
theorem exists_of_preparedMove {w w' : Workbook} {zones targets : List Zone}
    (found : w.preparedMove zones targets = some w') :
    ∃ target rest clip, targets = target :: rest ∧ w.copyCells zones = .ok clip ∧
      w.moved clip target.topLeft = w' := by
  cases targets with
  | nil => contradiction
  | cons target rest =>
    simp only [preparedMove] at found
    split at found
    · cases copied : w.copyCells zones with
      | error e =>
        rw [copied] at found
        contradiction
      | ok clip =>
        rw [copied] at found
        exact ⟨target, rest, clip, rfl, rfl, Option.some.inj found⟩
    · contradiction

/-- A prepared workbook is one that the request may prepare. -/
theorem prepares_of_prepared {w w' : Workbook} {request : Request}
    (found : w.prepared request = some w') : w.Prepares request w' := by
  cases request with
  | addSheet name rows columns =>
    simp only [prepared] at found
    split at found
    · contradiction
    · rename_i unknown
      obtain rfl := Option.some.inj found
      exact .addSheet (Option.not_isSome_iff_eq_none.mp unknown)
  | deleteSheet name =>
    obtain ⟨id, known, rest⟩ := Option.bind_eq_some_iff.mp found
    split at rest
    · contradiction
    · obtain rfl := Option.some.inj rest
      exact .deleteSheet known
  | setContent sheet row column text =>
    simp only [prepared] at found
    split at found
    · rename_i pass
      obtain rfl := Option.some.inj found
      obtain ⟨s, there, inside⟩ := (Option.any_eq_true _ _).mp pass
      exact .setContent there inside
    · contradiction
  | deleteContent zones =>
    simp only [prepared] at found
    split at found
    · rename_i held
      obtain rfl := Option.some.inj found
      exact .deleteContent held
    · contradiction
  | setFormat zones format =>
    simp only [prepared] at found
    split at found
    · rename_i held
      obtain rfl := Option.some.inj found
      exact .setFormat held
    · contradiction
  | reevaluate positions =>
    obtain rfl := Option.some.inj found
    exact .reevaluate
  | flush =>
    obtain rfl := Option.some.inj found
    exact .flush
  | insertLines direction sheet index count =>
    obtain ⟨s, there, rest⟩ := Option.bind_eq_some_iff.mp found
    split at rest
    · obtain rfl := Option.some.inj rest
      exact .insertLines there
    · contradiction
  | deleteLines direction sheet indices =>
    obtain ⟨s, there, rest⟩ := Option.bind_eq_some_iff.mp found
    split at rest
    · obtain rfl := Option.some.inj rest
      exact .deleteLines there
    · contradiction
  | copy zones => contradiction
  | cut zones => contradiction
  | paste targets mode =>
    simp only [prepared] at found
    split at found
    · contradiction
    · rename_i clip waits
      obtain rfl := eq_of_preparedPaste found
      exact .paste waits
    · rename_i zones waits
      split at found
      · rename_i whole
        obtain ⟨target, rest, clip, rfl, copied, rfl⟩ := exists_of_preparedMove found
        subst whole
        exact .move waits copied
      · contradiction
  | pasteCells clip targets mode =>
    obtain rfl := eq_of_preparedPaste found
    exact .pasteCells

end Workbook

end Spreadsheet
