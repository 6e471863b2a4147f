import Spreadsheet.Proofs.Workbook.PreparedArrays

/-!
# Arrays between requests

Whatever is asked of a workbook, in whatever order and whether the rounds of a recalculation run out
or not, arrays are exclusive and sheets have numbers again once the request is done. All that is
needed is that no more sheets are ever added than there are numbers for them.
-/
namespace Spreadsheet

namespace Workbook

variable {w w' : Workbook}

namespace Ready

/-! ### Changes of cells -/

/-- Deleting content keeps arrays ready. -/
theorem emptied (ready : w.Ready) (positions : List Position) : (w.emptied positions).Ready :=
  emptied_induction (P := Ready) ready (fun _ p _ kept => kept.replaceContent p .empty) positions

/-- Choosing a format for positions keeps arrays ready. -/
theorem formatted (ready : w.Ready) (positions : List Position) (format : Option String) :
    (w.formatted positions format).Ready :=
  formatted_induction (P := Ready) ready fun _ p _ kept => kept.chooseFormat p format

/-- Pasting a copied cell keeps arrays ready. -/
theorem pasteCell (ready : w.Ready) (cell : ClipCell) (source target : Position)
    (mode : PasteMode) : (w.pasteCell cell source target mode).Ready := by
  cases mode with
  | everything => exact (ready.replaceContent target _).chooseFormat target cell.format
  | value => exact ready.replaceContent target _
  | format => exact ready.chooseFormat target cell.shownFormat

/-- Pasting a clip keeps arrays ready. -/
theorem pastedAll (ready : w.Ready) (clip : Clip) (targets : List Zone) (mode : PasteMode) :
    (w.pastedAll clip targets mode).Ready :=
  pastedAll_induction (P := Ready) ready (fun _ _ _ kept => (kept.growTo _).pasteCell ..) targets

/-- Taking the cells of a clip away keeps arrays ready. -/
theorem taken (ready : w.Ready) (clip : Clip) : (w.taken clip).Ready :=
  List.foldlRecOn clip.cells _ (motive := Ready) ready fun _ kept _ _ => kept.clearCell _

/-- Putting the cells of a clip down keeps arrays ready. -/
theorem putDown (ready : w.Ready) (clip : Clip) (anchor : Position) :
    (w.putDown clip anchor).Ready :=
  List.foldlRecOn clip.cells _ (motive := Ready) ready fun _ kept _ _ =>
    ((kept.growTo _).replaceContent _ _).chooseFormat _ _

/-- Moving the cells of a clip keeps arrays ready. -/
theorem moved (ready : w.Ready) (clip : Clip) (anchor : Position) :
    (w.moved clip anchor).Ready := by
  have redirected := (ready.taken clip).redirectFormulas ((w.taken clip).follow clip anchor)
  have marked := (redirected.putDown clip anchor).rebuildDependencies.markDirty
    ((w.taken clip).redirected ((w.taken clip).follow clip anchor))
  exact marked.of_contents rfl (fun _ => rfl) (fun _ => rfl) (fun _ => rfl) fun _ held => held

/-! ### Changes of sheets -/

/-- Forgetting what waits to be pasted keeps arrays ready. -/
theorem filterClipboard (ready : w.Ready) (keep : Clipboard → Bool) :
    Ready { w with clipboard := w.clipboard.filter keep } :=
  ready.of_contents rfl (fun _ => rfl) (fun _ => rfl) (fun _ => rfl) fun _ held => held

/-- A shift of a sheet without arrays keeps arrays ready and that sheet without any. -/
theorem applyShift (ready : w.Ready) (s : Shift)
    (bare : ∀ a, a.sheet = s.sheet → w.spills.state? a = none) :
    (w.applyShift s).Ready ∧ (w.applyShift s).spills = w.spills := by
  have moved : (w.updateSheet s.sheet (moveCells s)).Ready :=
    ready.elsewhere s.sheet bare rfl
      (fun other away => by rw [sheet?_updateSheet, if_neg away]) fun _ _ held => held
  exact ⟨(moved.redirectFormulas _).markDirty _, rfl⟩

/-- Shifts of one sheet, whose results are forgotten first, keep arrays ready. -/
theorem restructure (ready : w.Ready) {sheet : SheetId} {shifts : List Shift}
    (local' : ∀ s ∈ shifts, s.sheet = sheet) : (w.restructure sheet shifts).Ready := by
  have forgotten := (ready.filterClipboard fun c => !shifts.any fun s => c.isEndedBy s).forgetResults
    sheet
  have shifted := List.foldlRecOn shifts Workbook.applyShift
    (motive := fun (w' : Workbook) => w'.Ready ∧
      ∀ a, a.sheet = sheet → w'.spills.state? a = none)
    ⟨forgotten, fun a here => by
      rw [Workbook.forgetResults, Spills.state?_clearSheet, if_pos here]⟩
    fun w' kept s listed => by
      obtain ⟨shifted, same⟩ := kept.1.applyShift s fun a here =>
        kept.2 a (by rw [here, local' s listed])
      exact ⟨shifted, by rw [same]; exact kept.2⟩
  exact shifted.1.rebuildDependencies.markDirty _

/-- Taking a sheet away keeps arrays ready. -/
theorem eraseSheet (ready : w.Ready) (id : SheetId) : (w.eraseSheet id).Ready := by
  have forgotten := (ready.filterClipboard fun c => c.sheet != id).forgetResults id
  refine forgotten.elsewhere id (fun a here => ?_) rfl (fun other away => ?_) fun _ _ held => held
  · rw [Workbook.forgetResults, Spills.state?_clearSheet, if_pos here]
  · unfold sheet? Workbook.eraseSheet Workbook.forgetResults
    dsimp only
    rw [Std.ExtTreeMap.getElem?_erase,
      if_neg fun same => away (Std.LawfulEqOrd.eq_of_compare same).symm]

/-- Adding a sheet under a fresh number keeps arrays ready. -/
theorem insertSheet (ready : w.Ready) {name : String} {rows columns : Nat}
    (fresh : ¬ (w.sheet? w.registry.nextId).isSome = true) :
    (w.insertSheet name rows columns).Ready := by
  refine ready.elsewhere w.registry.nextId (fun a here => ?_) rfl (fun other away => ?_)
    fun _ _ held => held
  · cases found : w.spills.state? a with
    | none => rfl
    | some state =>
      obtain ⟨f, formula⟩ := Option.isSome_iff_exists.mp
        (ready.arranged.formula a (by rw [found]; rfl))
      exact absurd (isSome_sheet?_of_formula? formula) (by rw [here]; exact fresh)
  · unfold sheet? Workbook.insertSheet
    dsimp only
    rw [Std.ExtTreeMap.getElem?_insert,
      if_neg fun same => away (Std.LawfulEqOrd.eq_of_compare same).symm]

/-- Redirecting references and marking what changes keeps arrays ready. -/
theorem redirectAndMark (ready : w.Ready) (redirect : SheetId → Expr → Option Expr) :
    (w.redirectAndMark redirect).Ready :=
  (ready.redirectFormulas redirect).rebuildDependencies.markDirty _

end Ready

/-! ### Numbers of sheets -/

/-- Every sheet has a number that was given to a name. -/
def Numbered (w : Workbook) : Prop :=
  ∀ id, (w.sheet? id).isSome = true → id < w.registry.names.length

/-- Sheets keep their numbers where no sheet is added and no name is lost. -/
theorem Numbered.of_subset (numbered : w.Numbered)
    (sheets : ∀ id, (w'.sheet? id).isSome = true → (w.sheet? id).isSome = true)
    (names : w'.registry.names.length = w.registry.names.length) : w'.Numbered := fun id exist => by
  rw [names]
  exact numbered id (sheets id exist)

/-- The same names are registered and the same sheets exist. -/
structure SameNumbers (w w' : Workbook) : Prop where
  registry : w'.registry = w.registry
  sheets : ∀ id, (w'.sheet? id).isSome = (w.sheet? id).isSome

namespace SameNumbers

/-- A workbook has the sheets of itself. -/
theorem refl (w : Workbook) : SameNumbers w w := ⟨rfl, fun _ => rfl⟩

/-- Sheets that exist after two steps are those that existed. -/
theorem trans {w'' : Workbook} (first : SameNumbers w w') (second : SameNumbers w' w'') :
    SameNumbers w w'' :=
  ⟨second.registry.trans first.registry, fun id => (second.sheets id).trans (first.sheets id)⟩

/-- The same sheets exist where sheets stay as they are. -/
theorem of_sameSheets (same : SameSheets w w') : SameNumbers w w' :=
  ⟨same.registry, same.isSome_sheet?⟩

/-- Enlarging a sheet neither adds nor removes any. -/
theorem growTo (w : Workbook) (p : Position) : SameNumbers w (w.growTo p) :=
  ⟨registry_growTo w p, isSome_sheet?_growTo w p⟩

/-- Redirecting references neither adds nor removes sheets. -/
theorem redirectFormulas (w : Workbook) (redirect : SheetId → Expr → Option Expr) :
    SameNumbers w (w.redirectFormulas redirect) :=
  ⟨rfl, fun id => by rw [isSome_sheet?_eq, isSome_sheet?_eq, extent?_redirectFormulas]⟩

/-- Pasting a clip neither adds nor removes sheets. -/
theorem pastedAll (w : Workbook) (clip : Clip) (targets : List Zone) (mode : PasteMode) :
    SameNumbers w (w.pastedAll clip targets mode) :=
  pastedAll_induction (P := SameNumbers w) (refl w) (fun w' _ _ same =>
    same.trans ((growTo w' _).trans (of_sameSheets (sameSheets_pasteCell ..)))) targets

/-- Moving cells neither adds nor removes sheets. -/
theorem moved (w : Workbook) (clip : Clip) (anchor : Position) :
    SameNumbers w (w.moved clip anchor) := by
  have taken := of_sameSheets (sameSheets_taken w clip)
  have redirected := taken.trans
    (redirectFormulas _ ((w.taken clip).follow clip anchor))
  have put : SameNumbers w
      (((w.taken clip).redirectFormulas ((w.taken clip).follow clip anchor)).putDown clip anchor) :=
    List.foldlRecOn clip.cells _ (motive := SameNumbers w) redirected fun w' same cell _ =>
      same.trans ((growTo w' _).trans (of_sameSheets (sameSheets_placeCell ..)))
  exact ⟨put.registry, put.sheets⟩

/-- Shifting a sheet neither adds nor removes any. -/
theorem restructure (w : Workbook) (sheet : SheetId) (shifts : List Shift) :
    SameNumbers w (w.restructure sheet shifts) := by
  have step : ∀ (w : Workbook) (s : Shift), SameNumbers w (w.applyShift s) := fun w s => by
    have moved : SameNumbers w (w.updateSheet s.sheet (moveCells s)) := ⟨rfl, fun id => by
      rw [sheet?_updateSheet]
      split
      · rename_i here
        rw [here, Option.isSome_map]
      · rfl⟩
    have both := moved.trans (redirectFormulas _
      ((w.updateSheet s.sheet (moveCells s)).shiftRedirection s))
    exact ⟨both.registry, both.sheets⟩
  have run := List.foldlRecOn shifts Workbook.applyShift (motive := SameNumbers w)
    (b := Workbook.forgetResults
      { w with clipboard := w.clipboard.filter fun c => !shifts.any fun s => c.isEndedBy s } sheet)
    ⟨rfl, fun _ => rfl⟩ fun w' same s _ => same.trans (step w' s)
  exact ⟨run.registry, run.sheets⟩

end SameNumbers

/-- A request adds a sheet under a new name, deletes one or prepares a workbook with the same
sheets. -/
theorem Prepares.cases_sheets {request : Request} (prepares : w.Prepares request w') :
    SameNumbers w w' ∨
      (∃ name rows columns, request = .addSheet name rows columns ∧ w.registry.id? name = none ∧
        SameNumbers (w.insertSheet name rows columns) w') ∨
        ∃ id, SameNumbers (w.eraseSheet id) w' := by
  cases prepares with
  | addSheet unknown => exact .inr (.inl ⟨_, _, _, rfl, unknown, ⟨rfl, fun _ => rfl⟩⟩)
  | @deleteSheet name id =>
    have redirected := SameNumbers.redirectFormulas (w.eraseSheet id) fun _ e =>
      e.invalidate? ((w.registry.name? id).getD name)
    exact .inr (.inr ⟨_, redirected.registry, redirected.sheets⟩)
  | setContent => exact .inl (.of_sameSheets (sameSheets_replaceContent ..))
  | deleteContent =>
    exact .inl (emptied_induction (P := SameNumbers w) (.refl w) (fun _ _ _ same =>
      same.trans (.of_sameSheets (sameSheets_replaceContent ..))) _)
  | setFormat =>
    exact .inl (formatted_induction (P := SameNumbers w) (.refl w) fun _ _ _ same =>
      same.trans (.of_sameSheets (sameSheets_chooseFormat ..)))
  | reevaluate => exact .inl ⟨rfl, fun _ => rfl⟩
  | flush => exact .inl (.refl w)
  | insertLines => exact .inl (.restructure ..)
  | deleteLines => exact .inl (.restructure ..)
  | paste => exact .inl (.pastedAll ..)
  | move => exact .inl (.moved ..)
  | pasteCells => exact .inl (.pastedAll ..)

/-- One more name is registered when a sheet is added. -/
theorem length_names_add (r : Registry) (name : String) :
    (r.add name).names.length = r.names.length + 1 := by
  simp

/-- No number is given back when a sheet is deleted. -/
theorem length_names_remove (r : Registry) (id : SheetId) :
    (r.remove id).names.length = r.names.length := by
  unfold Registry.remove
  split
  · exact Array.size_setIfInBounds
  · rfl

/-- No name is forgotten when a request is prepared. -/
theorem Prepares.names_le {request : Request} (prepares : w.Prepares request w') :
    w.registry.names.length ≤ w'.registry.names.length := by
  rcases prepares.cases_sheets with same | ⟨name, rows, columns, _, _, same⟩ | ⟨id, same⟩
  · rw [same.registry]
  · rw [same.registry]
    show _ ≤ (w.registry.add name).names.length
    rw [length_names_add]
    exact Nat.le_succ _
  · rw [same.registry]
    show _ ≤ (w.registry.remove id).names.length
    rw [length_names_remove]

/-- The number of the next sheet is fresh as long as there are numbers left. -/
theorem nextId_eq {r : Registry} (name : String)
    (few : (r.add name).names.length ≤ sheetIdBound) : r.nextId = r.names.length := by
  rw [length_names_add] at few
  exact Nat.mod_eq_of_lt few

/-- A request prepares a workbook whose sheets have numbers. -/
theorem Numbered.prepares (numbered : w.Numbered) {request : Request}
    (prepares : w.Prepares request w') (few : w'.registry.names.length ≤ sheetIdBound) :
    w'.Numbered := by
  rcases prepares.cases_sheets with same | ⟨name, rows, columns, _, _, same⟩ | ⟨id, same⟩
  · exact numbered.of_subset (fun id exist => by rwa [same.sheets] at exist) (by rw [same.registry])
  · have bound : (w.registry.add name).names.length ≤ sheetIdBound := by
      rw [same.registry] at few
      exact few
    have extended : (w.insertSheet name rows columns).Numbered := by
      intro id exist
      show id < (w.registry.add name).names.length
      unfold sheet? insertSheet at exist
      dsimp only at exist
      rw [Std.ExtTreeMap.getElem?_insert] at exist
      rw [length_names_add]
      split at exist
      · rename_i here
        rw [← Std.LawfulEqOrd.eq_of_compare here, nextId_eq name bound]
        exact Nat.lt_succ_self _
      · exact lt_trans (numbered id exist) (Nat.lt_succ_self _)
    exact extended.of_subset (fun id exist => by rwa [same.sheets] at exist) (by rw [same.registry])
  · have reduced : (w.eraseSheet id).Numbered := by
      refine numbered.of_subset (fun other exist => ?_) (length_names_remove w.registry id)
      unfold sheet? eraseSheet forgetResults at exist
      dsimp only at exist
      rw [Std.ExtTreeMap.getElem?_erase] at exist
      split at exist
      · contradiction
      · exact exist
    exact reduced.of_subset (fun id exist => by rwa [same.sheets] at exist) (by rw [same.registry])

/-- A request prepares a workbook whose arrays are ready. -/
theorem Ready.prepares (ready : w.Ready) (numbered : w.Numbered) {request : Request}
    (prepares : w.Prepares request w') (few : w'.registry.names.length ≤ sheetIdBound) : w'.Ready := by
  cases prepares with
  | @addSheet name rows columns =>
    have fresh : ¬ (w.sheet? w.registry.nextId).isSome = true := fun exist => by
      have below := numbered _ exist
      rw [nextId_eq name few] at below
      exact lt_irrefl _ below
    exact (ready.insertSheet fresh).rebuildDependencies.markDirty _
  | deleteSheet => exact (ready.eraseSheet _).redirectAndMark _
  | setContent => exact ready.replaceContent _ _
  | deleteContent => exact ready.emptied _
  | setFormat => exact ready.formatted _ _
  | reevaluate => exact ready.markDirty _
  | flush => exact ready
  | insertLines =>
    exact ready.restructure fun s listed => by rw [List.mem_singleton.mp listed]
  | deleteLines =>
    refine ready.restructure fun s listed => ?_
    obtain ⟨_, _, rfl⟩ := List.mem_map.mp listed
    rfl
  | paste => exact ready.pastedAll _ _ _
  | move => exact ready.moved _ _
  | pasteCells => exact ready.pastedAll _ _ _

/-! ### Requests -/

/-- Arrays are exclusive and sheets have numbers, as they are between requests. -/
structure AtRest (w : Workbook) : Prop where
  arranged : w.Arranged fun _ => False
  numbered : w.Numbered

/-- A new workbook is at rest. -/
theorem atRest_new (settings : Settings) (functions : FunctionTable) :
    (new settings functions).AtRest where
  arranged :=
    { exclusive := Spills.exclusive_empty
      formula := fun a found => by
        rw [new, Spills.state?_empty] at found
        contradiction
      room := fun a zone active => by
        rw [new, Spills.activeZone?_empty] at active
        contradiction }
  numbered id exist := by
    unfold sheet? new at exist
    dsimp only at exist
    rw [Std.ExtTreeMap.getElem?_insert] at exist
    split at exist
    · rename_i here
      rw [← Std.LawfulEqOrd.eq_of_compare here]
      exact Nat.one_pos
    · simp at exist

/-- No name is forgotten when a request is done. -/
theorem names_le_after (w : Workbook) (request : Request) :
    w.registry.names.length ≤ (w.after request).registry.names.length := by
  rw [after_eq]
  cases found : w.prepared request with
  | some w' =>
    dsimp only
    rw [w'.sameSources_recalculate.registry]
    exact (prepares_of_prepared found).names_le
  | none =>
    dsimp only
    rw [clipped_eq]

/-- A request leaves a workbook at rest, whether the rounds of its recalculation run out or not. -/
theorem AtRest.after (rest : w.AtRest) {request : Request}
    (few : (w.after request).registry.names.length ≤ sheetIdBound) : (w.after request).AtRest := by
  rw [after_eq] at few ⊢
  cases found : w.prepared request with
  | some w' =>
    rw [found] at few
    dsimp only at few ⊢
    have same := w'.sameSources_recalculate
    rw [same.registry] at few
    have prepares := prepares_of_prepared found
    have ready := (Ready.of_arranged rest.arranged).prepares rest.numbered prepares few
    refine ⟨arranged_recalculate ready.arranged, ?_⟩
    exact (rest.numbered.prepares prepares few).of_subset
      (fun id exist => by rwa [same.isSome_sheet?] at exist) (by rw [same.registry])
  | none =>
    dsimp only
    rw [clipped_eq]
    have arranged := rest.arranged
    exact ⟨⟨arranged.exclusive, arranged.formula, arranged.room⟩, rest.numbered⟩

end Workbook

end Spreadsheet
