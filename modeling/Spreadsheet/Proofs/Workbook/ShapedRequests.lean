import Spreadsheet.Proofs.Workbook.MovedCells
import Spreadsheet.Proofs.Workbook.Requests
import Spreadsheet.Proofs.Workbook.ShapedRounds

/-!
# Rectangular values through requests

What is typed, copied, moved and redirected is rectangular if what it comes from is.
-/
namespace Spreadsheet

/-- A request that pastes given cells is given rectangular ones. -/
def Request.Rectangular : Request → Prop
  | .pasteCells clip _ _ => clip.Rectangular
  | _ => True

namespace Workbook

variable {w w' : Workbook} {p : Position}

/-! ### Pasted contents -/

/-- Copied content stays rectangular. -/
theorem rectangular_copiedContent (w : Workbook) {content : Content} (shape : content.Rectangular)
    (source target : Position) : (w.copiedContent content source target).Rectangular := by
  cases content with
  | empty => exact shape
  | literal typed v => exact shape
  | formula f =>
    unfold copiedContent copiedFormula
    dsimp only
    split
    · rename_i e' found
      obtain ⟨e, tree, changed⟩ := Option.bind_eq_some_iff.mp found
      exact shape.cleared.withExpr ((shape.cleared.tree_of tree).offset? changed)
    · exact shape.cleared

/-- Cut content stays rectangular. -/
theorem rectangular_movedContent (w : Workbook) {content : Content} (shape : content.Rectangular)
    (source : Zone) (anchor : Position) : (w.movedContent source anchor content).Rectangular := by
  cases content with
  | empty => exact shape
  | literal typed v => exact shape
  | formula f =>
    unfold movedContent
    dsimp only
    split
    · rename_i e' found
      obtain ⟨e, tree, changed⟩ := Option.bind_eq_some_iff.mp found
      exact shape.cleared.withExpr ((shape.cleared.tree_of tree).redirect? changed)
    · exact shape.cleared

/-- A rectangular value makes rectangular content. -/
theorem rectangular_contentOfValue {v : Value} (shape : v.Rectangular) :
    (contentOfValue v).Rectangular := by
  unfold contentOfValue
  split
  · exact .empty
  · exact .literal shape

/-- Copied cells of a workbook are rectangular. -/
theorem Shaped.rectangular_copyCells (shaped : w.Shaped) {zones : List Zone} {clip : Clip}
    (copied : w.copyCells zones = .ok clip) : clip.Rectangular := by
  unfold copyCells at copied
  split at copied
  · contradiction
  · obtain ⟨_, _, rest⟩ := exists_of_bind_eq_ok copied
    obtain rfl := Except.ok.inj rest
    intro cell listed
    obtain ⟨p, _, rfl⟩ := List.mem_map.mp listed
    exact ⟨shaped.content p, shaped.value p⟩

namespace Shaped

/-- Deleting content keeps a workbook shaped. -/
theorem emptied (shaped : w.Shaped) (positions : List Position) : (w.emptied positions).Shaped :=
  emptied_induction (P := Shaped) shaped (fun _ p _ kept => kept.replaceContent p .empty) positions

/-- Choosing a format for positions keeps a workbook shaped. -/
theorem formatted (shaped : w.Shaped) (positions : List Position) (format : Option String) :
    (w.formatted positions format).Shaped :=
  formatted_induction (P := Shaped) shaped fun _ p _ kept => kept.chooseFormat p format

/-- Enlarging a sheet keeps a workbook shaped. -/
theorem growTo (shaped : w.Shaped) (p : Position) : (w.growTo p).Shaped :=
  shaped.congr (fun q => by rw [content_growTo]; exact shaped.content q) (spills_growTo w p)
    (functions_growTo w p) (clipboard_growTo w p)

/-- Pasting a copied cell keeps a workbook shaped. -/
theorem pasteCell (shaped : w.Shaped) {cell : ClipCell} (shape : cell.Rectangular)
    (source target : Position) (mode : PasteMode) :
    (w.pasteCell cell source target mode).Shaped := by
  cases mode with
  | everything =>
    exact (shaped.replaceContent target
      (w.rectangular_copiedContent shape.content source target)).chooseFormat target cell.format
  | value => exact shaped.replaceContent target (rectangular_contentOfValue shape.value)
  | format => exact shaped.chooseFormat target cell.shownFormat

/-- Pasting a clip keeps a workbook shaped. -/
theorem pastedAll (shaped : w.Shaped) {clip : Clip} (shape : clip.Rectangular)
    (targets : List Zone) (mode : PasteMode) : (w.pastedAll clip targets mode).Shaped :=
  pastedAll_induction (P := Shaped) shaped (fun _ pasting member kept =>
    (kept.growTo _).pasteCell (shape pasting.1 member) _ _ mode) targets

/-- Clearing a cell keeps a workbook shaped. -/
theorem clearCell (shaped : w.Shaped) (p : Position) : (w.clearCell p).Shaped := by
  unfold Workbook.clearCell
  split
  · exact (shaped.replaceContent p .empty).chooseFormat p none
  · exact shaped

/-- Taking the cells of a clip away keeps a workbook shaped. -/
theorem taken (shaped : w.Shaped) (clip : Clip) : (w.taken clip).Shaped :=
  List.foldlRecOn clip.cells _ (motive := Shaped) shaped fun _ kept _ _ => kept.clearCell _

/-- Putting the cells of a clip down keeps a workbook shaped. -/
theorem putDown (shaped : w.Shaped) {clip : Clip} (shape : clip.Rectangular) (anchor : Position) :
    (w.putDown clip anchor).Shaped := by
  refine List.foldlRecOn clip.cells _ (motive := Shaped) shaped fun w' kept cell listed => ?_
  exact ((kept.growTo _).replaceContent _
    (rectangular_movedContent _ (shape cell listed).content _ _)).chooseFormat _ _

/-- Moving the cells of a clip keeps a workbook shaped. -/
theorem moved (shaped : w.Shaped) {clip : Clip} (shape : clip.Rectangular) (anchor : Position) :
    (w.moved clip anchor).Shaped := by
  have redirected : ((w.taken clip).redirectFormulas ((w.taken clip).follow clip anchor)).Shaped :=
    (shaped.taken clip).redirectFormulas fun _ _ _ changed tree => tree.redirect? changed
  have put := redirected.putDown shape anchor
  exact ⟨put.content, put.states, put.functions, fun _ none => by contradiction⟩

/-- Forgetting what waits to be pasted keeps a workbook shaped. -/
theorem filterClipboard (shaped : w.Shaped) (keep : Clipboard → Bool) :
    Shaped { w with clipboard := w.clipboard.filter keep } :=
  ⟨shaped.content, shaped.states, shaped.functions, fun clip found =>
    shaped.clipboard clip (Option.filter_eq_some_iff.mp found).1⟩

/-- Forgetting the results of a sheet keeps a workbook shaped. -/
theorem forgetResults (shaped : w.Shaped) (id : SheetId) : (w.forgetResults id).Shaped := by
  refine ⟨shaped.content, fun a state found => ?_, shaped.functions, shaped.clipboard⟩
  rw [Workbook.forgetResults, Spills.state?_clearSheet] at found
  split at found
  · contradiction
  · exact shaped.states a state found

/-- A shift of a sheet keeps a workbook shaped. -/
theorem applyShift (shaped : w.Shaped) (s : Shift) : (w.applyShift s).Shaped := by
  have moved : (w.updateSheet s.sheet (moveCells s)).Shaped := by
    refine shaped.congr (fun q => ?_) rfl rfl rfl
    rcases w.content_moveCells s q with blank | ⟨p, same⟩
    · rw [blank]
      exact .empty
    · rw [same]
      exact shaped.content p
  have redirected : ((w.updateSheet s.sheet (moveCells s)).redirectFormulas
      ((w.updateSheet s.sheet (moveCells s)).shiftRedirection s)).Shaped :=
    moved.redirectFormulas fun _ _ _ changed tree => tree.redirect? changed
  exact redirected.congr redirected.content rfl rfl rfl

/-- Shifts of one sheet keep a workbook shaped. -/
theorem restructure (shaped : w.Shaped) (sheet : SheetId) (shifts : List Shift) :
    (w.restructure sheet shifts).Shaped := by
  have forgotten := (shaped.filterClipboard fun c => !shifts.any fun s => c.isEndedBy s).forgetResults
    sheet
  have shifted := List.foldlRecOn shifts Workbook.applyShift (motive := Shaped) forgotten
    fun _ kept s _ => kept.applyShift s
  exact shifted.congr shifted.content rfl rfl rfl

/-- Taking a sheet away keeps a workbook shaped. -/
theorem eraseSheet (shaped : w.Shaped) (id : SheetId) : (w.eraseSheet id).Shaped := by
  have forgotten := (shaped.filterClipboard fun c => c.sheet != id).forgetResults id
  refine forgotten.congr (fun q => ?_) rfl rfl rfl
  rw [content_eraseSheet]
  split
  · exact .empty
  · exact shaped.content q

/-- Adding a sheet keeps a workbook shaped. -/
theorem insertSheet (shaped : w.Shaped) (name : String) (rows columns : Nat) :
    (w.insertSheet name rows columns).Shaped := by
  refine shaped.congr (fun q => ?_) rfl rfl rfl
  rw [content_insertSheet]
  split
  · exact .empty
  · exact shaped.content q

/-- Redirecting references and marking what changes keeps a workbook shaped. -/
theorem redirectAndMark (shaped : w.Shaped) {redirect : SheetId → Expr → Option Expr}
    (kept : ∀ id e e', redirect id e = some e' → e.Rectangular → e'.Rectangular) :
    (w.redirectAndMark redirect).Shaped := by
  have redirected := shaped.redirectFormulas kept
  exact redirected.congr redirected.content rfl rfl rfl

/-- A request with rectangular cells prepares a shaped workbook. -/
theorem prepares (shaped : w.Shaped) {request : Request} (shape : request.Rectangular)
    (prepares : w.Prepares request w') : w'.Shaped := by
  cases prepares with
  | @addSheet name rows columns =>
    have inserted := shaped.insertSheet name rows columns
    exact inserted.congr inserted.content rfl rfl rfl
  | deleteSheet =>
    exact (shaped.eraseSheet _).redirectAndMark fun _ _ _ changed tree => tree.redirect? changed
  | setContent => exact shaped.replaceContent _ (Content.rectangular_ofText _)
  | deleteContent => exact shaped.emptied _
  | setFormat => exact shaped.formatted _ _
  | reevaluate => exact shaped.congr shaped.content rfl rfl rfl
  | flush => exact shaped
  | insertLines => exact shaped.restructure _ _
  | deleteLines => exact shaped.restructure _ _
  | paste waits => exact shaped.pastedAll (shaped.clipboard _ waits) _ _
  | move waits copied => exact shaped.moved (shaped.rectangular_copyCells copied) _
  | pasteCells => exact shaped.pastedAll shape _ _

/-- A request with rectangular cells leaves a shaped workbook. -/
theorem after (shaped : w.Shaped) {request : Request} (shape : request.Rectangular) :
    (w.after request).Shaped := by
  rw [after_eq]
  cases found : w.prepared request with
  | some w' => exact (shaped.prepares shape (prepares_of_prepared found)).recalculate
  | none =>
    dsimp only
    -- Only the clipboard changes, and what it holds is copied from the workbook.
    have noted : ∀ clipboard : Option Clipboard,
        (∀ clip, clipboard = some (.copied clip) → clip.Rectangular) →
          Shaped { w with clipboard := clipboard } := fun clipboard shapes =>
      ⟨shaped.content, shaped.states, shaped.functions, shapes⟩
    unfold clipped
    split
    · split
      · rename_i clip copied
        refine noted _ fun other same => ?_
        rw [← Clipboard.copied.inj (Option.some.inj same)]
        exact shaped.rectangular_copyCells copied
      · exact shaped
    · split
      · refine noted _ fun other same => ?_
        have kinds := Option.some.inj same
        contradiction
      · exact shaped
    · exact shaped

end Shaped

/-- A new workbook is shaped. -/
theorem shaped_new (settings : Settings) {functions : FunctionTable}
    (keeps : ∀ f ∈ functions.functions, f.KeepsRectangular) : (new settings functions).Shaped where
  content p := by
    rw [content, cell?_new]
    exact .empty
  states a state found := by
    rw [new, Spills.state?_empty] at found
    contradiction
  functions := keeps
  clipboard _ none := by contradiction

end Workbook

end Spreadsheet
