import Spreadsheet.Proofs.Workbook.Contents
import Spreadsheet.Proofs.Workbook.Outcomes

/-!
# Shapes in a workbook

Where every tree and every value in a workbook is rectangular, so is everything a position shows,
and what a formula comes to fits. Sources and results may be replaced by others of the same kind.
-/
namespace Spreadsheet

/-- The value of the content is rectangular, and a formula has a rectangular tree as well. -/
inductive Content.Rectangular : Content → Prop where
  | empty : Rectangular .empty
  | literal {typed : String} {v : Value} (shape : v.Rectangular) : Rectangular (.literal typed v)
  | formula {f : Formula} (tree : ∀ e, f.expr? = some e → e.Rectangular)
    (value : f.value.Rectangular) : Rectangular (.formula f)

namespace Content

variable {content : Content} {f : Formula}

/-- The tree of a formula that is rectangular. -/
theorem Rectangular.tree_of (shape : (Content.formula f).Rectangular) {e : Expr}
    (found : f.expr? = some e) : e.Rectangular := by
  cases shape with
  | formula tree _ => exact tree e found

/-- The value of a formula that is rectangular. -/
theorem Rectangular.value_of (shape : (Content.formula f).Rectangular) : f.value.Rectangular := by
  cases shape with
  | formula _ value => exact value

/-- The formula may change as long as it stays rectangular. -/
theorem Rectangular.mapFormula {change : Formula → Formula} (shape : content.Rectangular)
    (kept : ∀ f, (Content.formula f).Rectangular → (Content.formula (change f)).Rectangular) :
    (content.mapFormula change).Rectangular := by
  cases content with
  | empty => exact shape
  | literal typed v => exact shape
  | formula f => exact kept f shape

/-- A formula stays rectangular with another tree that is. -/
theorem Rectangular.withExpr (shape : (Content.formula f).Rectangular) {e : Expr}
    (tree : e.Rectangular) : (Content.formula (f.withExpr e)).Rectangular := by
  refine .formula (fun e' same => ?_) shape.value_of
  obtain rfl := Option.some.inj same
  exact tree

/-- A formula stays rectangular when it loses its result. -/
theorem Rectangular.cleared (shape : (Content.formula f).Rectangular) :
    (Content.formula f.cleared).Rectangular :=
  .formula (fun _ found => shape.tree_of found) Value.isSingle_empty.rectangular

/-- Entering content keeps it rectangular. -/
theorem Rectangular.entered (shape : content.Rectangular) (turn : Nat) :
    (content.entered turn).Rectangular := by
  cases content with
  | empty => exact shape
  | literal typed v => exact shape
  | formula f => exact .formula (fun _ found => shape.tree_of found) shape.value_of

/-- A typed value that is no formula is no array. -/
theorem isSingle_ofTyped (typed : String) : (Value.ofTyped typed).IsSingle := by
  unfold Value.ofTyped
  dsimp only
  split
  · exact Value.isSingle_number _
  · split
    · exact Value.isSingle_boolean _
    · split
      · exact Value.isSingle_boolean _
      · split
        · exact Value.isSingle_error _
        · exact Value.isSingle_text _

/-- The content for a typed text is rectangular. -/
theorem rectangular_ofText (text : String) : (ofText text).Rectangular := by
  unfold ofText
  split
  · exact .empty
  · split
    · refine .formula (fun e found => ?_) Value.isSingle_empty.rectangular
      unfold Formula.ofText Formula.expr? at found
      dsimp only at found
      cases read : Expr.ofText text.toList with
      | error fault =>
        rw [read] at found
        contradiction
      | ok tree =>
        rw [read] at found
        obtain rfl := Option.some.inj found
        exact Expr.rectangular_ofText read
    · exact .literal (isSingle_ofTyped text).rectangular

end Content

/-- The values and formats of a spilled array have the extent of its zone. -/
inductive SpillState.Fits : SpillState → Prop where
  | spilled {zone : Zone} {values : Grid Value} {formats : Grid (Option String)}
    (sized : values.Sized zone.rows zone.columns) (formatted : formats.Sized zone.rows zone.columns)
    (entries : ∀ row ∈ values, ∀ v ∈ row, v.Rectangular) : Fits (.spilled zone values formats)
  | blocked {candidate : Zone} : Fits (.blocked candidate)

/-- The value published by a state that fits is rectangular. -/
theorem SpillState.Fits.value? {state : SpillState} (fits : state.Fits) {row column : Nat}
    {v : Value} (found : state.value? row column = some v) : v.Rectangular := by
  cases fits with
  | spilled sized formatted entries =>
    obtain ⟨there, listed, member⟩ := Grid.mem_of_at? found
    exact entries there listed v member
  | blocked => contradiction

/-- Everything in a copied cell is rectangular. -/
structure ClipCell.Rectangular (cell : ClipCell) : Prop where
  content : cell.content.Rectangular
  value : cell.value.Rectangular

/-- Everything in copied cells is rectangular. -/
def Clip.Rectangular (clip : Clip) : Prop := ∀ cell ∈ clip.cells, cell.Rectangular

namespace Workbook

/-- All trees and values in a workbook are rectangular, and its functions keep values so. -/
structure Shaped (w : Workbook) : Prop where
  content : ∀ p, (w.content p).Rectangular
  states : ∀ a state, w.spills.state? a = some state → state.Fits
  functions : ∀ f ∈ w.functions.functions, f.KeepsRectangular
  clipboard : ∀ clip, w.clipboard = some (.copied clip) → clip.Rectangular

namespace Shaped

variable {w w' : Workbook} {p : Position}

/-- What is published at a position is rectangular. -/
theorem published (shaped : w.Shaped) {v : Value} (found : w.spills.value? p = some v) :
    v.Rectangular := by
  unfold Spills.value? Spills.published at found
  obtain ⟨a, _, rest⟩ := Option.bind_eq_some_iff.mp found
  obtain ⟨state, there, shown⟩ := Option.bind_eq_some_iff.mp rest
  exact (shaped.states a state there).value? shown

/-- The value a position shows is rectangular. -/
theorem value (shaped : w.Shaped) (p : Position) : (w.value p).Rectangular := by
  have inner := shaped.content p
  rw [value_eq]
  split
  · rename_i typed v same
    rw [same] at inner
    cases inner with
    | literal shape => exact shape
  · rename_i f same
    rw [same] at inner
    split
    · rename_i v found
      exact shaped.published found
    · have stored := inner.value_of
      split
      · rename_i rows array
        rw [array] at stored
        cases found : Grid.first? rows with
        | none => exact Value.isSingle_empty.rectangular
        | some v =>
          obtain ⟨row, listed, member⟩ := Grid.mem_of_first? found
          exact stored.entry listed member
      · exact stored
  · cases found : w.spills.value? p with
    | none => exact Value.isSingle_empty.rectangular
    | some v => exact shaped.published found

/-- Everything the formulas of a sheet see is rectangular. -/
theorem surroundings (shaped : w.Shaped) (home : String) : (w.surroundings home).Rectangular where
  value := shaped.value
  function _ _ found := FunctionTable.keepsRectangular_of_resolve? shaped.functions found

/-- What a formula comes to fits. -/
theorem fits_compute (shaped : w.Shaped) (p : Position) : (w.compute p).outcome.Fits := by
  unfold compute
  cases found : w.formula? p with
  | none => exact .single (Value.isSingle_number _)
  | some f =>
    have inner := shaped.content p
    rw [content_of_formula? found] at inner
    dsimp only
    cases tree : f.tree with
    | error fault => exact Outcome.fits_fault _
    | ok e =>
      have shape : e.Rectangular := inner.tree_of (by
        unfold Formula.expr?
        rw [tree]
        rfl)
      refine Outcome.fits_ofResult e _ ?_
      split
      · rename_i v ended
        exact shape.evaluate (shaped.surroundings _) v ended
      · exact (Value.isSingle_error _).rectangular

/-- A workbook stays shaped as long as contents stay rectangular and the rest stays. -/
theorem congr (shaped : w.Shaped) (content : ∀ p, (w'.content p).Rectangular)
    (spills : w'.spills = w.spills) (functions : w'.functions = w.functions)
    (clipboard : w'.clipboard = w.clipboard) : w'.Shaped where
  content := content
  states := by
    rw [spills]
    exact shaped.states
  functions := by
    rw [functions]
    exact shaped.functions
  clipboard := by
    rw [clipboard]
    exact shaped.clipboard

/-- A workbook stays shaped with other arrays whose states fit. -/
theorem withSpills (shaped : w.Shaped) {spills : Spills}
    (states : ∀ a state, spills.state? a = some state → state.Fits) :
    Shaped { w with spills := spills } :=
  ⟨shaped.content, states, shaped.functions, shaped.clipboard⟩

/-- A release leaves states that fit. -/
theorem states_release (shaped : w.Shaped) (p : Position) :
    ∀ a state, (w.spills.release p).state? a = some state → state.Fits := by
  intro a state found
  rw [Spills.state?_release] at found
  split at found
  · contradiction
  · exact shaped.states a state found

/-- A failed claim leaves states that fit. -/
theorem states_block (shaped : w.Shaped) (p : Position) (candidate : Zone) :
    ∀ a state, (w.spills.block p candidate).state? a = some state → state.Fits := by
  intro a state found
  rw [Spills.state?_block] at found
  split at found
  · obtain rfl := Option.some.inj found
    exact .blocked
  · exact shaped.states a state found

/-- A claim of an array that fits leaves states that fit. -/
theorem states_claim (shaped : w.Shaped) (p : Position) {zone : Zone} {values : Grid Value}
    {formats : Grid (Option String)} (fits : (SpillState.spilled zone values formats).Fits) :
    ∀ a state, (w.spills.claim p zone values formats).state? a = some state → state.Fits := by
  intro a state found
  rw [Spills.state?_claim] at found
  split at found
  · obtain rfl := Option.some.inj found
    exact fits
  · exact shaped.states a state found

/-- A workbook stays shaped when a formula gets another result that is rectangular. -/
theorem store (shaped : w.Shaped) (p : Position) {value : Value} (shape : value.Rectangular)
    (format : Option String) :
    (w.updateCell p fun c => c.mapFormula fun f =>
      { f with value := value, format := format }).Shaped := by
  refine shaped.congr (fun q => ?_) rfl rfl rfl
  rw [content_updateCell]
  split
  · rename_i here
    rw [Cell.content_mapFormula]
    exact (shaped.content p).mapFormula fun f inner =>
      .formula (fun _ found => inner.tree_of found) shape
  · exact shaped.content q

/-- A workbook stays shaped when content is replaced by other content that is rectangular. -/
theorem replaceContent (shaped : w.Shaped) (p : Position) {content : Content}
    (shape : content.Rectangular) : (w.replaceContent p content).Shaped where
  content q := by
    rw [content_replaceContent]
    split
    · exact shape.entered _
    · exact shaped.content q
  states := by
    rw [spills_replaceContent]
    exact shaped.states_release p
  functions := by
    rw [(sameSheets_replaceContent w p content).functions]
    exact shaped.functions
  clipboard := by
    rw [clipboard_replaceContent]
    exact shaped.clipboard

/-- A workbook stays shaped when a format is chosen. -/
theorem chooseFormat (shaped : w.Shaped) (p : Position) (format : Option String) :
    (w.chooseFormat p format).Shaped := by
  refine shaped.congr (fun q => ?_) (spills_chooseFormat w p format)
    (sameSheets_chooseFormat w p format).functions (clipboard_chooseFormat w p format)
  rw [content_chooseFormat]
  exact shaped.content q

/-- A workbook stays shaped when references are redirected. -/
theorem redirectFormulas (shaped : w.Shaped) {redirect : SheetId → Expr → Option Expr}
    (kept : ∀ id e e', redirect id e = some e' → e.Rectangular → e'.Rectangular) :
    (w.redirectFormulas redirect).Shaped := by
  refine shaped.congr (fun q => ?_) rfl rfl rfl
  have inner := shaped.content q
  rw [content_redirectFormulas]
  refine inner.mapFormula fun f shape => ?_
  split
  · rename_i e' found
    obtain ⟨e, tree, changed⟩ := Option.bind_eq_some_iff.mp found
    exact shape.withExpr (kept _ e e' changed (shape.tree_of tree))
  · exact shape

end Shaped

end Workbook

end Spreadsheet
