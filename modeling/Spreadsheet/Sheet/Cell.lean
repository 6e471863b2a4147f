import Spreadsheet.Formula.Parser
import Spreadsheet.Formula.Printer

/-!
# Cells

A cell has content, which was typed, and a format, which was chosen. Content is a literal value or
a formula; a formula also keeps its last result.
-/
namespace Spreadsheet

/-- A formula of a cell: its text, its tree or why it has none, its place in the order in which
formulas were entered, and its last result. -/
structure Formula where
  text : String
  tree : Except FormulaError Expr
  sequence : Nat
  value : Value
  format : Option String

namespace Formula

/-- A typed formula without a result. -/
def ofText (text : String) : Formula where
  text := text
  tree := Expr.ofText text.toList
  sequence := 0
  value := .empty
  format := none

/-- The formula without its result. -/
def cleared (f : Formula) : Formula := { f with value := .empty, format := none }

/-- The tree, if the text has one. -/
def expr? (f : Formula) : Option Expr := f.tree.toOption

/-- The formula with another tree, its text being that of the tree. -/
def withExpr (f : Formula) (e : Expr) : Formula := { f with tree := .ok e, text := e.render }

end Formula

/-- What is typed into a cell. -/
inductive Content where
  | empty
  | literal (typed : String) (value : Value)
  | formula (f : Formula)
deriving Inhabited

namespace Content

/-- The content for a typed text: no text clears the cell, an equals sign starts a formula, and
anything else is a literal. -/
def ofText (text : String) : Content :=
  if text = "" then .empty
  else if text.toList.head? = some '=' then .formula (.ofText text)
  else .literal text (.ofTyped text)

/-- The text of the content, that of a formula as it stands now. -/
def text : Content → String
  | .empty => ""
  | .literal typed _ => typed
  | .formula f => f.text

/-- There is no content. -/
def isEmpty : Content → Bool
  | .empty => true
  | _ => false

/-- The formula, if the content is one. -/
def formula? : Content → Option Formula
  | .formula f => some f
  | _ => none

end Content

/-- A cell of a sheet: its content and the format chosen for it. -/
structure Cell where
  content : Content
  format : Option String
deriving Inhabited

namespace Cell

/-- The cell that nothing was typed into. -/
def blank : Cell := ⟨.empty, none⟩

/-- Something was typed into the cell. -/
def hasContent (c : Cell) : Bool := !c.content.isEmpty

/-- The cell has neither content nor a format. -/
def isBlank (c : Cell) : Bool := !c.hasContent && c.format.isNone

/-- The formula of the cell, if it has one. -/
def formula? (c : Cell) : Option Formula := c.content.formula?

/-- Change the formula of the cell, if it has one. -/
def mapFormula (change : Formula → Formula) (c : Cell) : Cell :=
  match c.content with
  | .formula f => { c with content := .formula (change f) }
  | _ => c

end Cell

end Spreadsheet
