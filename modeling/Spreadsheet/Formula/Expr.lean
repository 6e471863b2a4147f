import Spreadsheet.Value
import Spreadsheet.Reference.Text

/-!
# Formula trees

A formula is a tree of literals, references, operators, function calls and arrays. A node read
from a text keeps the bytes of the token it came from, and a reference also its spelling; neither
has a meaning.
-/
namespace Spreadsheet

/-- The bytes of a token, the end excluded. -/
structure Span where
  start : Nat
  stop : Nat
deriving DecidableEq, Repr

/-- Operators of one operand. -/
inductive UnaryOperator where
  | plus
  | minus
  | percent
  | other (symbol : String)
deriving DecidableEq, Repr

/-- Operators of two operands. -/
inductive BinaryOperator where
  | power
  | times
  | divide
  | plus
  | minus
  | join
  | equal
  | notEqual
  | less
  | greater
  | atMost
  | atLeast
  | other (symbol : String)
deriving DecidableEq, Repr

namespace UnaryOperator

/-- The sign of an operator. -/
def symbol : UnaryOperator → String
  | plus => "+"
  | minus => "-"
  | percent => "%"
  | other symbol => symbol

/-- The operator of a sign. -/
def ofSymbol (symbol : List Char) : UnaryOperator :=
  match symbol with
  | ['+'] => plus
  | ['-'] => minus
  | ['%'] => percent
  | symbol => other (String.ofList symbol)

end UnaryOperator

namespace BinaryOperator

/-- The sign of an operator. -/
def symbol : BinaryOperator → String
  | power => "^"
  | times => "*"
  | divide => "/"
  | plus => "+"
  | minus => "-"
  | join => "&"
  | equal => "="
  | notEqual => "<>"
  | less => "<"
  | greater => ">"
  | atMost => "<="
  | atLeast => ">="
  | other symbol => symbol

/-- The operator of a sign. -/
def ofSymbol (symbol : List Char) : BinaryOperator :=
  match symbol with
  | ['^'] => power
  | ['*'] => times
  | ['/'] => divide
  | ['+'] => plus
  | ['-'] => minus
  | ['&'] => join
  | ['='] => equal
  | ['<', '>'] => notEqual
  | ['<'] => less
  | ['>'] => greater
  | ['<', '='] => atMost
  | ['>', '='] => atLeast
  | symbol => other (String.ofList symbol)

end BinaryOperator

/-- A formula tree. -/
inductive Expr where
  | literal (value : Value) (span : Option Span)
  | reference (target : Reference) (spelling : String) (span : Option Span)
  | unary (operator : UnaryOperator) (operand : Expr) (span : Option Span)
  | binary (operator : BinaryOperator) (left right : Expr) (span : Option Span)
  | call (name : String) (arguments : List Expr) (span : Option Span)
  | array (rows : List (List Expr)) (span : Option Span)
deriving Inhabited

namespace Expr

/-- The bytes of the token a node came from. -/
def span : Expr → Option Span
  | .literal _ span => span
  | .reference _ _ span => span
  | .unary _ _ span => span
  | .binary _ _ _ span => span
  | .call _ _ span => span
  | .array _ span => span

/-- An omitted argument. -/
def omitted : Expr := .literal .empty none

/-- The node is an omitted argument. -/
def isOmitted : Expr → Bool
  | .literal .empty _ => true
  | _ => false

/-- The node is a reference. -/
def isReference : Expr → Bool
  | .reference .. => true
  | _ => false

/-- The node is a function call. -/
def isCall : Expr → Bool
  | .call .. => true
  | _ => false

mutual

/-- The references of a tree, from left to right. -/
def references : Expr → List Reference
  | .literal _ _ => []
  | .reference target _ _ => [target]
  | .unary _ operand _ => operand.references
  | .binary _ left right _ => left.references ++ right.references
  | .call _ arguments _ => referencesOfAll arguments
  | .array rows _ => referencesOfRows rows

/-- The references of several trees. -/
def referencesOfAll : List Expr → List Reference
  | [] => []
  | e :: rest => e.references ++ referencesOfAll rest

/-- The references of rows of trees. -/
def referencesOfRows : List (List Expr) → List Reference
  | [] => []
  | row :: rest => referencesOfAll row ++ referencesOfRows rest

end

mutual

/-- Replace every reference node by what `f` makes of its target and its span. -/
def mapReferences (f : Reference → String → Option Span → Expr) : Expr → Expr
  | .literal value span => .literal value span
  | .reference target spelling span => f target spelling span
  | .unary operator operand span => .unary operator (operand.mapReferences f) span
  | .binary operator left right span =>
    .binary operator (left.mapReferences f) (right.mapReferences f) span
  | .call name arguments span => .call name (mapReferencesOfAll f arguments) span
  | .array rows span => .array (mapReferencesOfRows f rows) span

/-- Replace the reference nodes of several trees. -/
def mapReferencesOfAll (f : Reference → String → Option Span → Expr) : List Expr → List Expr
  | [] => []
  | e :: rest => e.mapReferences f :: mapReferencesOfAll f rest

/-- Replace the reference nodes of rows of trees. -/
def mapReferencesOfRows (f : Reference → String → Option Span → Expr) :
    List (List Expr) → List (List Expr)
  | [] => []
  | row :: rest => mapReferencesOfAll f row :: mapReferencesOfRows f rest

end

mutual

/-- The shape of a tree on one line, every node by its kind. -/
def outline : Expr → String
  | .literal value _ => "Literal(" ++ value.display ++ ")"
  | .reference target _ _ => "Reference(" ++ target.text ++ ")"
  | .unary operator operand _ => "UnaryOp(" ++ operator.symbol ++ ", " ++ operand.outline ++ ")"
  | .binary operator left right _ =>
    "BinaryOp(" ++ operator.symbol ++ ", " ++ left.outline ++ ", " ++ right.outline ++ ")"
  | .call name arguments _ =>
    "Function(" ++ name ++ ", [" ++ ", ".intercalate (outlineAll arguments) ++ "])"
  | .array rows _ =>
    "Array([" ++ ", ".intercalate (outlineRows rows) ++ "])"

/-- The shapes of several trees. -/
def outlineAll : List Expr → List String
  | [] => []
  | e :: rest => e.outline :: outlineAll rest

/-- The shapes of rows of trees. -/
def outlineRows : List (List Expr) → List String
  | [] => []
  | row :: rest => ("[" ++ ", ".intercalate (outlineAll row) ++ "]") :: outlineRows rest

end

mutual

/-- The tree holds an array. -/
def hasArray : Expr → Bool
  | .literal _ _ => false
  | .reference _ _ _ => false
  | .unary _ operand _ => operand.hasArray
  | .binary _ left right _ => left.hasArray || right.hasArray
  | .call _ arguments _ => anyHasArray arguments
  | .array _ _ => true

/-- One of the trees holds an array. -/
def anyHasArray : List Expr → Bool
  | [] => false
  | e :: rest => e.hasArray || anyHasArray rest

end

end Expr

end Spreadsheet
