import Spreadsheet.Text.LetterCase
import Spreadsheet.Decimal.Text

/-!
# Tokens of formulas

A token is a piece of a formula with its place in the text, counted in bytes. Its kind says what
it is and its role refines the kind: an operand is a text, a number, a truth value, an error code
or a reference, and a bracket opens or closes.
-/
namespace Spreadsheet

/-- The kinds of tokens. A literal is the whole of a text that is no formula. -/
inductive TokenKind where
  | literal
  | operand
  | function
  | array
  | parenthesis
  | separator
  | prefixOperator
  | infixOperator
  | postfixOperator
  | blank
deriving DecidableEq, Repr

/-- The roles of tokens. -/
inductive TokenRole where
  | plain
  | text
  | number
  | logical
  | error
  | range
  | opening
  | closing
  | argument
  | row
deriving DecidableEq, Repr

/-- The name of a kind in messages. -/
def TokenKind.name : TokenKind → String
  | literal => "Literal"
  | operand => "Operand"
  | function => "Func"
  | array => "Array"
  | parenthesis => "Paren"
  | separator => "Sep"
  | prefixOperator => "OpPrefix"
  | infixOperator => "OpInfix"
  | postfixOperator => "OpPostfix"
  | blank => "Whitespace"

/-- The name of a role in messages. -/
def TokenRole.name : TokenRole → String
  | plain => "None"
  | text => "Text"
  | number => "Number"
  | logical => "Logical"
  | error => "Error"
  | range => "Range"
  | opening => "Open"
  | closing => "Close"
  | argument => "Arg"
  | row => "Row"

/-- The number of bytes of a text. -/
def byteSize (text : List Char) : Nat := text.foldl (fun size c => size + c.utf8Size) 0

/-- A piece of a formula with its first byte and the byte after its last. -/
structure Token where
  kind : TokenKind
  role : TokenRole
  text : List Char
  start : Nat
  stop : Nat
deriving DecidableEq, Repr

/-- Which of two equal operators in a row is applied first. -/
inductive Associativity where
  | left
  | right
deriving DecidableEq, Repr

namespace Token

/-- The role of an operand, by its text. -/
def operandRole (text : List Char) : TokenRole :=
  if text.head? == some '"' then .text
  else if text.head? == some '#' then .error
  else if Text.sameIgnoringCase (String.ofList text) "TRUE" then .logical
  else if Text.sameIgnoringCase (String.ofList text) "FALSE" then .logical
  else if (Decimal.read? text).isSome then .number
  else .range

/-- A token of the given text at a place. -/
def place (kind : TokenKind) (role : TokenRole) (text : List Char) (start : Nat) : Token :=
  ⟨kind, role, text, start, start + byteSize text⟩

/-- An operand of the given text at a place. -/
def operand (text : List Char) (start : Nat) : Token := place .operand (operandRole text) text start

/-- The token is an operator. -/
def isOperator (t : Token) : Bool :=
  t.kind == .prefixOperator || t.kind == .infixOperator || t.kind == .postfixOperator

/-- How tightly an operator of the given text binds. -/
def textPrecedence? : List Char → Option Nat
  | [':'] | [' '] | [','] => some 8
  | ['%'] => some 6
  | ['^'] => some 5
  | ['*'] | ['/'] => some 4
  | ['+'] | ['-'] => some 3
  | ['&'] => some 2
  | ['='] | ['<'] | ['>'] | ['<', '='] | ['>', '='] | ['<', '>'] => some 1
  | _ => none

/-- How tightly a token binds as an operator, and in which order equal ones are applied. -/
def precedence? (t : Token) : Option (Nat × Associativity) :=
  if t.kind = .prefixOperator then some (7, .right)
  else if t.text = ['u'] then some (7, .right)
  else (textPrecedence? t.text).map fun level => (level, .left)

/-- The token as messages show it. -/
def report (t : Token) : String :=
  s!"<{t.kind.name} subtype: {t.role.name} value: {String.ofList t.text}>"

/-- The token is an operand that should be a reference. -/
def isRange (t : Token) : Bool := t.kind == .operand && t.role == .range

end Token

end Spreadsheet
