import Spreadsheet.Formula.Expr

/-!
# Text of formulas

A tree is written with the parentheses that the precedence of its operators asks for and no
others, and with its references in their written form. The written text reads back as the tree.
-/
namespace Spreadsheet

/-- How tightly an operator binds when it is written. -/
def BinaryOperator.precedence : BinaryOperator → Nat
  | power => 5
  | times => 4
  | divide => 4
  | plus => 3
  | minus => 3
  | join => 2
  | _ => 1

mutual

/-- A literal value as a formula writes it. -/
def Value.literalChars : Value → List Char
  | .text content => '"' :: doubleQuotes '"' content.toList ++ ['"']
  | .array rows => '\x7b' :: Value.literalRows rows ++ ['\x7d']
  | v => v.display.toList

/-- The values of a row, separated by commas. -/
def Value.literalRow : List Value → List Char
  | [] => []
  | [v] => v.literalChars
  | v :: rest => v.literalChars ++ ',' :: Value.literalRow rest

/-- Rows separated by semicolons. -/
def Value.literalRows : List (List Value) → List Char
  | [] => []
  | [row] => Value.literalRow row
  | row :: rest => Value.literalRow row ++ ';' :: Value.literalRows rest

end

namespace Expr

/-- How tightly the outermost operator of a tree binds. -/
def precedence : Expr → Nat
  | .binary operator _ _ _ => operator.precedence
  | .unary .percent _ _ => 6
  | .unary _ _ _ => 7
  | _ => 9

/-- The text of a tree, in parentheses unless it binds at least as tightly as `least`. -/
def enclosed (e : Expr) (least : Nat) (text : List Char) : List Char :=
  if e.precedence < least then '(' :: text ++ [')'] else text

mutual

/-- The text of a tree. -/
def chars : Expr → List Char
  | .literal value _ => value.literalChars
  | .reference target _ _ => target.chars
  | .unary .percent operand _ => operand.enclosed 6 operand.chars ++ ['%']
  | .unary operator operand _ => operator.symbol.toList ++ operand.enclosed 7 operand.chars
  | .binary operator left right _ =>
    left.enclosed operator.precedence left.chars ++ operator.symbol.toList ++
      right.enclosed (operator.precedence + 1) right.chars
  | .call name arguments _ => name.toList ++ '(' :: listChars arguments ++ [')']
  | .array rows _ => '\x7b' :: rowChars rows ++ ['\x7d']

/-- Trees separated by commas. -/
def listChars : List Expr → List Char
  | [] => []
  | [e] => e.chars
  | e :: rest => e.chars ++ ',' :: listChars rest

/-- Rows of trees separated by semicolons. -/
def rowChars : List (List Expr) → List Char
  | [] => []
  | [row] => listChars row
  | row :: rest => listChars row ++ ';' :: rowChars rest

end

/-- The formula of a tree. -/
def render (e : Expr) : String := String.ofList ('=' :: e.chars)

end Expr

end Spreadsheet
