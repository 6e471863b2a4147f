import Spreadsheet.Formula.Token

/-!
# From text to tokens

A text that starts with an equals sign is a formula and is cut into tokens; any other text is one
literal. Characters gather in a pending operand until a character that cannot belong to it comes.
Quotes around a text start a token of their own, quotes around a sheet name and square brackets
belong to the operand.
-/
namespace Spreadsheet

/-- Why a formula cannot be cut into tokens. -/
inductive LexicalFault where
  | unclosedBracket
  | unclosedQuote
  | unclosedSquare
  | unknownErrorCode (offset : Nat)
  | nothingToClose (offset : Nat)
  | mismatchedBrackets
deriving DecidableEq, Repr

/-- The wording of a fault. -/
def LexicalFault.message : LexicalFault → String
  | unclosedBracket => "Unmatched opening parenthesis or bracket"
  | unclosedQuote => "Reached end of formula while parsing string"
  | unclosedSquare => "Encountered unmatched '['"
  | unknownErrorCode offset => s!"Invalid error code at position {offset}"
  | nothingToClose offset => s!"No matching opener for closer at position {offset}"
  | mismatchedBrackets => "Mismatched ( and \x7b pair"

/-- A fault and the byte at which it shows. -/
structure LexicalError where
  fault : LexicalFault
  offset : Nat
deriving DecidableEq, Repr

/-- The error on one line. -/
def LexicalError.report (e : LexicalError) : String := "TokenizerError: " ++ e.fault.message

/-- The state between two characters: what is pending, latest character first, and where it
starts; the tokens so far, latest first; and the kinds of the open brackets, innermost first. -/
structure Lexer where
  pending : List Char
  start : Nat
  tokens : List Token
  opened : List TokenKind
deriving Repr

namespace Lexer

/-- The codes that a formula may name, longer ones before their beginnings. -/
def errorCodes : List (List Char) :=
  ["#NULL!", "#DIV/0!", "#VALUE!", "#REF!", "#REF", "#NAME?", "#NUM!", "#N/A", "#ERROR",
    "#SPILL!", "#CIRC!"].map String.toList

/-- A pending operand ends before this character. -/
def endsOperand (c : Char) : Bool := ",;\x7d) +-*/^&=><%".toList.contains c

/-- The character is a blank of a formula. -/
def isFormulaBlank (c : Char) : Bool := c == ' ' || c == '\n' || c == '\t'

/-- The character is an operator or starts one. -/
def isOperatorStart (c : Char) : Bool := "+-*/^&=><%".toList.contains c

/-- The number of characters up to and including the closing quote; a quote written twice does
not close. -/
def quotedLength? (quote : Char) : List Char → Option Nat
  | [] => none
  | [c] => if c = quote then some 1 else none
  | c :: d :: rest =>
    if c = quote then if d = quote then (quotedLength? quote rest).map (· + 2) else some 1
    else (quotedLength? quote (d :: rest)).map (· + 1)

/-- The number of characters up to and including the bracket that closes `depth` open ones. -/
def squareLength? : Nat → List Char → Option Nat
  | _, [] => none
  | depth, c :: rest =>
    if c = ']' then if depth ≤ 1 then some 1 else (squareLength? (depth - 1) rest).map (· + 1)
    else (squareLength? (if c = '[' then depth + 1 else depth) rest).map (· + 1)

/-- The first code that stands at the front, in any letter case. -/
def errorCodeLength? (text : List Char) : Option Nat :=
  (errorCodes.find? fun code => (text.take code.length).map Char.toUpper == code).map List.length

variable (s : Lexer)

/-- The byte after everything read so far. -/
def offset : Nat := s.start + byteSize s.pending

/-- Add a token of the given text after the last one. Nothing may be pending. -/
def emit (kind : TokenKind) (role : TokenRole) (text : List Char) : Lexer :=
  { s with
    pending := []
    start := s.offset + byteSize text
    tokens := Token.place kind role text s.offset :: s.tokens }

/-- Make a token of the pending operand. -/
def save : Lexer :=
  if s.pending.isEmpty then s
  else
    { s with
      pending := []
      start := s.offset
      tokens := Token.operand s.pending.reverse s.start :: s.tokens }

/-- Add characters to the pending operand. -/
def extend (text : List Char) : Lexer := { s with pending := text.reverse ++ s.pending }

/-- A sign that follows belongs to the exponent of a number: the pending operand is digits, at
most one point among them, and the mark of an exponent. -/
def awaitsExponent : Bool :=
  match s.pending with
  | mark :: number =>
    (mark == 'e' || mark == 'E') &&
      match number.reverse with
      | first :: rest => first.isDigit && rest.all (fun c => c.isDigit || c == '.') &&
          decide (rest.count '.' ≤ 1)
      | [] => false
  | [] => false

/-- The last token that is no blank ends an operand, so that a sign after it is an infix
operator. -/
def followsOperand : Bool :=
  match s.tokens.find? fun t => t.kind != .blank with
  | some t => t.role == .closing || t.kind == .postfixOperator || t.kind == .operand
  | none => false

/-- Read a quoted part, its opening quote read. A text is a token of its own, and an unfinished
range before it is dropped; a sheet name joins the pending operand after a colon or a lone dollar
sign and starts one elsewhere. -/
def readQuoted (quote : Char) (rest : List Char) : Except LexicalError (Lexer × Nat) :=
  let joined := (quote == '\'' && s.pending == ['$']) || s.pending.head? == some ':'
  let s := if joined then s else s.save
  match quotedLength? quote rest with
  | none => .error ⟨.unclosedQuote, s.offset + byteSize (quote :: rest)⟩
  | some length =>
    let text := quote :: rest.take length
    if quote = '"' then
      let cleared := { s with pending := [], start := s.offset }
      .ok (cleared.emit .operand (Token.operandRole text) text, length)
    else .ok (s.extend text, length)

/-- Read a part in square brackets, its opening bracket read. -/
def readSquare (rest : List Char) : Except LexicalError (Lexer × Nat) :=
  match squareLength? 1 rest with
  | none => .error ⟨.unclosedSquare, s.offset + byteSize ('[' :: rest)⟩
  | some length => .ok (s.extend ('[' :: rest.take length), length)

/-- Read an error code, its first character read. A sheet and its mark before it belong to it. -/
def readErrorCode (rest : List Char) : Except LexicalError (Lexer × Nat) :=
  let s := if s.pending.head? == some '!' then s else s.save
  match errorCodeLength? ('#' :: rest) with
  | none => .error ⟨.unknownErrorCode s.offset, s.offset⟩
  | some length => .ok ((s.extend (('#' :: rest).take length)).save, length - 1)

/-- Read an operator of one or two characters. -/
def readOperator (c : Char) (rest : List Char) : Lexer × Nat :=
  let s := s.save
  match c, rest with
  | '>', '=' :: _ | '<', '=' :: _ | '<', '>' :: _ =>
    (s.emit .infixOperator .plain (c :: rest.take 1), 1)
  | _, _ =>
    let kind :=
      if c = '%' then .postfixOperator
      else if (c = '+' ∨ c = '-') ∧ !s.followsOperand then .prefixOperator
      else .infixOperator
    (s.emit kind .plain [c], 0)

/-- Read an opening bracket. A parenthesis right after an operand opens the arguments of the
function of that name. -/
def readOpening (c : Char) : Lexer :=
  let open' (s : Lexer) (kind : TokenKind) : Lexer := { s with opened := kind :: s.opened }
  if c = '\x7b' then open' (s.save.emit .array .opening [c]) .array
  else if s.pending.isEmpty then open' (s.emit .parenthesis .opening [c]) .parenthesis
  else
    let cleared := { s with pending := [] }
    open' (cleared.emit .function .opening (s.pending.reverse ++ [c])) .function

/-- The bracket that closes an opened one of the given kind. -/
def closer (kind : TokenKind) : Char := if kind = .array then '\x7d' else ')'

/-- Read a closing bracket. -/
def readClosing (c : Char) : Except LexicalError Lexer :=
  let s := s.save
  match s.opened with
  | [] => .error ⟨.nothingToClose s.offset, s.offset⟩
  | kind :: opened =>
    if c = closer kind then .ok { s.emit kind .closing [c] with opened := opened }
    else .error ⟨.mismatchedBrackets, s.offset⟩

/-- Read a separator. A comma separates arguments directly inside a function or an array, and is
an operator elsewhere. -/
def readSeparator (c : Char) : Lexer :=
  let s := s.save
  if c = ';' then s.emit .separator .row [c]
  else
    match s.opened.head? with
    | some .function | some .array => s.emit .separator .argument [c]
    | _ => s.emit .infixOperator .plain [c]

/-- Read one character, and tell how many of the characters after it were read with it. -/
def step (c : Char) (rest : List Char) : Except LexicalError (Lexer × Nat) :=
  if (c == '+' || c == '-') && s.awaitsExponent then .ok (s.extend [c], 0)
  else
    let s := if endsOperand c then s.save else s
    if c = '"' ∨ c = '\'' then s.readQuoted c rest
    else if c = '[' then s.readSquare rest
    else if c = '#' then s.readErrorCode rest
    else if isFormulaBlank c then
      let length := (rest.takeWhile isFormulaBlank).length
      .ok (s.save.emit .blank .plain (c :: rest.take length), length)
    else if isOperatorStart c then .ok (s.readOperator c rest)
    else if c = '\x7b' ∨ c = '(' then .ok (s.readOpening c, 0)
    else if c = ')' ∨ c = '\x7d' then (s.readClosing c).map fun s => (s, 0)
    else if c = ';' ∨ c = ',' then .ok (s.readSeparator c, 0)
    else .ok (s.extend [c], 0)

/-- Read all characters. -/
def run (s : Lexer) (text : List Char) : Except LexicalError Lexer :=
  match text with
  | [] => .ok s
  | c :: rest =>
    match s.step c rest with
    | .error e => .error e
    | .ok (s, length) => run s (rest.drop length)
termination_by text.length
decreasing_by
  simp only [List.length_drop, List.length_cons]
  omega

/-- The tokens at the end of the text, in order, if every bracket is closed. -/
def finish : Except LexicalError (List Token) :=
  let s := s.save
  if s.opened.isEmpty then .ok s.tokens.reverse else .error ⟨.unclosedBracket, s.offset⟩

end Lexer

namespace Token

/-- One operand of two and the blanks between them. -/
def join (first : Token) (blanks : List Token) (second : Token) : Token :=
  operand (first.text ++ blanks.flatMap Token.text ++ second.text) first.start

/-- Two references are the ends of one range: a colon stands on the inner side of either. -/
def meet (first second : Token) : Bool :=
  second.isRange && (first.text.getLast? == some ':' || second.text.head? == some ':')

mutual

/-- Join the ends of ranges that blanks keep apart: `A1 : B2` is one operand. -/
def joinRanges : List Token → List Token
  | [] => []
  | t :: rest => if t.isRange then joinAfter t [] rest else t :: joinRanges rest

/-- Join ranges after a reference and the blanks that follow it, the latest blank first. -/
def joinAfter (current : Token) (blanks : List Token) : List Token → List Token
  | [] => current :: blanks.reverse
  | t :: rest =>
    if t.kind = .blank then joinAfter current (t :: blanks) rest
    else if current.meet t then joinAfter (join current blanks.reverse t) [] rest
    else
      current :: blanks.reverse ++
        if t.isRange then joinAfter t [] rest else t :: joinRanges rest

end

/-- Cut a text into tokens. -/
def ofText (text : List Char) : Except LexicalError (List Token) :=
  match text with
  | [] => .ok []
  | '=' :: rest => do
    let s ← Lexer.run ⟨[], 1, [], []⟩ rest
    return joinRanges (← s.finish)
  | text => .ok [place .literal .plain text 0]

/-- The text that tokens stand for. -/
def render : List Token → List Char
  | [] => []
  | t :: rest => if t.kind = .literal then t.text else '=' :: (t :: rest).flatMap Token.text

end Token

end Spreadsheet
