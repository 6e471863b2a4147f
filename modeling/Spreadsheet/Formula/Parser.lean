import Spreadsheet.Formula.Lexer
import Spreadsheet.Formula.Expr

/-!
# From tokens to trees

Operators bind by precedence: a percent sign behind its operand before a power, then product,
sum, join and comparison; equal ones apply from the left. A sign in front of an operand binds more
tightly than any infix operator and less tightly than a percent sign behind.
-/
namespace Spreadsheet

/-- Why a text is no formula. -/
inductive FormulaFault where
  | lexical (fault : LexicalFault)
  | noTokens
  | endOfTokens
  | leftOver (index : Nat) (token : Token)
  | unexpected (token : Token)
  | expectedParenthesis
  | invalidNumber (text : List Char)
  | invalidReference (text : List Char) (reason : ReferenceError)
  | unexpectedRole (role : TokenRole)
  | expectedSeparator (token : Token)
  | endOfArguments
  | raggedArray
  | unexpectedInArray (token : Token)
  | endOfArray
deriving DecidableEq, Repr

/-- The wording of a fault. -/
def FormulaFault.message : FormulaFault → String
  | lexical fault => fault.message
  | noTokens => "No tokens to parse"
  | endOfTokens => "Unexpected end of tokens"
  | leftOver index token => s!"Unexpected token at position {index}: {token.report}"
  | unexpected token => s!"Unexpected token: {token.report}"
  | expectedParenthesis => "Expected closing parenthesis"
  | invalidNumber text => s!"Invalid number: {String.ofList text}"
  | invalidReference text reason =>
    s!"Invalid reference '{String.ofList text}': {reason.message}"
  | unexpectedRole role => s!"Unexpected operand subtype: {role.name}"
  | expectedSeparator token =>
    s!"Expected ',' or ')' in function arguments, got {token.report}"
  | endOfArguments => "Unexpected end of function arguments"
  | raggedArray => "Array rows must have the same length"
  | unexpectedInArray token => s!"Unexpected token in array: {token.report}"
  | endOfArray => "Unterminated array"

/-- A fault and where it shows: a byte of the text for a lexical fault, else the index of a
token. -/
structure FormulaError where
  fault : FormulaFault
  position : Option Nat
deriving DecidableEq, Repr

namespace FormulaError

/-- The wording of the fault. -/
def message (e : FormulaError) : String := e.fault.message

/-- The error on one line. -/
def report (e : FormulaError) : String :=
  match e.position with
  | some position => s!"ParserError at position {position}: {e.message}"
  | none => s!"ParserError: {e.message}"

/-- A text that cannot be cut into tokens is no formula. -/
def ofLexical (e : LexicalError) : FormulaError := ⟨.lexical e.fault, some e.offset⟩

end FormulaError

/-- The tokens still to be read and the index of the first of them. -/
structure TokenCursor where
  rest : List Token
  index : Nat
deriving DecidableEq, Repr

namespace TokenCursor

/-- The cursor behind the next token. -/
def next (c : TokenCursor) : TokenCursor := ⟨c.rest.tail, c.index + 1⟩

/-- The next token has the given kind and role. -/
def atToken (c : TokenCursor) (kind : TokenKind) (role : TokenRole) : Bool :=
  match c.rest with
  | t :: _ => t.kind == kind && t.role == role
  | [] => false

/-- A fault at the next token. -/
def fault (c : TokenCursor) (fault : FormulaFault) : FormulaError := ⟨fault, some c.index⟩

end TokenCursor

/-- The bytes of a token. -/
def Token.span (t : Token) : Span := ⟨t.start, t.stop⟩

/-- Write once each quote that is written twice. -/
def singleQuotes (quote : Char) : List Char → List Char
  | c :: d :: rest =>
    if c = quote ∧ d = quote then quote :: singleQuotes quote rest
    else c :: singleQuotes quote (d :: rest)
  | text => text

/-- The content of a text literal: the text between its quotes, or the whole if it has none. -/
def quotedContent (text : List Char) : List Char :=
  let inner := match text with
    | '"' :: rest => if rest.getLast? = some '"' then rest.dropLast else text
    | text => text
  singleQuotes '"' inner

namespace Expr

/-- The node of an operand token. A reference whose sheet was deleted is an error code. -/
def ofOperand (t : Token) : Except FormulaFault Expr :=
  match t.role with
  | .number =>
    match Decimal.read? t.text with
    | some x => .ok (.literal (.number x) (some t.span))
    | none => .error (.invalidNumber t.text)
  | .text => .ok (.literal (.text (String.ofList (quotedContent t.text))) (some t.span))
  | .logical =>
    .ok (.literal (.boolean (Text.sameIgnoringCase (String.ofList t.text) "TRUE")) (some t.span))
  | .error => .ok (.literal (.error (.ofCode (String.ofList t.text))) (some t.span))
  | .range =>
    if t.text.contains '#' then
      let code := t.text.dropWhile (· != '#')
      .ok (.literal (.error (.ofCode (String.ofList code))) (some t.span))
    else
      match Reference.read t.text with
      | .ok target => .ok (.reference target (String.ofList t.text) (some t.span))
      | .error reason => .error (.invalidReference t.text reason)
  | role => .error (.unexpectedRole role)

/-- Apply the operators behind an operand. -/
def readPostfix (operand : Expr) : List Token → Nat → Expr × TokenCursor
  | [], index => (operand, ⟨[], index⟩)
  | t :: rest, index =>
    if t.kind = .postfixOperator then
      readPostfix (.unary (.ofSymbol t.text) operand (some t.span)) rest (index + 1)
    else (operand, ⟨t :: rest, index⟩)

mutual

/-- Read an expression whose infix operators bind at least as tightly as `least`. Each reader
takes fuel for the calls it may make; `ofTokens` supplies enough. -/
def readExpr : Nat → Nat → TokenCursor → Except FormulaError (Expr × TokenCursor)
  | 0, _, c => .error (c.fault .endOfTokens)
  | fuel + 1, least, c => do
    let (left, c) ← readUnary fuel c
    readInfix fuel least left c

/-- Read infix operators and their right operands after a left one. -/
def readInfix : Nat → Nat → Expr → TokenCursor → Except FormulaError (Expr × TokenCursor)
  | 0, _, _, c => .error (c.fault .endOfTokens)
  | fuel + 1, least, left, c =>
    match c.rest with
    | [] => .ok (left, c)
    | t :: _ =>
      let (level, associativity) := t.precedence?.getD (0, .left)
      if t.kind = .infixOperator ∧ least ≤ level then do
        let tighter := if associativity = .left then level + 1 else level
        let (right, c) ← readExpr fuel tighter c.next
        readInfix fuel least (.binary (.ofSymbol t.text) left right (some t.span)) c
      else .ok (left, c)

/-- Read an operand with the operators before and behind it. -/
def readUnary : Nat → TokenCursor → Except FormulaError (Expr × TokenCursor)
  | 0, c => .error (c.fault .endOfTokens)
  | fuel + 1, c =>
    match c.rest with
    | [] => .error (c.fault .endOfTokens)
    | t :: _ =>
      if t.kind = .prefixOperator then do
        let (operand, c) ← readUnary fuel c.next
        return (.unary (.ofSymbol t.text) operand (some t.span), c)
      else do
        let (operand, c) ← readPrimary fuel t c
        return readPostfix operand c.rest c.index

/-- Read an operand that starts with the token `t`. -/
def readPrimary : Nat → Token → TokenCursor → Except FormulaError (Expr × TokenCursor)
  | 0, _, c => .error (c.fault .endOfTokens)
  | fuel + 1, t, c =>
    match t.kind, t.role with
    | .operand, _ =>
      match ofOperand t with
      | .ok e => .ok (e, c.next)
      | .error fault => .error (c.next.fault fault)
    | .function, .opening => do
      let (arguments, rest) ← readArguments fuel c.next
      return (.call (String.ofList t.text.dropLast) arguments (some t.span), rest)
    | .parenthesis, .opening => do
      let (e, c) ← readExpr fuel 0 c.next
      if c.atToken .parenthesis .closing then return (e, c.next)
      else throw (c.fault .expectedParenthesis)
    | .array, .opening =>
      if c.next.atToken .array .closing then .ok (.array [] none, c.next.next)
      else readRows fuel [] [] c.next
    | _, _ => .error (c.fault (.unexpected t))

/-- Read the arguments of a call up to its closing parenthesis. -/
def readArguments : Nat → TokenCursor → Except FormulaError (List Expr × TokenCursor)
  | 0, c => .error (c.fault .endOfTokens)
  | fuel + 1, c =>
    if c.atToken .function .closing then .ok ([], c.next) else readArgument fuel c

/-- Read at least one argument. An argument may be left out between separators. -/
def readArgument : Nat → TokenCursor → Except FormulaError (List Expr × TokenCursor)
  | 0, c => .error (c.fault .endOfTokens)
  | fuel + 1, c => do
    let (argument, c) ←
      if c.atToken .separator .argument || c.atToken .function .closing then .ok (omitted, c)
      else readExpr fuel 0 c
    if c.atToken .separator .argument then
      let (arguments, c) ← readArgument fuel c.next
      return (argument :: arguments, c)
    else if c.atToken .function .closing then return ([argument], c.next)
    else
      match c.rest with
      | t :: _ => throw (c.fault (.expectedSeparator t))
      | [] => throw (c.fault .endOfArguments)

/-- Read the entries of an array up to its closing bracket, after the finished rows and the
entries of the current row, the latest first. -/
def readRows : Nat → List (List Expr) → List Expr → TokenCursor →
    Except FormulaError (Expr × TokenCursor)
  | 0, _, _, c => .error (c.fault .endOfTokens)
  | fuel + 1, rows, row, c => do
    let (entry, c) ← readExpr fuel 0 c
    let row := entry :: row
    if c.atToken .separator .argument then readRows fuel rows row c.next
    else if c.atToken .separator .row then readRows fuel (row.reverse :: rows) [] c.next
    else if c.atToken .array .closing then
      let rows := (row.reverse :: rows).reverse
      let width := (Grid.extent rows).2
      if rows.all (·.length == width) then return (.array rows none, c.next)
      else throw (c.next.fault .raggedArray)
    else
      match c.rest with
      | t :: _ => throw (c.fault (.unexpectedInArray t))
      | [] => throw (c.fault .endOfArray)

end

/-- The tree of a list of tokens. A literal token stands for its text. -/
def ofTokens (tokens : List Token) : Except FormulaError Expr :=
  match tokens with
  | [] => .error ⟨.noTokens, none⟩
  | t :: _ =>
    if t.kind = .literal then
      .ok (.literal (.text (String.ofList t.text)) (some t.span))
    else do
      let (e, c) ← readExpr (6 * tokens.length + 6) 0 ⟨tokens, 0⟩
      match c.rest with
      | [] => return e
      | t :: _ => throw (c.fault (.leftOver c.index t))

/-- The tokens that matter to a tree: blanks do not. -/
def significant (tokens : List Token) : List Token := tokens.filter fun t => t.kind != .blank

/-- The tree of a text. -/
def ofText (text : List Char) : Except FormulaError Expr :=
  match Token.ofText text with
  | .error e => .error (.ofLexical e)
  | .ok tokens => ofTokens (significant tokens)

end Expr

end Spreadsheet
