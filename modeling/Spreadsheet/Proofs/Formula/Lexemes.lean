import Spreadsheet.Proofs.Formula.Gathering
import Spreadsheet.Proofs.Formula.Operands

/-!
# Tokens of written trees

The text of a tree is cut into the tokens that its nodes ask for, wherever it stands in a formula. A
tree that can be written consists of what a formula can name.
-/
namespace Spreadsheet

/-! ### Trees that can be written -/

/-- A name of a function: letters, digits, points and underscores, a letter first. -/
structure IsFunctionName (name : List Char) : Prop where
  letter : ∃ c ∈ name.head?, c.isAlpha = true
  all : ∀ c ∈ name, c.isAlphanum = true ∨ c = '.' ∨ c = '_'

/-- A name of a function is a word. -/
theorem IsFunctionName.isWordChar {name : List Char} (named : IsFunctionName name) :
    ∀ c ∈ name, Lexer.isWordChar c = true := by
  intro c listed
  unfold Lexer.isWordChar
  rcases named.all c listed with alphanumeric | rfl | rfl
  · rw [alphanumeric]
    rfl
  · rfl
  · rfl

namespace Expr

/-- The node is an operator in front of its operand. -/
def isSigned : Expr → Bool
  | .unary .percent _ _ => false
  | .unary _ _ _ => true
  | _ => false

/-- A tree that a formula can write. -/
inductive Writable : Expr → Prop where
  | number (x : Number) (finite : x.isFinite = true) (unsigned : x.isNegative = false)
    (span : Option Span) : Writable (.literal (.number x) span)
  | text (content : String) (span : Option Span) : Writable (.literal (.text content) span)
  | boolean (b : Bool) (span : Option Span) : Writable (.literal (.boolean b) span)
  | error {code : String} (known : (ErrorKind.ofCode? code).isSome = true) (span : Option Span) :
    Writable (.literal (.error (.ofCode code)) span)
  | reference {target : Reference} (writable : target.Writable) (spelling : String)
    (span : Option Span) : Writable (.reference target spelling span)
  | plus {operand : Expr} (inner : Writable operand) (span : Option Span) :
    Writable (.unary .plus operand span)
  | minus {operand : Expr} (inner : Writable operand) (span : Option Span) :
    Writable (.unary .minus operand span)
  | percent {operand : Expr} (inner : Writable operand) (unsigned : operand.isSigned = false)
    (span : Option Span) : Writable (.unary .percent operand span)
  | binary {operator : BinaryOperator} {left right : Expr} (known : ∀ symbol, operator ≠ .other symbol)
    (first : Writable left) (second : Writable right) (span : Option Span) :
    Writable (.binary operator left right span)
  | call {name : String} {arguments : List Expr} (named : IsFunctionName name.toList)
    (given : ∀ e ∈ arguments, e.isOmitted = false → Writable e)
    (omitted : ∀ e ∈ arguments, e.isOmitted = true → 2 ≤ arguments.length) (span : Option Span) :
    Writable (.call name arguments span)
  | array {rows : List (List Expr)} {width : Nat} (some' : rows ≠ []) (wide : 0 < width)
    (rectangular : ∀ row ∈ rows, row.length = width) (entries : ∀ row ∈ rows, ∀ e ∈ row, Writable e)
    (span : Option Span) : Writable (.array rows span)

/-- A tree whose formula says what it is. Its numbers have no sign, its errors are known by their codes,
its references read back, no percent sign stands behind a sign, operators have signs of their own, and
names of functions gather where they stand. -/
inductive Legible : Expr → Prop where
  | number {x : Number} (unsigned : Decimal.Unsigned x) (span : Option Span) :
    Legible (.literal (.number x) span)
  | text (content : String) (span : Option Span) : Legible (.literal (.text content) span)
  | boolean (b : Bool) (span : Option Span) : Legible (.literal (.boolean b) span)
  | error {code : String} (known : (ErrorKind.ofCode? code).isSome = true) (span : Option Span) :
    Legible (.literal (.error (.ofCode code)) span)
  | reference {target : Reference} (legible : target.Legible) (spelling : String)
    (span : Option Span) : Legible (.reference target spelling span)
  | plus {operand : Expr} (inner : Legible operand) (span : Option Span) :
    Legible (.unary .plus operand span)
  | minus {operand : Expr} (inner : Legible operand) (span : Option Span) :
    Legible (.unary .minus operand span)
  | percent {operand : Expr} (inner : Legible operand) (unsigned : operand.isSigned = false)
    (span : Option Span) : Legible (.unary .percent operand span)
  | binary {operator : BinaryOperator} {left right : Expr} (known : ∀ symbol, operator ≠ .other symbol)
    (first : Legible left) (second : Legible right) (span : Option Span) :
    Legible (.binary operator left right span)
  | call {name : String} {arguments : List Expr} (named : name.toList ≠ [])
    (gathers : Lexer.Gathers name.toList)
    (given : ∀ e ∈ arguments, e.isOmitted = false → Legible e)
    (omitted : ∀ e ∈ arguments, e.isOmitted = true → 2 ≤ arguments.length) (span : Option Span) :
    Legible (.call name arguments span)
  | noRows (span : Option Span) : Legible (.array [] span)
  | array {rows : List (List Expr)} {width : Nat} (some' : rows ≠ []) (wide : 0 < width)
    (rectangular : ∀ row ∈ rows, row.length = width) (entries : ∀ row ∈ rows, ∀ e ∈ row, Legible e)
    (span : Option Span) : Legible (.array rows span)

/-- What a formula can write says what it is. -/
theorem Writable.legible {e : Expr} (writable : e.Writable) : e.Legible := by
  induction writable with
  | number x finite unsigned span =>
    exact .number (Decimal.unsigned_of_le (Nat.le_of_lt (Decimal.toNat_bits_lt finite unsigned))) span
  | text content span => exact .text content span
  | boolean b span => exact .boolean b span
  | error known span => exact .error known span
  | reference writable spelling span => exact .reference writable.legible spelling span
  | plus _ span ih => exact .plus ih span
  | minus _ span ih => exact .minus ih span
  | percent _ unsigned span ih => exact .percent ih unsigned span
  | binary known _ _ span first second => exact .binary known first second span
  | call named _ omitted span ih =>
    refine .call ?_ (Lexer.Gathers.nothing.append fun c listed => ?_) ih omitted span
    · obtain ⟨c, first, _⟩ := named.letter
      exact List.ne_nil_of_mem (List.mem_of_mem_head? first)
    · exact Lexer.isOrdinary_of_isWordChar (named.isWordChar c listed)
  | array some' wide rectangular _ span ih => exact .array some' wide rectangular ih span

/-! ### Tokens -/

/-- The tokens of a tree, in parentheses unless it binds at least as tightly as `least`. -/
def bracketed (e : Expr) (least : Nat) (list : List Lexeme) : List Lexeme :=
  if e.precedence < least then
    .opening .parenthesis ['('] :: list ++ [.closing .parenthesis]
  else list

mutual

/-- The tokens of a tree. -/
def lexemes : Expr → List Lexeme
  | .literal .empty _ => []
  | .literal value _ => [.operand value.literalChars]
  | .reference target _ _ => [.operand target.chars]
  | .unary .percent operand _ => operand.bracketed 6 operand.lexemes ++ [.percent]
  | .unary operator operand _ =>
    .sign operator.symbol.toList :: operand.bracketed 7 operand.lexemes
  | .binary operator left right _ =>
    left.bracketed operator.precedence left.lexemes ++ .operator operator.symbol.toList ::
      right.bracketed (operator.precedence + 1) right.lexemes
  | .call name arguments _ =>
    .opening .function (name.toList ++ ['(']) :: listLexemes arguments ++ [.closing .function]
  | .array rows _ => .opening .array ['\x7b'] :: rowLexemes rows ++ [.closing .array]

/-- The tokens of trees, separated by commas. -/
def listLexemes : List Expr → List Lexeme
  | [] => []
  | [e] => e.lexemes
  | e :: rest => e.lexemes ++ .comma :: listLexemes rest

/-- The tokens of rows of trees, separated by semicolons. -/
def rowLexemes : List (List Expr) → List Lexeme
  | [] => []
  | [row] => listLexemes row
  | row :: rest => listLexemes row ++ .semicolon :: rowLexemes rest

end

end Expr

namespace Lexer

/-! ### Pieces -/

/-- A text inside brackets that separate by commas is cut into tokens where an operand is expected. -/
def CutsInside (text : List Char) (list : List Lexeme) : Prop :=
  ∀ (s : Lexer) (rest : List Char), s.pending = [] → s.followsOperand = false →
    (s.opened.head? = some .function ∨ s.opened.head? = some .array) → Ends rest →
      s.cut (text ++ rest) = (s.pushAll list).cut rest

/-- A text is cut into tokens wherever an operand is expected, and no operator in front of it or behind
it runs into it. -/
structure Cuts (text : List Char) (list : List Lexeme) : Prop where
  cut : ∀ (s : Lexer) (rest : List Char), s.pending = [] → s.followsOperand = false → Ends rest →
    s.cut (text ++ rest) = (s.pushAll list).cut rest
  first : ∃ c ∈ text.head?, c ≠ '=' ∧ c ≠ '>'
  last : ∃ front l, list = front ++ [l] ∧ l.kind ≠ .blank ∧ l.endsOperand = true

variable {s : Lexer} {rest text other : List Char} {list others : List Lexeme} {c : Char}

/-- A text that is cut anywhere is cut inside brackets. -/
theorem Cuts.inside (cuts : Cuts text list) : CutsInside text list :=
  fun s rest idle expects _ ends => cuts.cut s rest idle expects ends

/-- The first character of a text that is not empty is that of a longer one. -/
theorem Cuts.head (cuts : Cuts text list) (rest : List Char) :
    ∀ c ∈ (text ++ rest).head?, c ≠ '=' ∧ c ≠ '>' := by
  obtain ⟨c, first, apart⟩ := cuts.first
  intro d shown
  rw [List.head?_append, first, Option.some_or] at shown
  rwa [← Option.some.inj shown]

/-- A sign behind the tokens of a text is an infix operator. -/
theorem Cuts.followsOperand_pushAll (cuts : Cuts text list) (s : Lexer) :
    (s.pushAll list).followsOperand = true := by
  obtain ⟨front, l, rfl, solid, ends⟩ := cuts.last
  rw [pushAll_append]
  exact (followsOperand_push _ solid).trans ends

/-- An operand is cut into one token. -/
theorem Cuts.operand (scans : Scans text) (first : ∃ c ∈ text.head?, c ≠ '=' ∧ c ≠ '>') :
    Cuts text [.operand text] where
  cut s rest idle _ ends := scans s rest idle ends
  first := first
  last := ⟨[], .operand text, rfl, fun blank => by contradiction, Bool.or_true _⟩

/-- What is between brackets is cut into tokens before they are closed. -/
theorem cut_between (s : Lexer) {kind : TokenKind} (opening : Lexeme)
    (inner : ∀ rest, Ends rest → ((s.push opening).withOpened (kind :: s.opened)).cut (text ++ rest) =
      (((s.push opening).withOpened (kind :: s.opened)).pushAll list).cut rest) :
    ((s.push opening).withOpened (kind :: s.opened)).cut (text ++ [closer kind] ++ rest) =
      (s.pushAll (opening :: list ++ [.closing kind])).cut rest := by
  have ends : Ends (closer kind :: rest) := by
    rintro c ⟨⟩
    unfold closer
    split <;> rfl
  have idle : (((s.push opening).pushAll list).withOpened (kind :: s.opened)).pending = [] :=
    pending_pushAll (pending_push s opening) list
  rw [List.append_assoc, List.singleton_append, inner _ ends, pushAll_withOpened, cut_closing idle rfl]
  refine congrArg (Lexer.cut · rest) ?_
  rw [List.cons_append, pushAll_cons, pushAll_append]
  have kept : (((s.push opening).pushAll list).push (.closing kind)).opened = s.opened :=
    opened_pushAll (s.push opening) list
  show (((s.push opening).pushAll list).push (.closing kind)).withOpened s.opened =
    ((s.push opening).pushAll list).push (.closing kind)
  rw [← kept]
  rfl

/-- An operand is expected after an opening bracket. -/
theorem followsOperand_opening (s : Lexer) {kind : TokenKind}
    (bracket : kind = .parenthesis ∨ kind = .function ∨ kind = .array) (text : List Char)
    (opened : List TokenKind) :
    ((s.push (.opening kind text)).withOpened opened).followsOperand = false := by
  rcases bracket with rfl | rfl | rfl <;> rfl

/-- Parentheses are tokens around those of what they enclose. -/
theorem Cuts.parenthesized (cuts : Cuts text list) :
    Cuts ('(' :: text ++ [')']) (.opening .parenthesis ['('] :: list ++ [.closing .parenthesis]) where
  cut s rest idle _ ends := by
    rw [List.cons_append, List.cons_append, cut_parenthesis idle]
    exact cut_between s _ fun rest ends =>
      cuts.cut _ rest rfl (s.followsOperand_opening (.inl rfl) _ _) ends
  first := ⟨'(', rfl, by decide⟩
  last := ⟨.opening .parenthesis ['('] :: list, .closing .parenthesis, rfl, by decide, rfl⟩

/-- A sign is a token in front of those of its operand. -/
theorem Cuts.sign (cuts : Cuts text list) (sign : c = '+' ∨ c = '-') :
    Cuts (c :: text) (.sign [c] :: list) where
  cut s rest idle expects ends := by
    rw [List.cons_append, cut_sign idle expects sign]
    exact cuts.cut _ rest rfl (followsOperand_push s nofun) ends
  first := ⟨c, rfl, by rcases sign with rfl | rfl <;> decide⟩
  last := by
    obtain ⟨front, l, rfl, rest⟩ := cuts.last
    exact ⟨.sign [c] :: front, l, rfl, rest⟩

/-- A percent sign is a token behind those of its operand. -/
theorem Cuts.percent (cuts : Cuts text list) : Cuts (text ++ ['%']) (list ++ [.percent]) where
  cut s rest idle expects ends := by
    rw [List.append_assoc, cuts.cut s _ idle expects (by rintro _ ⟨⟩; rfl), pushAll_append]
    exact cut_percent (pending_pushAll idle list)
  first := by
    obtain ⟨c, shown, apart⟩ := cuts.first
    exact ⟨c, by rw [List.head?_append, shown]; rfl, apart⟩
  last := ⟨list, .percent, rfl, by decide, rfl⟩

/-- An infix operator is a token between those of its operands. -/
theorem Cuts.operator (left : Cuts text list) (right : Cuts other others) {symbol : List Char}
    (known : symbol ∈ infixSigns) :
    Cuts (text ++ symbol ++ other) (list ++ .operator symbol :: others) where
  cut s rest idle expects ends := by
    have closes : Ends (symbol ++ (other ++ rest)) := by
      have all : infixSigns.all (fun symbol => symbol.head?.any endsOperand) = true := by decide
      have opens := List.all_eq_true.mp all symbol known
      cases symbol with
      | nil => contradiction
      | cons c tail => exact fun d shown => Option.some.inj shown ▸ opens
    rw [List.append_assoc, List.append_assoc, left.cut s _ idle expects closes,
      cut_operator (pending_pushAll idle list) (left.followsOperand_pushAll s) known
        (right.head rest), pushAll_append]
    exact right.cut _ rest rfl (followsOperand_push _ nofun) ends
  first := by
    obtain ⟨c, shown, apart⟩ := left.first
    exact ⟨c, by rw [List.append_assoc, List.head?_append, shown]; rfl, apart⟩
  last := by
    obtain ⟨front, l, rfl, rest⟩ := right.last
    exact ⟨list ++ .operator symbol :: front, l, by simp, rest⟩

/-- Nothing is cut into nothing. -/
theorem cutsInside_nil : CutsInside [] [] := fun _ _ _ _ _ _ => rfl

/-- Texts with a separator between them are cut into the tokens of each. -/
theorem CutsInside.separated (left : CutsInside text list) (right : CutsInside other others)
    {separator : Lexeme} {c : Char} (closes : endsOperand c = true)
    (solid : separator.kind ≠ .blank) (expects : separator.endsOperand = false)
    (cut : ∀ (s : Lexer) (rest : List Char), s.pending = [] →
      (s.opened.head? = some .function ∨ s.opened.head? = some .array) →
        s.cut (c :: rest) = (s.push separator).cut rest) :
    CutsInside (text ++ c :: other) (list ++ separator :: others) := by
  intro s rest idle start within ends
  have among : (s.pushAll list).opened.head? = some .function ∨
      (s.pushAll list).opened.head? = some .array := by rwa [opened_pushAll]
  rw [List.append_assoc, List.cons_append, left s _ idle start within (by rintro _ ⟨⟩; exact closes),
    cut _ _ (pending_pushAll idle list) among, pushAll_append]
  exact right _ rest rfl ((followsOperand_push _ solid).trans expects) among ends

end Lexer

namespace Expr

open Lexer

/-- Trees between commas are cut into the tokens of each. -/
theorem cutsInside_listChars {list : List Expr}
    (all : ∀ e ∈ list, CutsInside e.chars e.lexemes) :
    CutsInside (listChars list) (listLexemes list) := by
  induction list with
  | nil => exact cutsInside_nil
  | cons e rest ih =>
    obtain ⟨first, others⟩ := List.forall_mem_cons.mp all
    cases rest with
    | nil => exact first
    | cons e' rest =>
      exact first.separated (ih others) rfl (by decide) rfl fun s rest idle within =>
        cut_comma idle within

/-- Rows between semicolons are cut into the tokens of each. -/
theorem cutsInside_rowChars {rows : List (List Expr)}
    (all : ∀ row ∈ rows, CutsInside (listChars row) (listLexemes row)) :
    CutsInside (rowChars rows) (rowLexemes rows) := by
  induction rows with
  | nil => exact cutsInside_nil
  | cons row rest ih =>
    obtain ⟨first, others⟩ := List.forall_mem_cons.mp all
    cases rest with
    | nil => exact first
    | cons row' rest =>
      exact first.separated (ih others) rfl (by decide) rfl fun s rest idle _ =>
        cut_semicolon idle

/-- A call is cut into the opening of its function, the tokens of its arguments and a bracket. -/
theorem cuts_call {name : List Char} (some' : name ≠ []) (gathers : Gathers name) {text : List Char}
    {list : List Lexeme} (inside : CutsInside text list) :
    Cuts (name ++ '(' :: text ++ [')'])
      (.opening .function (name ++ ['(']) :: list ++ [.closing .function]) where
  cut s rest idle _ ends := by
    rw [List.append_assoc, List.append_assoc, List.cons_append, cut_function idle some' gathers,
      ← List.append_assoc]
    exact cut_between s _ fun rest ends =>
      inside _ rest rfl (s.followsOperand_opening (.inr (.inl rfl)) _ _) (.inl rfl) ends
  first := by
    obtain ⟨c, rest, rfl⟩ := List.exists_cons_of_ne_nil some'
    have ends := (gathers.head?_ne c rfl).1
    refine ⟨c, rfl, ?_, ?_⟩ <;>
    · rintro rfl
      contradiction
  last := ⟨.opening .function (name ++ ['(']) :: list, .closing .function, rfl, by decide, rfl⟩

/-- An array is cut into the tokens of its entries between brackets. -/
theorem cuts_array {text : List Char} {list : List Lexeme} (inside : CutsInside text list) :
    Cuts ('\x7b' :: text ++ ['\x7d'])
      (.opening .array ['\x7b'] :: list ++ [.closing .array]) where
  cut s rest idle _ ends := by
    rw [List.cons_append, List.cons_append, cut_curly idle]
    exact cut_between s _ fun rest ends =>
      inside _ rest rfl (s.followsOperand_opening (.inr (.inr rfl)) _ _) (.inr rfl) ends
  first := ⟨'\x7b', rfl, by decide⟩
  last := ⟨.opening .array ['\x7b'] :: list, .closing .array, rfl, by decide, rfl⟩

/-- A tree in parentheses, where it needs them, is cut into their tokens and its own. -/
theorem cuts_enclosed {e : Expr} (cuts : Cuts e.chars e.lexemes) (least : Nat) :
    Cuts (e.enclosed least e.chars) (e.bracketed least e.lexemes) := by
  unfold enclosed bracketed
  split
  · exact cuts.parenthesized
  · exact cuts

/-- An operand is cut into its own token. -/
theorem ReadsAs.cuts {text : List Char} {e : Expr} (reads : ReadsAs text e) :
    Cuts text [.operand text] :=
  .operand reads.scans reads.first

/-- The sign of an operator between operands is known. -/
theorem symbol_mem_infixSigns {operator : BinaryOperator} (known : ∀ symbol, operator ≠ .other symbol) :
    operator.symbol.toList ∈ infixSigns := by
  cases operator with
  | other symbol => exact absurd rfl (known symbol)
  | _ => decide

/-- An omitted argument is an empty literal. -/
theorem exists_of_isOmitted {e : Expr} (omitted : e.isOmitted = true) : ∃ span, e = .literal .empty span := by
  unfold isOmitted at omitted
  split at omitted
  · exact ⟨_, rfl⟩
  · contradiction

/-- A tree whose formula says what it is is cut into the tokens of its nodes. -/
theorem Legible.cuts {e : Expr} (legible : e.Legible) : Cuts e.chars e.lexemes := by
  induction legible with
  | number unsigned span => exact (readsAs_number unsigned span).cuts
  | text content span => exact (readsAs_text content span).cuts
  | boolean b span => exact (readsAs_boolean b span).cuts
  | error known span => exact (readsAs_error known span).cuts
  | reference legible spelling span => exact (readsAs_reference legible spelling span).cuts
  | plus _ span ih => exact (cuts_enclosed ih 7).sign (.inl rfl)
  | minus _ span ih => exact (cuts_enclosed ih 7).sign (.inr rfl)
  | percent _ _ span ih => exact (cuts_enclosed ih 6).percent
  | binary known _ _ span first second =>
    exact (cuts_enclosed first _).operator (cuts_enclosed second _) (symbol_mem_infixSigns known)
  | call named gathers _ omitted span ih =>
    refine cuts_call named gathers (cutsInside_listChars fun e listed => ?_)
    cases left : e.isOmitted with
    | false => exact (ih e listed left).inside
    | true =>
      obtain ⟨span, rfl⟩ := exists_of_isOmitted left
      exact cutsInside_nil
  | noRows span => exact cuts_array cutsInside_nil
  | array some' wide rectangular _ span ih =>
    exact cuts_array (cutsInside_rowChars fun row listed =>
      cutsInside_listChars fun e member => (ih row listed e member).inside)

end Expr

end Spreadsheet
