import Spreadsheet.CellError
import Spreadsheet.Formula.Lexer
import Spreadsheet.Reference.Text

/-!
# Cutting pieces of formulas

What a formula is cut into can be told piece by piece. An operand in front of a character that ends
one becomes a token of its own, and so do operators, brackets and separators, wherever they stand.
-/
namespace Spreadsheet

/-- A token without its place. -/
structure Lexeme where
  kind : TokenKind
  role : TokenRole
  text : List Char
deriving DecidableEq, Repr

namespace Lexeme

/-- The operand of a text. -/
def operand (text : List Char) : Lexeme := ⟨.operand, Token.operandRole text, text⟩

/-- The bracket that opens. A function opens with its name. -/
def opening (kind : TokenKind) (text : List Char) : Lexeme := ⟨kind, .opening, text⟩

/-- The bracket that closes. -/
def closing (kind : TokenKind) : Lexeme := ⟨kind, .closing, [Lexer.closer kind]⟩

/-- A comma between arguments or entries. -/
def comma : Lexeme := ⟨.separator, .argument, [',']⟩

/-- A semicolon between rows. -/
def semicolon : Lexeme := ⟨.separator, .row, [';']⟩

/-- A percent sign. -/
def percent : Lexeme := ⟨.postfixOperator, .plain, ['%']⟩

/-- An operator in front of an operand. -/
def sign (text : List Char) : Lexeme := ⟨.prefixOperator, .plain, text⟩

/-- An operator between two operands. -/
def operator (text : List Char) : Lexeme := ⟨.infixOperator, .plain, text⟩

/-- An operand ends here, so that a sign that follows is an infix operator. -/
def endsOperand (l : Lexeme) : Bool :=
  l.role == .closing || l.kind == .postfixOperator || l.kind == .operand

end Lexeme

/-- The token without its place. -/
def Token.lexeme (t : Token) : Lexeme := ⟨t.kind, t.role, t.text⟩

/-- The size of a text is that of its first character and those behind it. -/
theorem byteSize_cons (c : Char) (rest : List Char) : byteSize (c :: rest) = c.utf8Size + byteSize rest := by
  have started : ∀ (text : List Char) (size : Nat),
      text.foldl (fun size c => size + c.utf8Size) size = size + byteSize text := by
    intro text
    induction text with
    | nil => exact fun size => rfl
    | cons c rest ih =>
      intro size
      rw [byteSize, List.foldl_cons, List.foldl_cons, ih, ih, Nat.zero_add, Nat.add_assoc]
  rw [byteSize, List.foldl_cons, started, Nat.zero_add]

/-- The sizes of two texts add up. -/
@[simp] theorem byteSize_append (text other : List Char) :
    byteSize (text ++ other) = byteSize text + byteSize other := by
  induction text with
  | nil => exact (Nat.zero_add _).symm
  | cons c rest ih => rw [List.cons_append, byteSize_cons, byteSize_cons, ih, Nat.add_assoc]

/-- The size of a text does not depend on its direction. -/
theorem byteSize_reverse (text : List Char) : byteSize text.reverse = byteSize text := by
  induction text with
  | nil => rfl
  | cons c rest ih =>
    rw [List.reverse_cons, byteSize_append, ih, byteSize_cons, byteSize_cons, Nat.add_comm]
    rfl

namespace Lexer

/-- The tokens of a text after what has been read. -/
def cut (s : Lexer) (text : List Char) : Except LexicalError (List Token) := s.run text >>= finish

/-- Add a token of its own after the last one. -/
def push (s : Lexer) (l : Lexeme) : Lexer := s.emit l.kind l.role l.text

/-- Add tokens one after the other. -/
def pushAll (s : Lexer) (list : List Lexeme) : Lexer := list.foldl push s

/-- The brackets that are open are others. -/
def withOpened (s : Lexer) (opened : List TokenKind) : Lexer := { s with opened := opened }

/-- The text ends here, or its next character ends a pending operand. -/
def Ends (rest : List Char) : Prop := ∀ c ∈ rest.head?, endsOperand c = true

variable {s : Lexer} {rest : List Char} {c : Char}

/-- Reading goes on after what one character reads. -/
theorem cut_cons {s' : Lexer} {length : Nat} (read : s.step c rest = .ok (s', length)) :
    s.cut (c :: rest) = s'.cut (rest.drop length) := by
  rw [cut, run, read]
  rfl

/-- At the end of the text the tokens are complete. -/
theorem cut_nil (s : Lexer) : s.cut [] = s.finish := by
  rw [cut, run]
  rfl

/-! ### State -/

/-- Nothing is pending after a token. -/
@[simp] theorem pending_push (s : Lexer) (l : Lexeme) : (s.push l).pending = [] := rfl

/-- A token leaves the open brackets. -/
@[simp] theorem opened_push (s : Lexer) (l : Lexeme) : (s.push l).opened = s.opened := rfl

/-- Tokens one after the other. -/
@[simp] theorem pushAll_cons (s : Lexer) (l : Lexeme) (list : List Lexeme) :
    s.pushAll (l :: list) = (s.push l).pushAll list := rfl

/-- Tokens one after the other. -/
@[simp] theorem pushAll_append (s : Lexer) (list others : List Lexeme) :
    s.pushAll (list ++ others) = (s.pushAll list).pushAll others :=
  List.foldl_append

/-- Nothing is pending after tokens. -/
theorem pending_pushAll (idle : s.pending = []) (list : List Lexeme) :
    (s.pushAll list).pending = [] := by
  induction list generalizing s with
  | nil => exact idle
  | cons l rest ih => exact ih (pending_push s l)

/-- Tokens leave the open brackets. -/
@[simp] theorem opened_pushAll (s : Lexer) (list : List Lexeme) :
    (s.pushAll list).opened = s.opened := by
  induction list generalizing s with
  | nil => rfl
  | cons l rest ih => exact ih (s.push l)

/-- Tokens do not depend on the open brackets. -/
theorem pushAll_withOpened (s : Lexer) (opened : List TokenKind) (list : List Lexeme) :
    (s.withOpened opened).pushAll list = (s.pushAll list).withOpened opened := by
  induction list generalizing s with
  | nil => rfl
  | cons l rest ih => exact ih (s.push l)

/-- The token that comes last decides about a sign that follows. -/
@[simp] theorem followsOperand_push (s : Lexer) {l : Lexeme} (solid : l.kind ≠ .blank) :
    (s.push l).followsOperand = l.endsOperand := by
  unfold followsOperand push emit
  rw [List.find?_cons_of_pos (by simpa [Token.place] using solid)]
  rfl

/-- The open brackets do not decide about a sign that follows. -/
@[simp] theorem followsOperand_withOpened (s : Lexer) (opened : List TokenKind) :
    (s.withOpened opened).followsOperand = s.followsOperand := rfl

/-- With nothing pending there is nothing to save. -/
theorem save_of_idle (idle : s.pending = []) : s.save = s := by
  unfold save
  rw [idle]
  rfl

/-- With nothing pending no exponent is awaited. -/
theorem awaitsExponent_of_idle (idle : s.pending = []) : s.awaitsExponent = false := by
  unfold awaitsExponent
  rw [idle]

/-- A pending text becomes an operand. -/
theorem save_extend (idle : s.pending = []) {text : List Char} (some' : text ≠ []) :
    (s.extend text).save = s.push (.operand text) := by
  obtain ⟨pending, start, tokens, opened⟩ := s
  obtain rfl : pending = [] := idle
  have filled : text.reverse.isEmpty = false := by simpa using some'
  have empty : byteSize [] = 0 := rfl
  unfold save extend push emit offset
  simp only [List.append_nil, filled, Bool.false_eq_true, if_false, List.reverse_reverse,
    byteSize_reverse, empty, Nat.add_zero]
  rfl

/-- Saving twice is saving once. -/
theorem save_save (s : Lexer) : s.save.save = s.save := by
  unfold save
  split <;> rfl

/-- What ends an operand is read as if the operand had been saved before. -/
theorem cut_save (s : Lexer) (complete : s.awaitsExponent = false) (ends : Ends rest) :
    s.cut rest = s.save.cut rest := by
  cases rest with
  | nil =>
    rw [cut_nil, cut_nil, finish, finish, save_save]
  | cons c rest =>
    have closed : endsOperand c = true := ends c rfl
    have saved : s.save.awaitsExponent = false := by
      cases idle : s.pending.isEmpty with
      | true => rwa [save_of_idle (List.isEmpty_iff.mp idle)]
      | false =>
        refine awaitsExponent_of_idle ?_
        unfold save
        rw [if_neg (by simp [idle])]
    have same : s.step c rest = s.save.step c rest := by
      unfold step
      simp only [complete, saved, Bool.and_false, Bool.false_eq_true, if_false, closed, if_true,
        save_save]
    rw [cut, cut, run, run, same]

/-! ### Words -/

/-- A character of a number, a truth value or a reference outside quotes. -/
def isWordChar (c : Char) : Bool := c.isAlphanum || "._$:!".toList.contains c

/-- The characters with which something other than a word starts. -/
def markers : List Char :=
  ['+', '-', '"', '\'', '[', '#', ' ', '\n', '\t', '\x7b', '(', ')', '\x7d', ';', ',']

/-- The character has no meaning of its own. -/
def isOrdinary (c : Char) : Bool := !endsOperand c && !"\"'[#\n\t\x7b(".toList.contains c

/-- An ordinary character is no other one. -/
theorem ne_of_isOrdinary (plain : isOrdinary c = true) {d : Char} (special : isOrdinary d = false) : c ≠ d := by
  rintro rfl
  rw [plain] at special
  contradiction

/-- An ordinary character joins what is pending. -/
theorem cut_ordinary (plain : isOrdinary c = true) : s.cut (c :: rest) = (s.extend [c]).cut rest := by
  have apart : ∀ d ∈ markers, c ≠ d := fun d listed => by
    have special : markers.all (fun d => !isOrdinary d) = true := by decide
    exact ne_of_isOrdinary plain (by simpa using List.all_eq_true.mp special d listed)
  have operator : isOperatorStart c = false := by
    have special : "+-*/^&=><%".toList.all (fun d => !isOrdinary d) = true := by decide
    refine Bool.eq_false_iff.mpr fun listed => ?_
    have other := List.all_eq_true.mp special c (List.contains_iff_mem.mp listed)
    rw [plain] at other
    contradiction
  have ends : endsOperand c = false := by
    have both := (Bool.and_eq_true_iff.mp plain).1
    simpa using both
  have read : s.step c rest = .ok (s.extend [c], 0) := by
    simp only [markers, List.forall_mem_cons] at apart
    unfold step isFormulaBlank
    simp [ends, operator, apart]
  exact cut_cons read

/-- A character of a word has no meaning of its own. -/
theorem isOrdinary_of_isWordChar (word : isWordChar c = true) : isOrdinary c = true := by
  have others : ∀ {special : List Char}, special.any isWordChar = false → special.contains c = false := by
    intro special none
    refine Bool.eq_false_iff.mpr fun found => ?_
    exact List.any_eq_false.mp none c (List.contains_iff_mem.mp found) word
  unfold isOrdinary endsOperand
  rw [others (by decide), others (by decide)]
  rfl

/-- A character of a word joins what is pending. -/
theorem cut_wordChar (word : isWordChar c = true) : s.cut (c :: rest) = (s.extend [c]).cut rest :=
  cut_ordinary (isOrdinary_of_isWordChar word)

/-- The characters of a word join what is pending. -/
theorem cut_word {word : List Char} (all : ∀ c ∈ word, isWordChar c = true) :
    s.cut (word ++ rest) = (s.extend word).cut rest := by
  induction word generalizing s with
  | nil => rfl
  | cons c word ih =>
    rw [List.cons_append, cut_wordChar (all c List.mem_cons_self),
      ih fun d listed => all d (List.mem_cons_of_mem c listed)]
    refine congrArg (cut · rest) ?_
    simp [extend]

/-! ### Operands -/

/-- What follows the opening quote of a content. -/
def closed (quote : Char) (content : List Char) : List Char := doubleQuotes quote content ++ [quote]

/-- A text in front of what ends an operand becomes an operand. -/
def Scans (text : List Char) : Prop :=
  ∀ (s : Lexer) (rest : List Char), s.pending = [] → Ends rest →
    s.cut (text ++ rest) = (s.push (.operand text)).cut rest

/-- A sign that follows does not belong to an exponent: the text does not end with the mark of one, or
it is not made of digits and points only. -/
def EndsClearly (text : List Char) : Prop :=
  (∀ c ∈ text.getLast?, c ≠ 'e' ∧ c ≠ 'E') ∨
    ∃ c ∈ text, c.isDigit = false ∧ c ≠ '.' ∧ c ≠ 'e' ∧ c ≠ 'E'

/-- No exponent is awaited after such a text. -/
theorem awaitsExponent_extend (idle : s.pending = []) {text : List Char} (clear : EndsClearly text) :
    (s.extend text).awaitsExponent = false := by
  have shown : (s.extend text).pending = text.reverse := by
    unfold extend
    rw [idle, List.append_nil]
  rw [Bool.eq_false_iff]
  intro awaits
  unfold awaitsExponent at awaits
  rw [shown] at awaits
  cases reversed : text.reverse with
  | nil =>
    rw [reversed] at awaits
    contradiction
  | cons mark number =>
    have written : text = number.reverse ++ [mark] := by
      rw [← List.reverse_reverse text, reversed, List.reverse_cons]
    rw [reversed] at awaits
    cases digits : number.reverse with
    | nil => simp [digits] at awaits
    | cons first rest =>
      simp only [digits, Bool.and_eq_true, Bool.or_eq_true, beq_iff_eq, List.all_eq_true,
        decide_eq_true_eq] at awaits
      obtain ⟨exponent, ⟨digit, others⟩, _⟩ := awaits
      rcases clear with last | ⟨c, listed, noDigit, noPoint, small, capital⟩
      · have other := last mark (by rw [written, List.getLast?_concat]; rfl)
        rcases exponent with rfl | rfl
        · exact other.1 rfl
        · exact other.2 rfl
      · rw [written, digits] at listed
        simp only [List.cons_append, List.mem_cons, List.mem_append, List.not_mem_nil,
          or_false] at listed
        rcases listed with rfl | within | rfl
        · rw [digit] at noDigit
          contradiction
        · rcases others c within with isDigit | isPoint
          · rw [isDigit] at noDigit
            contradiction
          · exact noPoint isPoint
        · rcases exponent with same | same
          · exact small same
          · exact capital same

/-- A word that ends clearly is an operand. -/
theorem scans_word {word : List Char} (some' : word ≠ []) (all : ∀ c ∈ word, isWordChar c = true)
    (clear : EndsClearly word) : Scans word := by
  intro s rest idle ends
  rw [cut_word all, cut_save _ (awaitsExponent_extend idle clear) ends, save_extend idle some']

/-- Quotes that are written twice do not close. -/
theorem quotedLength?_closed (quote : Char) (content : List Char)
    (apart : ∀ c ∈ rest.head?, c ≠ quote) :
    quotedLength? quote (closed quote content ++ rest) = some (closed quote content).length := by
  unfold closed
  induction content with
  | nil =>
    cases rest with
    | nil => simp [doubleQuotes, quotedLength?]
    | cons c rest => simp [doubleQuotes, quotedLength?, apart c rfl]
  | cons c content ih =>
    unfold doubleQuotes
    split
    · rename_i same
      simp only [List.cons_append, quotedLength?, same, if_true, ih, Option.map_some,
        List.length_cons]
    · rename_i other
      -- The reader looks at two characters at a time, so the second has to be shown.
      cases later : doubleQuotes quote content ++ [quote] ++ rest with
      | nil => simp at later
      | cons d tail =>
        simp only [List.cons_append, later, quotedLength?, other, if_false]
        rw [← later, ih]
        rfl

/-- A quoted name joins what is pending behind a colon or a lone dollar sign, or starts an operand. -/
theorem cut_joinedName (place : s.pending = [] ∨ s.pending = ['$'] ∨ s.pending.head? = some ':')
    (name : List Char) (apart : ∀ c ∈ rest.head?, c ≠ '\'') :
    s.cut ('\'' :: closed '\'' name ++ rest) = (s.extend ('\'' :: closed '\'' name)).cut rest := by
  have length := quotedLength?_closed '\'' name apart
  have joined : (if ('\'' == '\'' && s.pending == ['$']) || s.pending.head? == some ':' then s
      else s.save) = s := by
    rcases place with idle | dollar | colon
    · rw [save_of_idle idle, ite_self]
    · rw [dollar]
      rfl
    · rw [colon]
      exact if_pos (Bool.or_true _)
  have read : s.step '\'' (closed '\'' name ++ rest) =
      .ok (s.extend ('\'' :: closed '\'' name), (closed '\'' name).length) := by
    show s.readQuoted '\'' _ = _
    unfold readQuoted
    dsimp only
    rw [joined]
    simp only [length, List.take_left]
    rfl
  rw [List.cons_append, cut_cons read, List.drop_left]

/-- A name in quotes, its mark and a word are an operand. -/
theorem scans_quotedName (name : List Char) {word : List Char}
    (all : ∀ c ∈ word, isWordChar c = true) : Scans ('\'' :: closed '\'' name ++ '!' :: word) := by
  intro s rest idle ends
  have marked : ∀ c ∈ '!' :: word, isWordChar c = true := List.forall_mem_cons.mpr ⟨rfl, all⟩
  have clear : EndsClearly ('\'' :: closed '\'' name ++ '!' :: word) :=
    .inr ⟨'\'', List.mem_cons_self, by decide⟩
  have joined : (s.extend ('\'' :: closed '\'' name)).extend ('!' :: word) =
      s.extend ('\'' :: closed '\'' name ++ '!' :: word) := by
    simp [extend]
  rw [List.append_assoc, cut_joinedName (.inl idle) name (by simp), cut_word marked, joined,
    cut_save _ (awaitsExponent_extend idle clear) ends, save_extend idle (by simp)]

/-- A text in quotes is an operand. -/
theorem scans_text (content : List Char) : Scans ('"' :: closed '"' content) := by
  intro s rest idle ends
  have apart : ∀ c ∈ rest.head?, c ≠ '"' := by
    rintro c first rfl
    exact absurd (ends _ first) (by decide)
  have length := quotedLength?_closed '"' content apart
  have start : s.offset = s.start := by
    unfold offset
    rw [idle]
    rfl
  have read : s.step '"' (closed '"' content ++ rest) =
      .ok (s.push (.operand ('"' :: closed '"' content)), (closed '"' content).length) := by
    show s.readQuoted '"' _ = _
    unfold readQuoted
    simp only [save_of_idle idle, ite_self, length, List.take_left, if_true]
    unfold push emit offset
    rw [idle]
    rfl
  rw [List.cons_append, cut_cons read, List.drop_left]

/-- The code of an error is found where it stands, in front of what ends an operand. -/
theorem errorCodeLength?_code (kind : ErrorKind) (ends : Ends rest) :
    errorCodeLength? (kind.code.toList ++ rest) = some kind.code.toList.length := by
  have unmarked : ∀ c ∈ rest.head?, c.toUpper ≠ '!' := by
    intro c first
    have closing : (",;\x7d) +-*/^&=><%".toList.any fun d => d.toUpper == '!') = false := by decide
    have other := List.any_eq_false.mp closing c (List.contains_iff_mem.mp (ends c first))
    exact fun mark => other (beq_iff_eq.mpr mark)
  cases kind with
  | reference =>
    -- The code with an exclamation mark is looked for first.
    cases rest with
    | nil => rfl
    | cons c rest =>
      have apart : ¬c.toUpper = '!' := unmarked c rfl
      simp [errorCodeLength?, errorCodes, ErrorKind.code, apart]
  | _ => rfl

/-- The code of an error is an operand. -/
theorem scans_code (kind : ErrorKind) : Scans kind.code.toList := by
  intro s rest idle ends
  have first : kind.code.toList = '#' :: kind.code.toList.tail := by cases kind <;> rfl
  have length : errorCodeLength? ('#' :: (kind.code.toList.tail ++ rest)) =
      some kind.code.toList.length := by
    rw [← List.cons_append, ← first, errorCodeLength?_code kind ends]
  have whole : ('#' :: (kind.code.toList.tail ++ rest)).take kind.code.toList.length =
      kind.code.toList := by
    rw [← List.cons_append, ← first, List.take_left]
  have read : s.step '#' (kind.code.toList.tail ++ rest) =
      .ok (s.push (.operand kind.code.toList), kind.code.toList.tail.length) := by
    show s.readErrorCode _ = _
    unfold readErrorCode
    simp only [save_of_idle idle, ite_self, length, whole, List.length_tail]
    rw [save_extend idle (by rw [first]; exact List.cons_ne_nil _ _)]
  rw [first, List.cons_append, cut_cons read, List.drop_left, ← first]

/-! ### Operators, brackets and separators -/

/-- An operator is read where nothing is pending. -/
theorem step_operator (idle : s.pending = []) (operator : isOperatorStart c = true)
    (rest : List Char) : s.step c rest = .ok (s.readOperator c rest) := by
  have awaits := awaitsExponent_of_idle idle
  have listed : c ∈ ['+', '-', '*', '/', '^', '&', '=', '>', '<', '%'] :=
    List.contains_iff_mem.mp operator
  simp only [List.mem_cons, List.not_mem_nil, or_false] at listed
  unfold step
  rcases listed with rfl | rfl | rfl | rfl | rfl | rfl | rfl | rfl | rfl | rfl <;>
    simp [awaits, save_of_idle idle, operator, isFormulaBlank]

/-- An operator of one character: the next one does not make another operator of it. -/
theorem readOperator_single (idle : s.pending = [])
    (alone : c = '<' ∨ c = '>' → ∀ d ∈ rest.head?, d ≠ '=' ∧ d ≠ '>') :
    s.readOperator c rest =
      (s.emit (if c = '%' then .postfixOperator
        else if (c = '+' ∨ c = '-') ∧ !s.followsOperand then .prefixOperator
        else .infixOperator) .plain [c], 0) := by
  unfold readOperator
  rw [save_of_idle idle]
  dsimp only
  split
  · exact absurd rfl (alone (.inr rfl) '=' rfl).1
  · exact absurd rfl (alone (.inl rfl) '=' rfl).1
  · exact absurd rfl (alone (.inl rfl) '>' rfl).2
  · rfl

/-- A percent sign is an operator behind an operand. -/
theorem cut_percent (idle : s.pending = []) :
    s.cut ('%' :: rest) = (s.push .percent).cut rest := by
  have read := step_operator idle (show isOperatorStart '%' = true from rfl) rest
  rw [readOperator_single idle fun angle => absurd angle (by decide)] at read
  exact cut_cons read

/-- A sign where an operand is expected is an operator in front of one. -/
theorem cut_sign (idle : s.pending = []) (expects : s.followsOperand = false)
    (sign : c = '+' ∨ c = '-') : s.cut (c :: rest) = (s.push (.sign [c])).cut rest := by
  have operator : isOperatorStart c = true := by rcases sign with rfl | rfl <;> rfl
  have alone : ¬(c = '<' ∨ c = '>') := by rcases sign with rfl | rfl <;> decide
  have other : c ≠ '%' := by rcases sign with rfl | rfl <;> decide
  have read := step_operator idle operator rest
  rw [readOperator_single idle fun angle => absurd angle alone, if_neg other,
    if_pos ⟨sign, by rw [expects]; rfl⟩] at read
  exact cut_cons read

/-- The signs of infix operators. -/
def infixSigns : List (List Char) :=
  [['^'], ['*'], ['/'], ['+'], ['-'], ['&'], ['='], ['<', '>'], ['<'], ['>'], ['<', '='], ['>', '=']]

/-- An operator behind an operand stands between two, unless it is a percent sign. -/
theorem cut_operator (idle : s.pending = []) (follows : s.followsOperand = true) {symbol : List Char}
    (known : symbol ∈ infixSigns) (alone : ∀ d ∈ rest.head?, d ≠ '=' ∧ d ≠ '>') :
    s.cut (symbol ++ rest) = (s.push (.operator symbol)).cut rest := by
  have single : ∀ c, isOperatorStart c = true → c ≠ '%' →
      s.cut (c :: rest) = (s.push (.operator [c])).cut rest := by
    intro c operator other
    have read := step_operator idle operator rest
    rw [readOperator_single idle fun _ => alone, if_neg other,
      if_neg fun both => by simp [follows] at both] at read
    exact cut_cons read
  have double : ∀ c d, s.readOperator c (d :: rest) = (s.emit .infixOperator .plain [c, d], 1) →
      isOperatorStart c = true → s.cut (c :: d :: rest) = (s.push (.operator [c, d])).cut rest := by
    intro c d pair operator
    have read := step_operator idle operator (d :: rest)
    rw [pair] at read
    exact cut_cons read
  simp only [infixSigns, List.mem_cons, List.not_mem_nil, or_false] at known
  rcases known with rfl | rfl | rfl | rfl | rfl | rfl | rfl | rfl | rfl | rfl | rfl | rfl
  case inr.inr.inr.inr.inr.inr.inr.inl =>
    exact double '<' '>' (by rw [readOperator, save_of_idle idle]; rfl) rfl
  case inr.inr.inr.inr.inr.inr.inr.inr.inr.inr.inl =>
    exact double '<' '=' (by rw [readOperator, save_of_idle idle]; rfl) rfl
  case inr.inr.inr.inr.inr.inr.inr.inr.inr.inr.inr =>
    exact double '>' '=' (by rw [readOperator, save_of_idle idle]; rfl) rfl
  all_goals exact single _ rfl (by decide)

/-- A parenthesis where nothing is pending opens no function. -/
theorem cut_parenthesis (idle : s.pending = []) :
    s.cut ('(' :: rest) = ((s.push (.opening .parenthesis ['('])).withOpened
      (.parenthesis :: s.opened)).cut rest := by
  have read : s.step '(' rest = .ok (s.readOpening '(', 0) := rfl
  have shape : s.readOpening '(' = (s.push (.opening .parenthesis ['('])).withOpened
      (.parenthesis :: s.opened) := by
    unfold readOpening
    rw [idle]
    rfl
  rw [cut_cons read, shape]
  rfl

/-- A curly bracket opens an array. -/
theorem cut_curly (idle : s.pending = []) :
    s.cut ('\x7b' :: rest) = ((s.push (.opening .array ['\x7b'])).withOpened
      (.array :: s.opened)).cut rest := by
  have read : s.step '\x7b' rest = .ok (s.readOpening '\x7b', 0) := rfl
  have shape : s.readOpening '\x7b' = (s.push (.opening .array ['\x7b'])).withOpened
      (.array :: s.opened) := by
    unfold readOpening
    rw [save_of_idle idle]
    rfl
  rw [cut_cons read, shape]
  rfl

/-- A bracket closes what it was opened by. -/
theorem cut_closing (idle : s.pending = []) {kind : TokenKind} {opened : List TokenKind}
    (last : s.opened = kind :: opened) :
    s.cut (closer kind :: rest) = ((s.push (.closing kind)).withOpened opened).cut rest := by
  have read : s.step (closer kind) rest = (s.save.readClosing (closer kind)).map fun s => (s, 0) := by
    unfold closer
    split <;> rfl
  have shape : s.readClosing (closer kind) = .ok ((s.push (.closing kind)).withOpened opened) := by
    unfold readClosing
    rw [save_of_idle idle]
    dsimp only
    rw [last]
    exact if_pos rfl
  rw [save_of_idle idle, shape] at read
  exact cut_cons read

/-- A comma inside a function or an array separates. -/
theorem cut_comma (idle : s.pending = [])
    (inside : s.opened.head? = some .function ∨ s.opened.head? = some .array) :
    s.cut (',' :: rest) = (s.push .comma).cut rest := by
  have read : s.step ',' rest = .ok (s.save.readSeparator ',', 0) := rfl
  have shape : s.readSeparator ',' = s.push .comma := by
    unfold readSeparator
    rw [save_of_idle idle]
    dsimp only
    rcases inside with function | array
    · rw [function]
      rfl
    · rw [array]
      rfl
  rw [save_of_idle idle, shape] at read
  exact cut_cons read

/-- A semicolon separates rows. -/
theorem cut_semicolon (idle : s.pending = []) :
    s.cut (';' :: rest) = (s.push .semicolon).cut rest := by
  have read : s.step ';' rest = .ok (s.save.readSeparator ';', 0) := rfl
  have shape : s.readSeparator ';' = s.push .semicolon := by
    unfold readSeparator
    rw [save_of_idle idle]
    rfl
  rw [save_of_idle idle, shape] at read
  exact cut_cons read

end Lexer

end Spreadsheet
