import Spreadsheet.Formula.Parser
import Spreadsheet.Formula.Printer
import Spreadsheet.Proofs.Decimal.Texts
import Spreadsheet.Proofs.Formula.Scanning
import Spreadsheet.Proofs.Formula.Trees
import Spreadsheet.Proofs.Reference.Texts

/-!
# Operands of formulas

A number, a text, a truth value, an error code and a reference are each written as one operand, and
the operand is read as what was written.
-/
namespace Spreadsheet

namespace Expr

/-- A text is one operand of a formula, and it is read as the given tree but for tokens and
spellings. -/
structure ReadsAs (text : List Char) (e : Expr) : Prop where
  scans : Lexer.Scans text
  first : ∃ c ∈ text.head?, c ≠ '=' ∧ c ≠ '>'
  read : ∀ t : Token, t.lexeme = .operand text → ∃ e', ofOperand t = .ok e' ∧ e'.bare = e.bare

/-- What is read from an operand depends on the text of its token. -/
theorem role_of_lexeme {t : Token} {text : List Char} (same : t.lexeme = .operand text) :
    t.role = Token.operandRole text ∧ t.text = text := by
  obtain ⟨_, role, text⟩ := Lexeme.mk.inj same
  exact ⟨role, text⟩

/-! ### Roles -/

variable {text : List Char}

/-- A word that starts with neither a quote nor a number sign and is no truth value is a number or a
reference. -/
theorem operandRole_eq (unquoted : ∀ c ∈ text.head?, c ≠ '"' ∧ c ≠ '#') {c : Char} (listed : c ∈ text)
    (other : c.isAlpha = false) :
    Token.operandRole text = if (Decimal.read? text).isSome then .number else .range := by
  have noQuote : (text.head? == some '"') = false :=
    beq_eq_false_iff_ne.mpr fun first => (unquoted _ first).1 rfl
  have noMark : (text.head? == some '#') = false :=
    beq_eq_false_iff_ne.mpr fun first => (unquoted _ first).2 rfl
  unfold Token.operandRole
  rw [noQuote, noMark, Text.sameIgnoringCase_eq_false listed other (by decide),
    Text.sameIgnoringCase_eq_false listed other (by decide)]
  rfl

/-! ### Literals -/

/-- A word that is a number is read as the number. -/
theorem readsAs_of_read? {x : Number} (some' : text ≠ []) (all : ∀ c ∈ text, Lexer.isWordChar c = true)
    (clear : Lexer.EndsClearly text) (role : Token.operandRole text = .number)
    (found : Decimal.read? text = some x) (span : Option Span) :
    ReadsAs text (.literal (.number x) span) := by
  refine ⟨Lexer.scans_word some' all clear, ?_, fun t same => ?_⟩
  · obtain ⟨c, rest, rfl⟩ := List.exists_cons_of_ne_nil some'
    have word := all c List.mem_cons_self
    refine ⟨c, rfl, ?_, ?_⟩ <;>
    · rintro rfl
      contradiction
  · obtain ⟨role', written⟩ := role_of_lexeme same
    refine ⟨.literal (.number x) (some t.span), ?_, rfl⟩
    unfold ofOperand
    rw [role', role, written, found]

/-- The text of a finite number without a sign is read as the number. -/
theorem readsAs_finite {x : Number} (finite : x.isFinite = true) (unsigned : x.isNegative = false)
    (span : Option Span) : ReadsAs (Decimal.text x).toList (.literal (.number x) span) := by
  obtain ⟨all, ⟨c, first, digit⟩, d, last, digit'⟩ := Decimal.text_spec finite unsigned
  have found := Decimal.read?_text finite unsigned
  have listed := List.mem_of_mem_head? first
  have unquoted : ∀ e ∈ (Decimal.text x).toList.head?, e ≠ '"' ∧ e ≠ '#' := by
    intro e start
    rw [Option.mem_def.mp start] at first
    obtain rfl := Option.some.inj first
    constructor <;>
    · rintro rfl
      contradiction
  refine readsAs_of_read? (List.ne_nil_of_mem listed) (fun e within => ?_) (.inl fun e last' => ?_) ?_
    found span
  · rcases all e within with digit | rfl
    · simp [Lexer.isWordChar, Char.isAlphanum, digit]
    · rfl
  · rw [Option.mem_def.mp last'] at last
    obtain rfl := Option.some.inj last
    constructor <;>
    · rintro rfl
      contradiction
  · rw [operandRole_eq unquoted listed (Text.isAlpha_of_isDigit digit), found]
    rfl

/-- The text of a number without a sign is read as the number. -/
theorem readsAs_number {x : Number} (unsigned : Decimal.Unsigned x) (span : Option Span) :
    ReadsAs (Value.number x).literalChars (.literal (.number x) span) := by
  have shape : (Value.number x).literalChars = (Decimal.text x).toList := by
    rw [Value.literalChars]
    · rfl
    · exact nofun
    · exact nofun
  rw [shape]
  rcases unsigned.cases with finite | rfl | rfl
  · exact readsAs_finite finite unsigned.sign span
  · show ReadsAs "inf".toList _
    exact readsAs_of_read? (by decide) (List.all_eq_true.mp (by decide)) (.inr ⟨'i', by decide, by decide⟩)
      (by decide +kernel) rfl span
  · show ReadsAs "NaN".toList _
    exact readsAs_of_read? (by decide) (List.all_eq_true.mp (by decide)) (.inr ⟨'N', by decide, by decide⟩)
      (by decide +kernel) rfl span

/-- Quotes that are written twice are read once. -/
theorem singleQuotes_doubleQuotes (quote : Char) (content : List Char) :
    singleQuotes quote (doubleQuotes quote content) = content := by
  induction content with
  | nil => rfl
  | cons c content ih =>
    unfold doubleQuotes
    split
    · rename_i same
      rw [singleQuotes, if_pos ⟨same, same⟩, ih, same]
    · rename_i other
      -- The reader looks at two characters at a time, so the second has to be shown.
      cases later : doubleQuotes quote content with
      | nil =>
        rw [later] at ih
        rw [← ih]
        rfl
      | cons d rest =>
        rw [singleQuotes, if_neg fun both => other both.1, ← later, ih]

/-- The content of a text in quotes. -/
theorem quotedContent_closed (content : List Char) :
    quotedContent ('"' :: Lexer.closed '"' content) = content := by
  unfold quotedContent Lexer.closed
  simp only [List.getLast?_concat, if_true, List.dropLast_concat]
  exact singleQuotes_doubleQuotes '"' content

/-- A text in quotes is read as the text. -/
theorem readsAs_text (content : String) (span : Option Span) :
    ReadsAs (Value.text content).literalChars (.literal (.text content) span) := by
  have shape : (Value.text content).literalChars = '"' :: Lexer.closed '"' content.toList := by
    rw [Value.literalChars]
    rfl
  rw [shape]
  refine ⟨Lexer.scans_text content.toList, ⟨'"', rfl, by decide⟩, fun t same => ?_⟩
  obtain ⟨role, written⟩ := role_of_lexeme same
  have quoted : t.role = .text := role
  refine ⟨.literal (.text content) (some t.span), ?_, rfl⟩
  unfold ofOperand
  rw [quoted, written]
  dsimp only
  rw [quotedContent_closed, String.ofList_toList]

/-- A truth value is read as it is written. -/
theorem readsAs_boolean (b : Bool) (span : Option Span) :
    ReadsAs (Value.boolean b).literalChars (.literal (.boolean b) span) := by
  have shape : (Value.boolean b).literalChars = (if b then "TRUE" else "FALSE").toList := by
    rw [Value.literalChars]
    · rfl
    · exact nofun
    · exact nofun
  have scans : Lexer.Scans (if b then "TRUE" else "FALSE").toList := by
    cases b with
    | true => exact Lexer.scans_word (by decide) (List.all_eq_true.mp (by decide)) (.inr ⟨'T', by decide, by decide⟩)
    | false => exact Lexer.scans_word (by decide) (List.all_eq_true.mp (by decide)) (.inr ⟨'F', by decide, by decide⟩)
  have itself : ∀ word : String, Text.sameIgnoringCase (String.ofList word.toList) word = true := by
    intro word
    rw [String.ofList_toList]
    exact Text.sameIgnoringCase_iff.mpr rfl
  have back : Text.sameIgnoringCase (String.ofList (if b then "TRUE" else "FALSE").toList) "TRUE" = b := by
    cases b with
    | true => exact itself "TRUE"
    | false =>
      refine Bool.eq_false_iff.mpr fun same => ?_
      rw [Text.sameIgnoringCase_iff, String.ofList_toList] at same
      exact absurd same (by decide)
  have logical : Token.operandRole (if b then "TRUE" else "FALSE").toList = .logical := by
    unfold Token.operandRole
    rw [back]
    cases b with
    | true => rfl
    | false =>
      have other := itself "FALSE"
      simp only [Bool.false_eq_true, if_false, other, if_true]
      rfl
  rw [shape]
  refine ⟨scans, ?_, fun t same => ?_⟩
  · cases b with
    | true => exact ⟨'T', rfl, by decide⟩
    | false => exact ⟨'F', rfl, by decide⟩
  · obtain ⟨role, written⟩ := role_of_lexeme same
    refine ⟨.literal (.boolean b) (some t.span), ?_, rfl⟩
    unfold ofOperand
    rw [role, written, logical]
    dsimp only
    rw [back]

/-- The code of a kind of errors is typed as it is shown. -/
theorem ofCode?_code (kind : ErrorKind) : ErrorKind.ofCode? kind.code = some kind := by
  have typed : Text.upperAscii (Text.trimmed kind.code) = kind.code := by
    rw [← String.toList_inj, Text.toList_upperAscii, Text.trimmed, String.toList_ofList]
    cases kind <;> decide
  unfold ErrorKind.ofCode?
  rw [typed]
  cases kind <;> decide

/-- The code of an error is read as the error. -/
theorem readsAs_error {code : String} (known : (ErrorKind.ofCode? code).isSome = true)
    (span : Option Span) :
    ReadsAs (Value.error (.ofCode code)).literalChars (.literal (.error (.ofCode code)) span) := by
  obtain ⟨kind, found⟩ := Option.isSome_iff_exists.mp known
  have same' : CellError.ofCode code = .ofCode kind.code := by
    unfold CellError.ofCode
    rw [found, ofCode?_code]
    cases kind <;> rfl
  have kind' : (CellError.ofCode code).kind = kind := by
    unfold CellError.ofCode
    rw [found]
    cases kind <;> rfl
  have shape : (Value.error (.ofCode code)).literalChars = kind.code.toList := by
    rw [Value.literalChars]
    · rw [← kind']
      rfl
    · exact nofun
    · exact nofun
  have start : ∃ rest, kind.code.toList = '#' :: rest := by cases kind <;> exact ⟨_, rfl⟩
  obtain ⟨rest, first⟩ := start
  rw [shape]
  refine ⟨Lexer.scans_code kind, ⟨'#', by rw [first]; rfl, by decide⟩, fun t same => ?_⟩
  obtain ⟨role, written⟩ := role_of_lexeme same
  have error : t.role = .error := by
    rw [role, first]
    rfl
  refine ⟨.literal (.error (.ofCode kind.code)) (some t.span), ?_, ?_⟩
  · unfold ofOperand
    rw [error, written, String.ofList_toList]
  · rw [← same']
    rfl

/-! ### References -/

variable {target : Reference}

/-- A reference has a mark or a colon, or it is written as a coordinate. -/
theorem mark_or_coordinate (target : Reference) :
    (∃ c ∈ target.chars, c = '!' ∨ c = ':') ∨ ∃ c : Coordinate, target.chars = c.chars := by
  rw [Reference.chars_eq]
  cases named : target.sheet with
  | some name =>
    refine .inl ⟨'!', List.mem_append_left _ ?_, .inl rfl⟩
    rw [Reference.sheetChars, named]
    exact List.mem_append_right _ (List.mem_singleton.mpr rfl)
  | none =>
    have bare : target.sheetChars = [] := by rw [Reference.sheetChars, named]
    rw [bare, List.nil_append]
    cases target with
    | cell sheet c => exact .inr ⟨c, rfl⟩
    | range sheet start stop =>
      exact .inl ⟨':', List.mem_append_right _ List.mem_cons_self, .inr rfl⟩

/-- The text of a coordinate starts with no digit and no point, and ends with a digit. -/
theorem coordinate_ends (c : Coordinate) :
    (∀ d ∈ c.chars.head?, d.isDigit = false ∧ d ≠ '.') ∧ ∃ d ∈ c.chars.getLast?, d.isDigit = true := by
  obtain ⟨some', digits, _⟩ := Coordinate.digits_spec (c.row + 1)
  obtain ⟨first, rest, letters⟩ := List.exists_cons_of_ne_nil (Column.letters_ne_nil c.column)
  have capital := Column.isUpper_of_mem_letters (letters ▸ List.mem_cons_self : first ∈ _)
  have written : c.chars = Coordinate.dollar c.columnFixed ++ (first :: rest ++
      (Coordinate.dollar c.rowFixed ++ Nat.toDigits 10 (c.row + 1))) := by
    rw [← letters]
    simp [Coordinate.chars]
  constructor
  · intro d shown
    rw [written] at shown
    cases fixed : c.columnFixed with
    | true =>
      rw [fixed] at shown
      obtain rfl := Option.some.inj shown
      decide
    | false =>
      rw [fixed] at shown
      obtain rfl := Option.some.inj shown
      refine ⟨Bool.eq_false_iff.mpr fun digit => ?_, ?_⟩
      · have letter := Text.isAlpha_of_isDigit digit
        rw [Text.isAlpha_eq, capital] at letter
        contradiction
      · rintro rfl
        contradiction
  · refine ⟨_, ?_, digits _ (List.getLast_mem some')⟩
    unfold Coordinate.chars
    rw [List.getLast?_append, List.getLast?_eq_some_getLast some']
    rfl

/-- What rows and columns are written with belongs to words. -/
theorem isWordChar_of_isReferenceChar {c : Char} (used : isReferenceChar c = true) :
    Lexer.isWordChar c = true := by
  simp only [isReferenceChar, Bool.or_eq_true, beq_iff_eq] at used
  rcases used with ((capital | digit) | rfl) | rfl
  · simp [Lexer.isWordChar, Char.isAlphanum, Text.isAlpha_eq, capital]
  · simp [Lexer.isWordChar, Char.isAlphanum, digit]
  · rfl
  · rfl

/-- A plain name is a word. -/
theorem isWordChar_of_isPlainName {name : List Char} (plain : isPlainName name = true) :
    ∀ c ∈ name, Lexer.isWordChar c = true := by
  intro c listed
  rcases (isPlainName_spec plain).2 c listed with alphanumeric | rfl | rfl
  · simp [Lexer.isWordChar, alphanumeric]
  · rfl
  · rfl

/-- A reference is a word, or it starts with the name of its sheet in quotes and ends with a word. -/
theorem word_or_quotedName (target : Reference) :
    (∀ c ∈ target.chars, Lexer.isWordChar c = true) ∨
      ∃ name word, target.chars = '\'' :: Lexer.closed '\'' name ++ '!' :: word ∧
        ∀ c ∈ word, Lexer.isWordChar c = true := by
  have place : ∀ c ∈ target.placeChars, Lexer.isWordChar c = true := fun c listed =>
    isWordChar_of_isReferenceChar (Reference.isReferenceChar_of_mem listed)
  rw [Reference.chars_eq, Reference.sheetChars]
  cases target.sheet with
  | none => exact .inl place
  | some name =>
    dsimp only
    unfold sheetNameChars
    split
    · rename_i plain
      refine .inl (List.forall_mem_append.mpr ⟨List.forall_mem_append.mpr
        ⟨isWordChar_of_isPlainName plain, ?_⟩, place⟩)
      exact List.forall_mem_singleton.mpr rfl
    · exact .inr ⟨name.toList, target.placeChars, List.append_assoc _ _ _, place⟩

/-- A reference is cut into one operand. -/
theorem scans_reference (target : Reference) : Lexer.Scans target.chars := by
  rcases word_or_quotedName target with word | ⟨name, word, written, all⟩
  · refine Lexer.scans_word ?_ word ?_
    · rw [Reference.chars_eq]
      exact List.append_ne_nil_of_right_ne_nil _ target.placeChars_ne_nil
    · rcases mark_or_coordinate target with ⟨c, listed, mark⟩ | ⟨c, written⟩
      · exact .inr ⟨c, listed, by rcases mark with rfl | rfl <;> decide⟩
      · obtain ⟨d, last, digit⟩ := (coordinate_ends c).2
        refine .inl fun e last' => ?_
        rw [written, Option.mem_def.mp last, Option.mem_some_iff] at last'
        obtain rfl := last'
        constructor <;>
        · rintro rfl
          contradiction
  · rw [written]
    exact Lexer.scans_quotedName name all

/-- A reference starts with a character of words or a quote of a name. -/
theorem head?_reference (target : Reference) :
    ∃ c ∈ target.chars.head?, Lexer.isWordChar c = true ∨ c = '\'' := by
  rcases word_or_quotedName target with word | ⟨name, word, written, _⟩
  · have some' : target.chars ≠ [] := by
      rw [Reference.chars_eq]
      exact List.append_ne_nil_of_right_ne_nil _ target.placeChars_ne_nil
    obtain ⟨c, rest, first⟩ := List.exists_cons_of_ne_nil some'
    exact ⟨c, by rw [first]; rfl, .inl (word c (first ▸ List.mem_cons_self))⟩
  · exact ⟨'\'', by rw [written]; rfl, .inr rfl⟩

/-- A character of a reference is no letter. -/
theorem exists_not_isAlpha (target : Reference) : ∃ c ∈ target.chars, c.isAlpha = false := by
  rcases mark_or_coordinate target with ⟨c, listed, mark⟩ | ⟨c, written⟩
  · exact ⟨c, listed, by rcases mark with rfl | rfl <;> rfl⟩
  · obtain ⟨d, last, digit⟩ := (coordinate_ends c).2
    exact ⟨d, written ▸ List.mem_of_mem_getLast? last, Text.isAlpha_of_isDigit digit⟩

/-- A reference is no number. -/
theorem read?_reference (target : Reference) : Decimal.read? target.chars = none := by
  obtain ⟨c, listed, other⟩ := exists_not_isAlpha target
  obtain ⟨first, start, word⟩ := head?_reference target
  refine Decimal.read?_eq_none (fun d start' => ?_) ?_ listed other
  · rw [Option.mem_def.mp start, Option.mem_some_iff] at start'
    obtain rfl := start'
    constructor <;>
    · rintro rfl
      revert word
      decide
  · cases found : Decimal.readUnsigned? target.chars with
    | none => rfl
    | some number =>
      obtain ⟨all, d, start', digit⟩ := Decimal.spec_of_readUnsigned? found
      rcases mark_or_coordinate target with ⟨c, listed, mark⟩ | ⟨c, written⟩
      · have numeric := all c listed
        rcases mark with rfl | rfl <;> contradiction
      · obtain ⟨noDigit, noPoint⟩ := (coordinate_ends c).1 d (written ▸ start')
        rcases digit with isDigit | isPoint
        · rw [noDigit] at isDigit
          contradiction
        · exact absurd isPoint noPoint

/-- Quotes are written twice, and other characters stay. -/
theorem mem_doubleQuotes {quote c : Char} {content : List Char} :
    c ∈ doubleQuotes quote content ↔ c ∈ content := by
  induction content with
  | nil => exact Iff.rfl
  | cons d content ih =>
    unfold doubleQuotes
    split
    · rw [List.mem_cons, List.mem_cons, List.mem_cons, ih, ← or_assoc, or_self]
    · rw [List.mem_cons, List.mem_cons, ih]

/-- A number sign in a reference is one in the name of its sheet. -/
theorem mem_reference_iff : '#' ∈ target.chars ↔ ∃ name ∈ target.sheet, '#' ∈ name.toList := by
  have place : '#' ∉ target.placeChars := fun listed =>
    (isReferenceChar_spec (Reference.isReferenceChar_of_mem listed)).2.2.1 rfl
  rw [Reference.chars_eq, List.mem_append, or_iff_left place, Reference.sheetChars]
  cases target.sheet with
  | none => simp
  | some name =>
    dsimp only
    unfold sheetNameChars
    split <;> simp [mem_doubleQuotes]

/-- A reference has the role of one. -/
theorem operandRole_reference (target : Reference) : Token.operandRole target.chars = .range := by
  obtain ⟨c, first, start⟩ := head?_reference target
  obtain ⟨d, listed, other⟩ := exists_not_isAlpha target
  have unquoted : ∀ d ∈ target.chars.head?, d ≠ '"' ∧ d ≠ '#' := by
    intro d first'
    rw [Option.mem_def.mp first, Option.mem_some_iff] at first'
    obtain rfl := first'
    constructor <;>
    · rintro rfl
      revert start
      decide
  rw [operandRole_eq unquoted listed other, read?_reference]
  rfl

/-- A reference in its normal form is read as it is written, unless the name of its sheet has a number
sign. -/
theorem ofOperand_reference (normal : target.Normal) (plain : '#' ∉ target.chars) {t : Token}
    (role : t.role = .range) (written : t.text = target.chars) :
    ofOperand t = .ok (.reference target target.text (some t.span)) := by
  have unmarked : target.chars.contains '#' = false :=
    Bool.eq_false_iff.mpr fun found => plain (List.contains_iff_mem.mp found)
  unfold ofOperand
  rw [role, written]
  simp only [unmarked, Bool.false_eq_true, if_false, Reference.read_chars_of_normal normal]
  rfl

/-- A reference is read as it is written. -/
theorem readsAs_reference (legible : target.Legible) (spelling : String) (span : Option Span) :
    ReadsAs target.chars (.reference target spelling span) := by
  obtain ⟨c, first, start⟩ := head?_reference target
  have apart : c ≠ '=' ∧ c ≠ '>' := by
    constructor <;>
    · rintro rfl
      revert start
      decide
  refine ⟨scans_reference target, ⟨c, first, apart⟩, fun t same => ?_⟩
  obtain ⟨role, written⟩ := role_of_lexeme same
  have plain : '#' ∉ target.chars := fun marked => by
    obtain ⟨name, named, listed⟩ := mem_reference_iff.mp marked
    exact legible.nameable.sheet name named listed
  rw [operandRole_reference] at role
  exact ⟨_, ofOperand_reference legible.normal plain role written, rfl⟩

end Expr

end Spreadsheet
