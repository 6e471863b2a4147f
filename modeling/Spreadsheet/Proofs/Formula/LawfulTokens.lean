import Spreadsheet.Proofs.Formula.Operands
import Spreadsheet.Proofs.Formula.Gathering

/-!
# Tokens of typed formulas

Every token that a text is cut into is one of a few kinds: an operand whose role is told by its text, the
opening of a function whose name has gathered, an operator of a known sign, a bracket, a separator or a
blank. Each character that is read keeps this of the tokens, and of what is pending that it has gathered.
-/
namespace Spreadsheet

/-! ### Typed codes -/

/-- A character whose capital is visible is no blank. -/
theorem Text.isBlank_of_toUpper {c : Char} (visible : 33 ≤ c.toUpper.toNat ∧ c.toUpper.toNat ≤ 126) :
    Text.isBlank c = false := by
  cases letter : c.isAlpha with
  | false =>
    have same := (Text.toUpper_of_not_isAlpha letter).1
    rw [same] at visible
    exact Text.isBlank_of_visible visible.1 visible.2
  | true =>
    simp only [Text.isAlpha_eq, Bool.or_eq_true, Text.isUpper_iff, Text.isLower_iff] at letter
    exact Text.isBlank_of_visible (by omega) (by omega)

/-- What is typed of an error code, in any letter case, is known. -/
theorem Lexer.known_of_errorCodeLength? {text : List Char} {n : Nat}
    (found : Lexer.errorCodeLength? text = some n) :
    (ErrorKind.ofCode? (String.ofList (text.take n))).isSome = true := by
  obtain ⟨code, first, rfl⟩ := Option.map_eq_some_iff.mp found
  have typed : (text.take code.length).map Char.toUpper = code := by
    simpa using List.find?_some first
  have listed := List.mem_of_find?_eq_some first
  have visible : ∀ c ∈ text.take code.length, Text.isBlank c = false := by
    intro c within
    have capital : c.toUpper ∈ code := typed ▸ List.mem_map_of_mem within
    have all : Lexer.errorCodes.all (fun code => code.all fun c =>
        decide (33 ≤ c.toNat ∧ c.toNat ≤ 126)) = true := by decide
    have shown := List.all_eq_true.mp (List.all_eq_true.mp all code listed) _ capital
    exact Text.isBlank_of_toUpper (of_decide_eq_true shown)
  have whole : Text.upperAscii (Text.trimmed (String.ofList (text.take code.length))) =
      String.ofList code := by
    rw [← String.toList_inj, Text.toList_upperAscii, Text.trimmed, String.toList_ofList,
      String.toList_ofList, Text.trim_of_not_isBlank, typed, String.toList_ofList]
    · exact fun c start => visible c (List.mem_of_mem_head? start)
    · exact fun c last => visible c (List.mem_of_mem_getLast? last)
  unfold ErrorKind.ofCode?
  rw [whole]
  have known : Lexer.errorCodes.all (fun code => (ErrorKind.all.find? fun kind =>
      String.ofList code == kind.code || ((kind == .reference || kind == .general) &&
        String.ofList code == kind.code ++ "!")).isSome) = true := by decide +kernel
  exact List.all_eq_true.mp known code listed

/-! ### Lawful tokens -/

/-- How an operand starts: with no sign, and with a number sign only if it is a known code. -/
def StartsOperand (text : List Char) : Prop :=
  ∃ c ∈ text.head?, (c ≠ '+' ∧ c ≠ '-') ∧
    (c = '#' → (ErrorKind.ofCode? (String.ofList text)).isSome = true)

/-- What is known of a token from its kind. -/
structure Token.Lawful (t : Token) : Prop where
  operand : t.kind = .operand → t.role = operandRole t.text ∧ StartsOperand t.text
  function : t.kind = .function → t.role = .opening →
    ∃ name, t.text = name ++ ['('] ∧ name ≠ [] ∧ Lexer.Gathers name
  sign : t.kind = .prefixOperator → t.text = ['+'] ∨ t.text = ['-']
  percent : t.kind = .postfixOperator → t.text = ['%']
  between : t.kind = .infixOperator → t.text ∈ Lexer.infixSigns ∨ t.text = [',']

/-- An operand whose role is told by its text. -/
theorem Token.lawful_operand {text : List Char} (starts : StartsOperand text) (start : Nat) :
    (operand text start).Lawful :=
  ⟨fun _ => ⟨rfl, starts⟩, nofun, nofun, nofun, nofun⟩

/-- A token of a kind about which nothing has to be known. -/
theorem Token.lawful_of_kind {t : Token} (kind : TokenKind) (same : t.kind = kind)
    (plain : kind ∈ [.literal, .array, .parenthesis, .separator, .blank]) : t.Lawful := by
  constructor <;>
  · intro other
    rw [← same, other] at plain
    exact absurd plain (by decide)

namespace Lexer

variable {s s' : Lexer} {rest : List Char} {c : Char} {n : Nat}

/-- What gathers starts an operand. -/
theorem Gathers.startsOperand {text : List Char} (gathers : Gathers text) (some' : text ≠ []) :
    StartsOperand text := by
  obtain ⟨c, rest, rfl⟩ := List.exists_cons_of_ne_nil some'
  obtain ⟨ends, mark⟩ := gathers.head?_ne c rfl
  refine ⟨c, rfl, ⟨?_, ?_⟩, fun same => absurd same mark⟩ <;>
  · rintro rfl
    contradiction

/-- A character that starts nothing else is ordinary. -/
theorem isOrdinary_of_ne (quotes : ¬(c = '"' ∨ c = '\'')) (square : ¬c = '[') (mark : ¬c = '#')
    (blank : ¬isFormulaBlank c = true) (operator : ¬isOperatorStart c = true)
    (opening : ¬(c = '\x7b' ∨ c = '(')) (closing : ¬(c = ')' ∨ c = '\x7d'))
    (separator : ¬(c = ';' ∨ c = ',')) : isOrdinary c = true := by
  have blanks : ¬c = ' ' ∧ ¬c = '\n' ∧ ¬c = '\t' := by simpa [isFormulaBlank, not_or, and_assoc] using blank
  have signs : ∀ d ∈ "+-*/^&=><%".toList, ¬c = d := fun d listed same =>
    operator (List.contains_iff_mem.mpr (same ▸ listed))
  simp only [not_or, List.forall_mem_cons, String.reduceToList] at quotes opening closing separator signs
  simp [isOrdinary, endsOperand, quotes, square, mark, blanks, opening, closing, separator, signs]

/-- The kinds of brackets. -/
def bracketKinds : List TokenKind := [.parenthesis, .function, .array]

/-- The tokens so far are lawful, what is pending has gathered, and what is open is a bracket. -/
structure Lawful (s : Lexer) : Prop where
  gathers : Gathers s.pending.reverse
  tokens : ∀ t ∈ s.tokens, t.Lawful
  opened : ∀ kind ∈ s.opened, kind ∈ bracketKinds

namespace Lawful

/-- Other brackets are open. -/
theorem withOpened (lawful : s.Lawful) {opened : List TokenKind}
    (brackets : ∀ kind ∈ opened, kind ∈ bracketKinds) : (s.withOpened opened).Lawful :=
  ⟨lawful.gathers, lawful.tokens, brackets⟩

/-- Another bracket is open. -/
theorem opening (lawful : s.Lawful) {kind : TokenKind} (bracket : kind ∈ bracketKinds) :
    (s.withOpened (kind :: s.opened)).Lawful :=
  lawful.withOpened (List.forall_mem_cons.mpr ⟨bracket, lawful.opened⟩)

/-- What is pending is given up. -/
theorem withoutPending (lawful : s.Lawful) (start : Nat) :
    Lawful { s with pending := [], start := start } :=
  ⟨.nothing, lawful.tokens, lawful.opened⟩

/-- Another lawful token. -/
theorem emit (lawful : s.Lawful) (kind : TokenKind) (role : TokenRole) (text : List Char)
    (token : (Token.place kind role text s.offset).Lawful) : (s.emit kind role text).Lawful :=
  ⟨.nothing, List.forall_mem_cons.mpr ⟨token, lawful.tokens⟩, lawful.opened⟩

/-- What has gathered becomes an operand, and more characters with it. -/
theorem save_extend (lawful : s.Lawful) (text : List Char)
    (starts : s.pending = [] → text ≠ [] → StartsOperand text) :
    (s.extend text).save.Lawful ∧ (s.extend text).save.pending = [] := by
  have shown : (s.extend text).pending.reverse = s.pending.reverse ++ text := by
    rw [extend, List.reverse_append, List.reverse_reverse]
  unfold Lexer.save
  split
  · rename_i idle
    have idle' := List.isEmpty_iff.mp idle
    exact ⟨⟨idle' ▸ Gathers.nothing, lawful.tokens, lawful.opened⟩, idle'⟩
  · rename_i filled
    refine ⟨⟨.nothing, List.forall_mem_cons.mpr ⟨Token.lawful_operand ?_ _, lawful.tokens⟩,
      lawful.opened⟩, rfl⟩
    rw [shown]
    by_cases idle : s.pending = []
    · rw [idle, List.reverse_nil, List.nil_append]
      refine starts idle fun none => filled ?_
      rw [extend, idle, none]
      rfl
    · obtain ⟨c, first, signs, _⟩ := lawful.gathers.startsOperand (by simpa using idle)
      have plain := (lawful.gathers.head?_ne c first).2
      refine ⟨c, ?_, signs, fun same => absurd same plain⟩
      rw [Option.mem_def, List.head?_append, Option.mem_def.mp first]
      rfl

/-- What has gathered becomes an operand. -/
theorem save (lawful : s.Lawful) : s.save.Lawful ∧ s.save.pending = [] :=
  lawful.save_extend [] fun _ none => absurd rfl none

/-- A part in quotes is an operand of its own, or a name that joins what is pending. -/
theorem readQuoted (lawful : s.Lawful) {quote : Char} (quotes : quote = '"' ∨ quote = '\'')
    (found : s.readQuoted quote rest = .ok (s', n)) : s'.Lawful := by
  unfold Lexer.readQuoted at found
  dsimp only at found
  -- Unless the name joins what is pending, nothing is.
  have before : ∀ joined : Bool, (if joined = true then s else s.save).Lawful ∧
      (joined = false → (if joined = true then s else s.save).pending = []) := by
    intro joined
    cases joined with
    | true => exact ⟨lawful, nofun⟩
    | false => exact ⟨lawful.save.1, fun _ => lawful.save.2⟩
  obtain ⟨kept, idle⟩ := before ((quote == '\'' && s.pending == ['$']) || s.pending.head? == some ':')
  split at found
  · contradiction
  · rename_i length ends
    obtain ⟨content, behind, written, rfl⟩ := exists_closed_of_quotedLength? ends
    split at found
    · rename_i text
      obtain ⟨rfl, _⟩ := Prod.mk.inj (Except.ok.inj found)
      refine (kept.withoutPending _).emit _ _ _
        ⟨fun _ => ⟨rfl, '"', ?_, by decide, nofun⟩, nofun, nofun, nofun, nofun⟩
      rw [text]
      rfl
    · rename_i other
      obtain rfl := quotes.resolve_left other
      obtain ⟨rfl, _⟩ := Prod.mk.inj (Except.ok.inj found)
      refine ⟨?_, kept.tokens, kept.opened⟩
      rw [written, List.take_left]
      unfold extend
      rw [List.reverse_append, List.reverse_reverse]
      refine .quoted content kept.gathers ?_
      cases joined : (('\'' == '\'' && s.pending == ['$']) || s.pending.head? == some ':') with
      | false =>
        rw [joined] at idle
        exact .inl (congrArg List.reverse (idle rfl))
      | true =>
        rcases Bool.or_eq_true_iff.mp joined with dollar | colon
        · have alone : s.pending = ['$'] := by simpa using dollar
          exact .inr (.inl (congrArg List.reverse alone))
        · refine .inr (.inr ?_)
          rw [if_pos rfl, List.getLast?_reverse]
          exact beq_iff_eq.mp colon

/-- A part in square brackets joins what is pending. -/
theorem readSquare (lawful : s.Lawful) (found : s.readSquare rest = .ok (s', n)) : s'.Lawful := by
  unfold Lexer.readSquare at found
  split at found
  · contradiction
  · rename_i length ends
    obtain ⟨inner, behind, written, rfl, closes⟩ := exists_of_squareLength? ends
    obtain ⟨rfl, _⟩ := Prod.mk.inj (Except.ok.inj found)
    refine ⟨?_, lawful.tokens, lawful.opened⟩
    rw [written, List.take_left]
    unfold extend
    rw [List.reverse_append, List.reverse_reverse]
    exact .square lawful.gathers closes

/-- An error code is an operand of its own, or the end of one that starts with a sheet. -/
theorem readErrorCode (lawful : s.Lawful) (found : s.readErrorCode rest = .ok (s', n)) : s'.Lawful := by
  unfold Lexer.readErrorCode at found
  dsimp only at found
  have before : ∃ s₀ : Lexer, s₀.Lawful ∧
      (if (s.pending.head? == some '!') = true then s else s.save) = s₀ := by
    split
    · exact ⟨s, lawful, rfl⟩
    · exact ⟨s.save, lawful.save.1, rfl⟩
  obtain ⟨s₀, kept, same⟩ := before
  rw [same] at found
  split at found
  · contradiction
  · rename_i length code
    obtain ⟨rfl, _⟩ := Prod.mk.inj (Except.ok.inj found)
    refine (kept.save_extend _ fun _ some' => ?_).1
    have known := known_of_errorCodeLength? code
    cases length with
    | zero => exact absurd rfl some'
    | succ length => exact ⟨'#', rfl, by decide, fun _ => known⟩

/-- An operator is of a known sign. -/
theorem readOperator (lawful : s.Lawful) (operator : isOperatorStart c = true) :
    (s.readOperator c rest).1.Lawful := by
  have kept := lawful.save.1
  have pair : ∀ text ∈ infixSigns, (s.save.emit .infixOperator .plain text).Lawful := fun text known =>
    kept.emit _ _ _ ⟨nofun, nofun, nofun, nofun, fun _ => .inl known⟩
  have listed : c ∈ ['+', '-', '*', '/', '^', '&', '=', '>', '<', '%'] := List.contains_iff_mem.mp operator
  unfold Lexer.readOperator
  dsimp only
  split
  · exact pair ['>', '='] (by decide)
  · exact pair ['<', '='] (by decide)
  · exact pair ['<', '>'] (by decide)
  · split
    · rename_i percent
      refine kept.emit _ _ _ ⟨nofun, nofun, nofun, fun _ => ?_, nofun⟩
      rw [percent]
      rfl
    · rename_i other
      split
      · rename_i sign
        refine kept.emit _ _ _ ⟨nofun, nofun, fun _ => ?_, nofun, nofun⟩
        exact sign.1.imp (congrArg fun c => [c]) (congrArg fun c => [c])
      · refine pair _ ?_
        have known : ['+', '-', '*', '/', '^', '&', '=', '>', '<'].all
            (fun c => decide ([c] ∈ infixSigns)) = true := by decide
        refine of_decide_eq_true (List.all_eq_true.mp known c ?_)
        simp only [List.mem_cons, List.not_mem_nil, or_false] at listed ⊢
        simpa [other] using listed

/-- An opening bracket opens a function whose name has gathered, or it stands alone. -/
theorem readOpening (lawful : s.Lawful) (bracket : c = '\x7b' ∨ c = '(') : (s.readOpening c).Lawful := by
  unfold Lexer.readOpening
  dsimp only
  split
  · exact (lawful.save.1.emit _ _ _ (Token.lawful_of_kind .array rfl (by decide))).opening (by decide)
  · rename_i curly
    obtain rfl := bracket.resolve_left curly
    split
    · exact (lawful.emit _ _ _ (Token.lawful_of_kind .parenthesis rfl (by decide))).opening (by decide)
    · rename_i filled
      have some' : s.pending.reverse ≠ [] := by simpa using filled
      have opens : ∀ start, (Token.place .function .opening (s.pending.reverse ++ ['(']) start).Lawful :=
        fun _ => ⟨nofun, fun _ _ => ⟨_, rfl, some', lawful.gathers⟩, nofun, nofun, nofun⟩
      have bracket : TokenKind.function ∈ bracketKinds := by decide
      exact ((lawful.withoutPending s.start).emit _ _ _ (opens _)).opening bracket

/-- A closing bracket closes what was opened. -/
theorem readClosing (lawful : s.Lawful) (found : s.readClosing c = .ok s') : s'.Lawful := by
  unfold Lexer.readClosing at found
  dsimp only at found
  have kept := lawful.save.1
  split at found
  · contradiction
  · rename_i kind opened brackets
    split at found
    · obtain rfl := Except.ok.inj found
      obtain ⟨bracket, others⟩ := List.forall_mem_cons.mp (brackets ▸ kept.opened)
      refine (kept.emit _ _ _ ?_).withOpened others
      have other : ∀ other ∉ bracketKinds, kind ≠ other := by
        rintro _ none rfl
        exact none bracket
      exact ⟨fun same => absurd same (other _ (by decide)), fun _ role => by contradiction,
        fun same => absurd same (other _ (by decide)), fun same => absurd same (other _ (by decide)),
        fun same => absurd same (other _ (by decide))⟩
    · contradiction

/-- A separator stands alone. A comma outside of functions and arrays is an operator. -/
theorem readSeparator (lawful : s.Lawful) (separator : c = ';' ∨ c = ',') : (s.readSeparator c).Lawful := by
  have kept := lawful.save.1
  unfold Lexer.readSeparator
  dsimp only
  split
  · exact kept.emit _ _ _ (Token.lawful_of_kind .separator rfl (by decide))
  · rename_i other
    obtain rfl := separator.resolve_left other
    split
    · exact kept.emit _ _ _ (Token.lawful_of_kind .separator rfl (by decide))
    · exact kept.emit _ _ _ (Token.lawful_of_kind .separator rfl (by decide))
    · exact kept.emit _ _ _ ⟨nofun, nofun, nofun, nofun, fun _ => .inr rfl⟩

/-- A character that joins what is pending. -/
theorem extend (lawful : s.Lawful) (gathers : Gathers (s.pending.reverse ++ [c])) :
    (s.extend [c]).Lawful := by
  refine ⟨?_, lawful.tokens, lawful.opened⟩
  unfold Lexer.extend
  rwa [List.reverse_append, List.reverse_reverse]

/-- Reading a character keeps tokens lawful. -/
theorem step (lawful : s.Lawful) (read : s.step c rest = .ok (s', n)) : s'.Lawful := by
  unfold Lexer.step at read
  dsimp only at read
  have kept : (if endsOperand c = true then s.save else s).Lawful := by
    split
    · exact lawful.save.1
    · exact lawful
  generalize (if endsOperand c = true then s.save else s) = s₀ at read kept
  split at read
  · rename_i exponent
    obtain ⟨rfl, _⟩ := Prod.mk.inj (Except.ok.inj read)
    obtain ⟨sign, awaits⟩ := Bool.and_eq_true_iff.mp exponent
    refine lawful.extend (.exponent lawful.gathers ?_ (by simpa using sign))
    unfold AwaitsExponent
    rwa [List.reverse_reverse]
  split at read
  · rename_i quotes
    exact kept.readQuoted quotes read
  rename_i quotes
  split at read
  · exact kept.readSquare read
  rename_i square
  split at read
  · exact kept.readErrorCode read
  rename_i mark
  split at read
  · obtain ⟨rfl, _⟩ := Prod.mk.inj (Except.ok.inj read)
    exact kept.save.1.emit _ _ _ (Token.lawful_of_kind .blank rfl (by decide))
  rename_i blank
  split at read
  · rename_i operator
    have first : (s₀.readOperator c rest).1 = s' := congrArg Prod.fst (Except.ok.inj read)
    exact first ▸ kept.readOperator operator
  rename_i operator
  split at read
  · rename_i bracket
    obtain ⟨rfl, _⟩ := Prod.mk.inj (Except.ok.inj read)
    exact kept.readOpening bracket
  rename_i opening
  split at read
  · cases closed : s₀.readClosing c with
    | error fault =>
      rw [closed] at read
      contradiction
    | ok after =>
      rw [closed] at read
      obtain ⟨rfl, _⟩ := Prod.mk.inj (Except.ok.inj read)
      exact kept.readClosing closed
  rename_i closing
  split at read
  · rename_i separator
    obtain ⟨rfl, _⟩ := Prod.mk.inj (Except.ok.inj read)
    exact kept.readSeparator separator
  rename_i separator
  obtain ⟨rfl, _⟩ := Prod.mk.inj (Except.ok.inj read)
  exact kept.extend (.ordinary kept.gathers
    (isOrdinary_of_ne quotes square mark blank operator opening closing separator))

/-- Reading a text keeps tokens lawful. -/
theorem run (lawful : s.Lawful) {text : List Char} (read : s.run text = .ok s') : s'.Lawful := by
  induction s, text using Lexer.run.induct with
  | case1 s =>
    rw [Lexer.run] at read
    obtain rfl := Except.ok.inj read
    exact lawful
  | case2 s c rest fault stops =>
    rw [Lexer.run, stops] at read
    contradiction
  | case3 s c rest next length goes ih =>
    rw [Lexer.run, goes] at read
    exact ih (lawful.step goes) read

/-- The tokens at the end of a text are lawful. -/
theorem finish (lawful : s.Lawful) {tokens : List Token} (finished : s.finish = .ok tokens) :
    ∀ t ∈ tokens, t.Lawful := by
  unfold Lexer.finish at finished
  dsimp only at finished
  split at finished
  · obtain rfl := Except.ok.inj finished
    exact fun t listed => lawful.save.1.tokens t (List.mem_reverse.mp listed)
  · contradiction

end Lawful

end Lexer

namespace Token

/-- An operand that is a reference does not start with a number sign. -/
theorem head?_ne_of_isRange {t : Token} (lawful : t.Lawful) (range : t.isRange = true) :
    t.kind = .operand ∧ t.text.head? ≠ some '#' := by
  obtain ⟨kind, role⟩ := Bool.and_eq_true_iff.mp range
  have operand : t.kind = .operand := beq_iff_eq.mp kind
  refine ⟨operand, fun first => ?_⟩
  have told := (lawful.operand operand).1
  rw [beq_iff_eq.mp role, operandRole, first] at told
  contradiction

/-- One operand of two is lawful: it starts as the first does. -/
theorem lawful_join {first : Token} (lawful : first.Lawful) (kind : first.kind = .operand)
    (unmarked : first.text.head? ≠ some '#') (blanks : List Token) (second : Token) :
    (join first blanks second).Lawful ∧ (join first blanks second).text.head? ≠ some '#' := by
  obtain ⟨c, start, signs, _⟩ := (lawful.operand kind).2
  have other : c ≠ '#' := by
    rintro rfl
    exact unmarked start
  have starts : (join first blanks second).text.head? = some c := by
    show (first.text ++ _ ++ _).head? = _
    rw [List.append_assoc, List.head?_append, Option.mem_def.mp start]
    rfl
  refine ⟨lawful_operand ⟨c, starts, signs, fun same => absurd same other⟩ _, ?_⟩
  rw [starts]
  exact fun same => other (Option.some.inj same)

/-- Joining the ends of ranges keeps tokens lawful. -/
theorem lawful_of_mem_joinRanges {tokens : List Token} (all : ∀ t ∈ tokens, t.Lawful) :
    ∀ t ∈ joinRanges tokens, t.Lawful := by
  have both : (∀ t ∈ joinRanges tokens, t.Lawful) ∧ ∀ (current : Token) (blanks : List Token),
      current.Lawful → current.kind = .operand → current.text.head? ≠ some '#' →
        (∀ t ∈ blanks, t.Lawful) → ∀ t ∈ joinAfter current blanks tokens, t.Lawful := by
    induction tokens with
    | nil =>
      refine ⟨fun _ none => absurd none List.not_mem_nil, fun current blanks lawful _ _ others => ?_⟩
      exact List.forall_mem_cons.mpr ⟨lawful, fun t listed => others t (List.mem_reverse.mp listed)⟩
    | cons t rest ih =>
      obtain ⟨first, others⟩ := List.forall_mem_cons.mp all
      obtain ⟨alone, after⟩ := ih others
      have next : ∀ t' ∈ (if t.isRange then joinAfter t [] rest else t :: joinRanges rest), t'.Lawful := by
        split
        · rename_i range
          obtain ⟨kind, unmarked⟩ := head?_ne_of_isRange first range
          exact after t [] first kind unmarked fun _ none => absurd none List.not_mem_nil
        · exact List.forall_mem_cons.mpr ⟨first, alone⟩
      refine ⟨next, fun current blanks lawful kind unmarked between => ?_⟩
      unfold joinAfter
      split
      · exact after current (t :: blanks) lawful kind unmarked (List.forall_mem_cons.mpr ⟨first, between⟩)
      · split
        · obtain ⟨joined, unmarked'⟩ := lawful_join lawful kind unmarked blanks.reverse t
          exact after _ [] joined rfl unmarked' fun _ none => absurd none List.not_mem_nil
        · refine List.forall_mem_append.mpr ⟨List.forall_mem_cons.mpr ⟨lawful, ?_⟩, next⟩
          exact fun t' listed => between t' (List.mem_reverse.mp listed)
  exact both.1

/-- The tokens of a text are lawful. -/
theorem lawful_of_ofText {text : List Char} {tokens : List Token} (cut : ofText text = .ok tokens) :
    ∀ t ∈ tokens, t.Lawful := by
  unfold ofText at cut
  split at cut
  · obtain rfl := Except.ok.inj cut
    exact fun _ none => absurd none List.not_mem_nil
  · obtain ⟨s, ran, finished⟩ := exists_of_bind_eq_ok cut
    obtain ⟨pieces, ended, joined⟩ := exists_of_bind_eq_ok finished
    obtain rfl := Except.ok.inj joined
    have start : Lexer.Lawful ⟨[], 1, [], []⟩ :=
      ⟨.nothing, fun _ none => absurd none List.not_mem_nil, fun _ none => absurd none List.not_mem_nil⟩
    exact lawful_of_mem_joinRanges ((start.run ran).finish ended)
  · obtain rfl := Except.ok.inj cut
    exact List.forall_mem_singleton.mpr (lawful_of_kind .literal rfl (by decide))

end Token

end Spreadsheet
