import Spreadsheet.Proofs.Formula.Tokens

/-!
# Reading written trees

The tokens of a tree are read as the tree, whatever stands behind them. What an operator needs from its
operands depends on how tightly they bind, and the reader has fuel for six calls a token.
-/
namespace Spreadsheet

namespace Expr

/-! ### What is read from tokens -/

/-- Behind an operand, no percent sign follows and no infix operator that binds more tightly than
`level`. -/
def Quiet (level : Nat) (rest : List Token) : Prop :=
  ∀ t ∈ rest.head?, t.kind ≠ .postfixOperator ∧
    (t.kind = .infixOperator → (t.precedence?.getD (0, .left)).1 ≤ level)

/-- The tokens are an operand without operators around it. -/
def ReadsPrimary (list : List Lexeme) (e : Expr) : Prop :=
  ∀ tokens : List Token, tokens.map Token.lexeme = list → ∃ e' : Expr, e'.bare = e.bare ∧
    ∃ t later, tokens = t :: later ∧ t.kind ≠ .prefixOperator ∧
      ∀ fuel rest index, 6 * tokens.length ≤ fuel + 2 →
        readPrimary fuel t ⟨tokens ++ rest, index⟩ = .ok (e', ⟨rest, index + tokens.length⟩)

/-- The tokens are an operand to which percent signs behind it apply. -/
def ReadsOperand (list : List Lexeme) (e : Expr) : Prop :=
  ∀ tokens : List Token, tokens.map Token.lexeme = list → ∃ e' : Expr, e'.bare = e.bare ∧
    ∀ fuel rest index, 6 * tokens.length ≤ fuel + 1 →
      readUnary fuel ⟨tokens ++ rest, index⟩ = .ok (readPostfix e' rest (index + tokens.length))

/-- The tokens are an operand with the operators before and behind it. -/
def ReadsUnary (list : List Lexeme) (e : Expr) : Prop :=
  ∀ tokens : List Token, tokens.map Token.lexeme = list → ∃ e' : Expr, e'.bare = e.bare ∧
    ∀ fuel rest index, 6 * tokens.length ≤ fuel + 1 → (∀ t ∈ rest.head?, t.kind ≠ .postfixOperator) →
      readUnary fuel ⟨tokens ++ rest, index⟩ = .ok (e', ⟨rest, index + tokens.length⟩)

/-- The tokens are an expression whose infix operators bind at least as tightly as `level`: after them
the reader goes on with what follows. -/
def ReadsExpr (level : Nat) (list : List Lexeme) (e : Expr) : Prop :=
  ∀ tokens : List Token, tokens.map Token.lexeme = list → ∃ e' : Expr, e'.bare = e.bare ∧
    ∀ fuel least rest index, 6 * tokens.length < fuel → least ≤ level → Quiet level rest →
      ∃ fuel', fuel ≤ fuel' + 6 * tokens.length ∧
        readExpr fuel least ⟨tokens ++ rest, index⟩ =
          readInfix fuel' least e' ⟨rest, index + tokens.length⟩

variable {list others : List Lexeme} {e : Expr} {level : Nat}

/-- Where no percent sign follows, an operand is complete. -/
theorem readPostfix_of_quiet {rest : List Token} (quiet : ∀ t ∈ rest.head?, t.kind ≠ .postfixOperator)
    (operand : Expr) (index : Nat) : readPostfix operand rest index = (operand, ⟨rest, index⟩) := by
  cases rest with
  | nil => rfl
  | cons t rest =>
    unfold readPostfix
    exact if_neg (quiet t rfl)

/-- An operand without operators takes percent signs. -/
theorem ReadsPrimary.operand (reads : ReadsPrimary list e) : ReadsOperand list e := by
  intro tokens same
  obtain ⟨e', bare, t, later, rfl, plain, primary⟩ := reads tokens same
  refine ⟨e', bare, fun fuel rest index enough => ?_⟩
  cases fuel with
  | zero =>
    rw [List.length_cons] at enough
    omega
  | succ fuel =>
    rw [readUnary]
    dsimp only [List.cons_append]
    rw [if_neg plain, ← List.cons_append, primary fuel rest index (by omega)]
    rfl

/-- An operand is complete where no percent sign follows. -/
theorem ReadsOperand.unary (reads : ReadsOperand list e) : ReadsUnary list e := by
  intro tokens same
  obtain ⟨e', bare, operand⟩ := reads tokens same
  refine ⟨e', bare, fun fuel rest index enough quiet => ?_⟩
  rw [operand fuel rest index enough, readPostfix_of_quiet quiet]

/-- An operand with its operators is an expression at any level. -/
theorem ReadsUnary.expr (reads : ReadsUnary list e) (level : Nat) : ReadsExpr level list e := by
  intro tokens same
  obtain ⟨e', bare, unary⟩ := reads tokens same
  refine ⟨e', bare, fun fuel least rest index enough _ quiet => ?_⟩
  cases fuel with
  | zero => omega
  | succ fuel =>
    refine ⟨fuel, ?_, ?_⟩
    · have some' : tokens ≠ [] := by
        rintro rfl
        have read := unary 1 [] 0 (by decide) fun t none => by contradiction
        rw [List.nil_append, readUnary] at read
        contradiction
      have positive := List.length_pos_iff.mpr some'
      omega
    · rw [readExpr, unary fuel rest index (by omega) fun t first => (quiet t first).1]
      rfl

/-! ### Operators -/

/-- An operator that is written binds as tightly as the reader finds it to. -/
theorem precedence?_operator {operator : BinaryOperator} (known : ∀ symbol, operator ≠ .other symbol)
    {t : Token} (same : t.lexeme = .operator operator.symbol.toList) :
    t.kind = .infixOperator ∧ t.precedence? = some (operator.precedence, .left) ∧
      BinaryOperator.ofSymbol t.text = operator := by
  obtain ⟨kind, role, text, start, stop⟩ := t
  obtain ⟨rfl, rfl, rfl⟩ := Lexeme.mk.inj same
  cases operator with
  | other symbol => exact absurd rfl (known symbol)
  | _ => exact ⟨rfl, rfl, rfl⟩

/-- Reading infix operators stops in front of one that binds less tightly. -/
theorem readInfix_of_quiet {fuel least : Nat} {rest : List Token} (quiet : Quiet level rest)
    (less : level < least) (e : Expr) (index : Nat) :
    readInfix (fuel + 1) least e ⟨rest, index⟩ = .ok (e, ⟨rest, index⟩) := by
  rw [readInfix]
  cases rest with
  | nil => rfl
  | cons t rest =>
    dsimp only
    refine if_neg fun both => ?_
    have low := (quiet t rfl).2 both.1
    omega

/-- Two expressions around an operator are an expression at the level of the operator. -/
theorem ReadsExpr.binary {left right : Expr} {first second : Nat} (leftReads : ReadsExpr first list left)
    (rightReads : ReadsExpr second others right) {operator : BinaryOperator}
    (known : ∀ symbol, operator ≠ .other symbol) (tight : operator.precedence ≤ first)
    (tighter : operator.precedence < second) (span : Option Span) :
    ReadsExpr operator.precedence (list ++ .operator operator.symbol.toList :: others)
      (.binary operator left right span) := by
  intro tokens same
  obtain ⟨before, later, rfl, sameLeft, sameLater⟩ := List.map_eq_append_iff.mp same
  obtain ⟨t, after, rfl, sign, sameRight⟩ := List.map_eq_cons_iff.mp sameLater
  obtain ⟨kind, found, symbol⟩ := precedence?_operator known sign
  obtain ⟨left', leftBare, leftRead⟩ := leftReads before sameLeft
  obtain ⟨right', rightBare, rightRead⟩ := rightReads after sameRight
  refine ⟨.binary operator left' right' (some t.span), ?_, fun fuel least rest index enough low quiet => ?_⟩
  · simp only [bare, led] at leftBare rightBare ⊢
    rw [leftBare, rightBare]
  · have length : (before ++ t :: after).length = before.length + 1 + after.length := by
      simp; omega
    have next : Quiet first (t :: (after ++ rest)) := by
      rintro _ ⟨⟩
      rw [kind, found]
      exact ⟨fun same => by contradiction, fun _ => tight⟩
    obtain ⟨fuel₁, spent₁, read₁⟩ := leftRead fuel least (t :: (after ++ rest)) index (by omega) (by omega) next
    obtain ⟨fuel₂, rfl⟩ : ∃ n, fuel₁ = n + 1 := ⟨fuel₁ - 1, by omega⟩
    obtain ⟨fuel₃, spent₂, read₂⟩ := rightRead fuel₂ (operator.precedence + 1) rest
      (index + before.length + 1) (by omega) tighter fun t first =>
        ⟨(quiet t first).1, fun infix' => Nat.le_trans ((quiet t first).2 infix') (Nat.le_of_lt tighter)⟩
    obtain ⟨fuel₄, rfl⟩ : ∃ n, fuel₃ = n + 1 := ⟨fuel₃ - 1, by omega⟩
    rw [readInfix_of_quiet quiet (Nat.lt_succ_self _)] at read₂
    refine ⟨fuel₂, by omega, ?_⟩
    rw [List.append_assoc, List.cons_append, read₁, readInfix]
    dsimp only
    rw [found, if_pos ⟨kind, low⟩]
    show (readExpr fuel₂ (operator.precedence + 1) ⟨after ++ rest, index + before.length + 1⟩ >>= _) = _
    rw [read₂, symbol, length, ← Nat.add_assoc, ← Nat.add_assoc]
    rfl

/-- A sign in front of an operand is an operand with the operators around it. -/
theorem ReadsUnary.sign (reads : ReadsUnary list e) {operator : UnaryOperator}
    (signed : operator = .plus ∨ operator = .minus) (span : Option Span) :
    ReadsUnary (.sign operator.symbol.toList :: list) (.unary operator e span) := by
  intro tokens same
  obtain ⟨t, later, rfl, sign, sameLater⟩ := List.map_eq_cons_iff.mp same
  obtain ⟨e', bare', read⟩ := reads later sameLater
  have symbol : t.kind = .prefixOperator ∧ UnaryOperator.ofSymbol t.text = operator := by
    obtain ⟨kind, role, text, start, stop⟩ := t
    obtain ⟨rfl, rfl, rfl⟩ := Lexeme.mk.inj sign
    rcases signed with rfl | rfl <;> exact ⟨rfl, rfl⟩
  refine ⟨.unary operator e' (some t.span), ?_, fun fuel rest index enough quiet => ?_⟩
  · simp only [bare, led] at bare' ⊢
    rw [bare']
  · rw [List.length_cons] at enough ⊢
    cases fuel with
    | zero => omega
    | succ fuel =>
      rw [readUnary]
      dsimp only [List.cons_append]
      rw [if_pos symbol.1]
      show (readUnary fuel ⟨later ++ rest, index + 1⟩ >>= _) = _
      rw [read fuel rest (index + 1) (by omega) quiet, symbol.2, Nat.add_assoc, Nat.add_comm 1]
      rfl

/-- A percent sign behind an operand makes another operand. -/
theorem ReadsOperand.percent (reads : ReadsOperand list e) (span : Option Span) :
    ReadsOperand (list ++ [.percent]) (.unary .percent e span) := by
  intro tokens same
  obtain ⟨before, later, rfl, sameBefore, sameLater⟩ := List.map_eq_append_iff.mp same
  obtain ⟨t, rfl, sign⟩ := List.map_eq_singleton_iff.mp sameLater
  obtain ⟨e', bare', read⟩ := reads before sameBefore
  obtain ⟨kind, role, text, start, stop⟩ := t
  obtain ⟨rfl, rfl, rfl⟩ := Lexeme.mk.inj sign
  refine ⟨.unary .percent e' (some ⟨start, stop⟩), ?_, fun fuel rest index enough => ?_⟩
  · simp only [bare, led] at bare' ⊢
    rw [bare']
  · rw [List.length_append, List.length_singleton] at enough ⊢
    rw [List.append_assoc, read fuel _ index (by omega), ← Nat.add_assoc]
    rfl

/-! ### Brackets -/

/-- Reading infix operators stops in front of what is none. -/
theorem readInfix_of_kind_ne {fuel least : Nat} {t : Token} (other : t.kind ≠ .infixOperator) (e : Expr)
    (rest : List Token) (index : Nat) :
    readInfix (fuel + 1) least e ⟨t :: rest, index⟩ = .ok (e, ⟨t :: rest, index⟩) := by
  rw [readInfix]
  exact if_neg fun both => other both.1

/-- An expression is read up to a token that is neither an operator nor an operand. -/
theorem ReadsExpr.upTo (reads : ReadsExpr level list e) (tokens : List Token)
    (same : tokens.map Token.lexeme = list) : ∃ e' : Expr, e'.bare = e.bare ∧
      ∀ (fuel index : Nat) (t : Token) (rest : List Token), 6 * tokens.length < fuel →
        t.kind ≠ .infixOperator → t.kind ≠ .postfixOperator →
          readExpr fuel 0 ⟨tokens ++ t :: rest, index⟩ = .ok (e', ⟨t :: rest, index + tokens.length⟩) := by
  obtain ⟨e', bare, read⟩ := reads tokens same
  refine ⟨e', bare, fun fuel index t rest enough notInfix notPostfix => ?_⟩
  have quiet : Quiet level (t :: rest) := by
    rintro _ ⟨⟩
    exact ⟨notPostfix, fun infix' => absurd infix' notInfix⟩
  obtain ⟨fuel', spent, found⟩ := read fuel 0 (t :: rest) index enough (Nat.zero_le level) quiet
  obtain ⟨left, rfl⟩ : ∃ n, fuel' = n + 1 := ⟨fuel' - 1, by omega⟩
  rw [found, readInfix_of_kind_ne notInfix]

/-- An expression in parentheses is an operand. -/
theorem ReadsExpr.parenthesized (reads : ReadsExpr level list e) :
    ReadsPrimary (.opening .parenthesis ['('] :: list ++ [.closing .parenthesis]) e := by
  intro tokens same
  obtain ⟨t, later, rfl, opening, sameLater⟩ := List.map_eq_cons_iff.mp same
  obtain ⟨inner, last, rfl, sameInner, sameLast⟩ := List.map_eq_append_iff.mp sameLater
  obtain ⟨t', rfl, closing⟩ := List.map_eq_singleton_iff.mp sameLast
  obtain ⟨e', bare, read⟩ := reads.upTo inner sameInner
  obtain ⟨kind, role, text, start, stop⟩ := t
  obtain ⟨rfl, rfl, rfl⟩ := Lexeme.mk.inj opening
  obtain ⟨kind, role, text, start', stop'⟩ := t'
  obtain ⟨rfl, rfl, rfl⟩ := Lexeme.mk.inj closing
  refine ⟨e', bare, _, _, rfl, nofun, fun fuel rest index enough => ?_⟩
  simp only [List.length_cons, List.length_append, List.length_nil] at enough ⊢
  cases fuel with
  | zero => omega
  | succ fuel =>
    rw [readPrimary]
    show (readExpr fuel 0 ⟨(inner ++ [_]) ++ rest, index + 1⟩ >>= _) = _
    rw [List.append_assoc, List.singleton_append,
      read fuel (index + 1) ⟨.parenthesis, .closing, _, _, _⟩ rest (by omega) nofun nofun]
    show Except.ok (e', TokenCursor.mk rest (index + 1 + inner.length + 1)) = _
    rw [Nat.add_right_comm index 1, Nat.add_assoc index, Nat.add_assoc index]

/-! ### Arguments -/

/-- The first token starts an operand: it separates nothing, closes no bracket and is not all of a
text. -/
def Starts (list : List Lexeme) : Prop :=
  ∃ l ∈ list.head?, (l.kind ≠ .separator ∧ l.kind ≠ .literal) ∧ (l.role = .closing → l.kind = .operand)

/-- What a cursor stands at is told without the place of the token. -/
theorem atToken_cons (t : Token) (rest : List Token) (index : Nat) (kind : TokenKind) (role : TokenRole) :
    TokenCursor.atToken ⟨t :: rest, index⟩ kind role =
      (t.lexeme.kind == kind && t.lexeme.role == role) := rfl

/-- At the start of an operand there is no separator and no closing bracket. -/
theorem atToken_of_starts {tokens : List Token} (starts : Starts (tokens.map Token.lexeme))
    (rest : List Token) (index : Nat) :
    (∀ role, TokenCursor.atToken ⟨tokens ++ rest, index⟩ .separator role = false) ∧
      ∀ kind, kind ≠ .operand → TokenCursor.atToken ⟨tokens ++ rest, index⟩ kind .closing = false := by
  obtain ⟨l, first, ⟨solid, _⟩, open'⟩ := starts
  cases tokens with
  | nil => contradiction
  | cons t later =>
    obtain rfl := Option.some.inj first
    refine ⟨fun role => ?_, fun kind other => ?_⟩
    · rw [List.cons_append, atToken_cons, beq_false_of_ne solid, Bool.false_and]
    · rw [List.cons_append, atToken_cons, Bool.and_eq_false_iff]
      by_cases closing : t.lexeme.role = .closing
      · exact .inl (beq_false_of_ne fun same => other (same ▸ open' closing))
      · exact .inr (beq_false_of_ne closing)

/-- An argument, which may be omitted. -/
def readEntry (fuel : Nat) (c : TokenCursor) : Except FormulaError (Expr × TokenCursor) :=
  if c.atToken .separator .argument || c.atToken .function .closing then .ok (omitted, c)
  else readExpr fuel 0 c

/-- What is read behind an argument: more arguments, or the bracket that closes the call. -/
def readAfter (fuel : Nat) (argument : Expr) (c : TokenCursor) :
    Except FormulaError (List Expr × TokenCursor) :=
  if c.atToken .separator .argument then do
    let (arguments, c) ← readArgument fuel c.next
    return (argument :: arguments, c)
  else if c.atToken .function .closing then return ([argument], c.next)
  else
    match c.rest with
    | t :: _ => throw (c.fault (.expectedSeparator t))
    | [] => throw (c.fault .endOfArguments)

/-- An argument is read, and what is behind it. -/
theorem readArgument_succ (fuel : Nat) (c : TokenCursor) :
    readArgument (fuel + 1) c = readEntry fuel c >>= fun found => readAfter fuel found.1 found.2 := by
  rw [readArgument]
  unfold readEntry
  split <;> rfl

/-- The tokens are an argument: an expression, or none if it is omitted. -/
def ReadsArgument (list : List Lexeme) (e : Expr) : Prop :=
  (list = [] ∧ e.isOmitted = true) ∨ (Starts list ∧ ∃ level, ReadsExpr level list e)

/-- An argument is read up to the separator or the bracket behind it. -/
theorem ReadsArgument.upTo (reads : ReadsArgument list e) (tokens : List Token)
    (same : tokens.map Token.lexeme = list) : ∃ e' : Expr, e'.bare = e.bare ∧
      ∀ (fuel index : Nat) (t : Token) (rest : List Token), 6 * tokens.length < fuel →
        t.lexeme = .comma ∨ t.lexeme = .closing .function →
          readEntry fuel ⟨tokens ++ t :: rest, index⟩ = .ok (e', ⟨t :: rest, index + tokens.length⟩) := by
  rcases reads with ⟨rfl, left⟩ | ⟨starts, level, reads⟩
  · obtain rfl := List.map_eq_nil_iff.mp same
    obtain ⟨span, rfl⟩ := exists_of_isOmitted left
    refine ⟨omitted, rfl, fun fuel index t rest _ ends => ?_⟩
    unfold readEntry
    rw [List.nil_append, atToken_cons, atToken_cons]
    rcases ends with comma | closing
    · rw [comma]
      rfl
    · rw [closing]
      rfl
  · obtain ⟨e', bare, read⟩ := reads.upTo tokens same
    refine ⟨e', bare, fun fuel index t rest enough ends => ?_⟩
    obtain ⟨noSeparator, noBracket⟩ := atToken_of_starts (same ▸ starts) (t :: rest) index
    have kinds : t.kind ≠ .infixOperator ∧ t.kind ≠ .postfixOperator := by
      have kind : t.kind = .separator ∨ t.kind = .function :=
        ends.imp (fun comma => congrArg Lexeme.kind comma) fun closing => congrArg Lexeme.kind closing
      rcases kind with kind | kind <;> rw [kind] <;> exact ⟨nofun, nofun⟩
    unfold readEntry
    rw [noSeparator, noBracket .function nofun]
    exact read fuel index t rest enough kinds.1 kinds.2

/-- Arguments are read up to the bracket behind the last one. -/
theorem readArgument_listLexemes {arguments : List Expr} (some' : arguments ≠ [])
    (all : ∀ e ∈ arguments, ReadsArgument e.lexemes e) (tokens : List Token)
    (same : tokens.map Token.lexeme = listLexemes arguments) :
    ∃ arguments' : List Expr, arguments'.map bare = arguments.map bare ∧
      ∀ (fuel index : Nat) (t : Token) (rest : List Token), 6 * (tokens.length + 1) ≤ fuel →
        t.lexeme = .closing .function → readArgument fuel ⟨tokens ++ t :: rest, index⟩ =
          .ok (arguments', ⟨rest, index + tokens.length + 1⟩) := by
  induction arguments generalizing tokens with
  | nil => exact absurd rfl some'
  | cons e arguments ih =>
    obtain ⟨reads, others⟩ := List.forall_mem_cons.mp all
    cases arguments with
    | nil =>
      obtain ⟨e', bare, read⟩ := reads.upTo tokens same
      refine ⟨[e'], by rw [List.map_singleton, bare, List.map_singleton], fun fuel index t rest enough closing => ?_⟩
      cases fuel with
      | zero => omega
      | succ fuel =>
        rw [readArgument_succ, read fuel index t rest (by omega) (.inr closing)]
        show readAfter fuel e' ⟨t :: rest, index + tokens.length⟩ = _
        unfold readAfter
        rw [atToken_cons, atToken_cons, closing]
        rfl
    | cons second arguments =>
      obtain ⟨before, later, rfl, sameFirst, sameLater⟩ := List.map_eq_append_iff.mp same
      obtain ⟨comma, after, rfl, separates, sameOthers⟩ := List.map_eq_cons_iff.mp sameLater
      obtain ⟨e', bare, read⟩ := reads.upTo before sameFirst
      obtain ⟨arguments', bares, readOthers⟩ := ih (List.cons_ne_nil _ _) others after sameOthers
      refine ⟨e' :: arguments', by rw [List.map_cons, bare, bares]; rfl,
        fun fuel index t rest enough closing => ?_⟩
      simp only [List.length_append, List.length_cons] at enough ⊢
      cases fuel with
      | zero => omega
      | succ fuel =>
        rw [readArgument_succ, List.append_assoc, List.cons_append,
          read fuel index comma (after ++ t :: rest) (by omega) (.inl separates)]
        show readAfter fuel e' ⟨comma :: (after ++ t :: rest), index + before.length⟩ = _
        unfold readAfter
        rw [atToken_cons, separates]
        show (readArgument fuel ⟨after ++ t :: rest, index + before.length + 1⟩ >>= _) = _
        rw [readOthers fuel _ t rest (by omega) closing]
        show Except.ok (e' :: arguments',
          TokenCursor.mk rest (index + before.length + 1 + after.length + 1)) = _
        congr 3
        omega

/-- No bracket closes a call in front of its arguments. -/
theorem exists_head?_listLexemes {arguments : List Expr} (some' : arguments ≠ [])
    (all : ∀ e ∈ arguments, ReadsArgument e.lexemes e)
    (several : ∀ e ∈ arguments, e.isOmitted = true → 2 ≤ arguments.length) :
    ∃ l ∈ (listLexemes arguments).head?, l.role = .closing → l.kind = .operand := by
  obtain ⟨e, rest, rfl⟩ := List.exists_cons_of_ne_nil some'
  have first := all e List.mem_cons_self
  cases rest with
  | nil =>
    rcases first with ⟨_, left⟩ | ⟨⟨l, start, _, open'⟩, _⟩
    · have two := several e List.mem_cons_self left
      rw [List.length_singleton] at two
      omega
    · exact ⟨l, start, open'⟩
  | cons second rest =>
    rcases first with ⟨nothing, _⟩ | ⟨⟨l, start, _, open'⟩, _⟩
    · refine ⟨.comma, ?_, nofun⟩
      rw [listLexemes, nothing]
      · rfl
      · exact nofun
    · refine ⟨l, ?_, open'⟩
      rw [listLexemes, List.head?_append, Option.mem_def.mp start]
      · rfl
      · exact nofun

/-- A call is an operand. -/
theorem readsPrimary_call {name : String} {arguments : List Expr}
    (all : ∀ e ∈ arguments, ReadsArgument e.lexemes e)
    (several : ∀ e ∈ arguments, e.isOmitted = true → 2 ≤ arguments.length) (span : Option Span) :
    ReadsPrimary (lexemes (.call name arguments span)) (.call name arguments span) := by
  intro tokens same
  obtain ⟨t, later, rfl, opening, sameLater⟩ := List.map_eq_cons_iff.mp same
  obtain ⟨inner, last, rfl, sameInner, sameLast⟩ := List.map_eq_append_iff.mp sameLater
  obtain ⟨t', rfl, closing⟩ := List.map_eq_singleton_iff.mp sameLast
  obtain ⟨kind, role, text, start, stop⟩ := t
  obtain ⟨rfl, rfl, rfl⟩ := Lexeme.mk.inj opening
  have named : String.ofList (name.toList ++ ['(']).dropLast = name := by
    rw [List.dropLast_concat, String.ofList_toList]
  have found : ∃ arguments' : List Expr, arguments'.map bare = arguments.map bare ∧
      ∀ (fuel index : Nat) (rest : List Token), 6 * (inner.length + 1) < fuel →
        readArguments fuel ⟨inner ++ t' :: rest, index⟩ =
          .ok (arguments', ⟨rest, index + inner.length + 1⟩) := by
    by_cases none : arguments = []
    · subst none
      obtain rfl := List.map_eq_nil_iff.mp sameInner
      refine ⟨[], rfl, fun fuel index rest enough => ?_⟩
      cases fuel with
      | zero => omega
      | succ fuel =>
        rw [readArguments, List.nil_append, atToken_cons, closing]
        rfl
    · obtain ⟨arguments', bares, read⟩ := readArgument_listLexemes none all inner sameInner
      refine ⟨arguments', bares, fun fuel index rest enough => ?_⟩
      obtain ⟨l, first, open'⟩ := exists_head?_listLexemes none all several
      have notClosed : TokenCursor.atToken ⟨inner ++ t' :: rest, index⟩ .function .closing = false := by
        rw [← sameInner] at first
        cases inner with
        | nil => contradiction
        | cons t later =>
          obtain rfl := Option.some.inj first
          rw [List.cons_append, atToken_cons, Bool.and_eq_false_iff]
          by_cases closes : t.lexeme.role = .closing
          · rw [open' closes]
            exact .inl rfl
          · exact .inr (beq_false_of_ne closes)
      cases fuel with
      | zero => omega
      | succ fuel =>
        rw [readArguments, notClosed, if_neg Bool.false_ne_true, read fuel index t' rest (by omega) closing]
  obtain ⟨arguments', bares, read⟩ := found
  refine ⟨.call name arguments' (some ⟨start, stop⟩), ?_, _, _, rfl, nofun, fun fuel rest index enough => ?_⟩
  · have same : arguments'.map (led some) = arguments.map (led some) := bares
    simp only [bare, led, ledAll_eq, same]
  · simp only [List.length_cons, List.length_append, List.length_nil] at enough ⊢
    cases fuel with
    | zero => omega
    | succ fuel =>
      rw [readPrimary]
      show (readArguments fuel ⟨(inner ++ [t']) ++ rest, index + 1⟩ >>= _) = _
      rw [List.append_assoc, List.singleton_append, read fuel (index + 1) rest (by omega)]
      show Except.ok (Expr.call (String.ofList (name.toList ++ ['(']).dropLast) arguments'
        (some ⟨start, stop⟩), TokenCursor.mk rest (index + 1 + inner.length + 1)) = _
      rw [named, Nat.add_right_comm index 1, Nat.add_assoc index, Nat.add_assoc index]

/-! ### Arrays -/

/-- What is read behind the last entry of a row: more rows, or the bracket that closes the array. -/
def readRowEnd (fuel : Nat) (rows : List (List Expr)) (row : List Expr) (c : TokenCursor) :
    Except FormulaError (Expr × TokenCursor) :=
  if c.atToken .separator .row then readRows fuel (row.reverse :: rows) [] c.next
  else if c.atToken .array .closing then
    let rows := (row.reverse :: rows).reverse
    let width := (Grid.extent rows).2
    if rows.all (·.length == width) then return (.array rows none, c.next)
    else throw (c.next.fault .raggedArray)
  else
    match c.rest with
    | t :: _ => throw (c.fault (.unexpectedInArray t))
    | [] => throw (c.fault .endOfArray)

/-- An entry is read, and what is behind it. -/
theorem readRows_succ (fuel : Nat) (rows : List (List Expr)) (row : List Expr) (c : TokenCursor) :
    readRows (fuel + 1) rows row c = readExpr fuel 0 c >>= fun found =>
      if found.2.atToken .separator .argument then readRows fuel rows (found.1 :: row) found.2.next
      else readRowEnd fuel rows (found.1 :: row) found.2 := by
  rw [readRows]
  rfl

/-- The entries of a row are read up to what ends the row. -/
theorem readRows_listLexemes {row : List Expr} (some' : row ≠ [])
    (all : ∀ e ∈ row, ∃ level, ReadsExpr level e.lexemes e) (tokens : List Token)
    (same : tokens.map Token.lexeme = listLexemes row) :
    ∃ row' : List Expr, row'.map bare = row.map bare ∧
      ∀ (fuel index : Nat) (rows : List (List Expr)) (before : List Expr) (t : Token) (rest : List Token),
        6 * (tokens.length + 1) ≤ fuel → t.lexeme = .semicolon ∨ t.lexeme = .closing .array →
          ∃ fuel', fuel ≤ fuel' + 6 * tokens.length + 1 ∧
            readRows fuel rows before ⟨tokens ++ t :: rest, index⟩ =
              readRowEnd fuel' rows (row'.reverse ++ before) ⟨t :: rest, index + tokens.length⟩ := by
  induction row generalizing tokens with
  | nil => exact absurd rfl some'
  | cons e row ih =>
    obtain ⟨⟨level, reads⟩, others⟩ := List.forall_mem_cons.mp all
    cases row with
    | nil =>
      obtain ⟨e', bare, read⟩ := reads.upTo tokens same
      refine ⟨[e'], by rw [List.map_singleton, bare, List.map_singleton],
        fun fuel index rows before t rest enough ends => ?_⟩
      have kinds : t.kind ≠ .infixOperator ∧ t.kind ≠ .postfixOperator ∧
          TokenCursor.atToken ⟨t :: rest, index + tokens.length⟩ .separator .argument = false := by
        rw [atToken_cons]
        have kind : t.kind = t.lexeme.kind := rfl
        rcases ends with ends | ends <;> rw [kind, ends] <;> exact ⟨nofun, nofun, rfl⟩
      cases fuel with
      | zero => omega
      | succ fuel =>
        refine ⟨fuel, by omega, ?_⟩
        rw [readRows_succ, read fuel index t rest (by omega) kinds.1 kinds.2.1]
        show (if TokenCursor.atToken ⟨t :: rest, index + tokens.length⟩ .separator .argument then _
          else _) = _
        rw [kinds.2.2]
        rfl
    | cons second row =>
      obtain ⟨first, later, rfl, sameFirst, sameLater⟩ := List.map_eq_append_iff.mp same
      obtain ⟨comma, after, rfl, separates, sameOthers⟩ := List.map_eq_cons_iff.mp sameLater
      obtain ⟨e', bare, read⟩ := reads.upTo first sameFirst
      obtain ⟨row', bares, readOthers⟩ := ih (List.cons_ne_nil _ _) others after sameOthers
      refine ⟨e' :: row', by rw [List.map_cons, bare, bares]; rfl,
        fun fuel index rows before t rest enough ends => ?_⟩
      simp only [List.length_append, List.length_cons] at enough ⊢
      have kinds : comma.kind ≠ .infixOperator ∧ comma.kind ≠ .postfixOperator := by
        have kind : comma.kind = comma.lexeme.kind := rfl
        rw [kind, separates]
        exact ⟨nofun, nofun⟩
      cases fuel with
      | zero => omega
      | succ fuel =>
        obtain ⟨fuel', spent, found⟩ := readOthers fuel (index + first.length + 1) rows (e' :: before) t rest
          (by omega) ends
        refine ⟨fuel', by omega, ?_⟩
        rw [readRows_succ, List.append_assoc, List.cons_append,
          read fuel index comma (after ++ t :: rest) (by omega) kinds.1 kinds.2]
        show (if TokenCursor.atToken ⟨comma :: (after ++ t :: rest), index + first.length⟩ .separator
          .argument then readRows fuel rows (e' :: before) ⟨after ++ t :: rest, index + first.length + 1⟩
          else _) = _
        rw [atToken_cons, separates, found, List.reverse_cons, List.append_assoc, List.singleton_append,
          Nat.add_assoc, Nat.add_assoc, Nat.add_comm 1]
        rfl

/-- Rows of one length are accepted. -/
theorem all_length_of_even {rows : List (List Expr)} {width : Nat} (even : ∀ row ∈ rows, row.length = width) :
    rows.all (·.length == (Grid.extent rows).2) = true := by
  cases rows with
  | nil => rfl
  | cons row rest =>
    refine List.all_eq_true.mpr fun other listed => beq_iff_eq.mpr ?_
    rw [even other listed]
    exact (even row List.mem_cons_self).symm

/-- Rows are read up to the bracket behind the last one. -/
theorem readRows_rowLexemes {rows : List (List Expr)} (some' : rows ≠ []) {width : Nat}
    (even : ∀ row ∈ rows, row.length = width) (wide : 0 < width)
    (all : ∀ row ∈ rows, ∀ e ∈ row, ∃ level, ReadsExpr level e.lexemes e) (tokens : List Token)
    (same : tokens.map Token.lexeme = rowLexemes rows) :
    ∃ rows' : List (List Expr), (rows'.map fun row => row.map bare) = (rows.map fun row => row.map bare) ∧
      ∀ (fuel index : Nat) (before : List (List Expr)) (t : Token) (rest : List Token),
        6 * (tokens.length + 1) ≤ fuel → t.lexeme = .closing .array →
          (∀ row ∈ before, row.length = width) → readRows fuel before [] ⟨tokens ++ t :: rest, index⟩ =
            .ok (.array (before.reverse ++ rows') none, ⟨rest, index + tokens.length + 1⟩) := by
  induction rows generalizing tokens with
  | nil => exact absurd rfl some'
  | cons row rows ih =>
    obtain ⟨entries, others⟩ := List.forall_mem_cons.mp all
    obtain ⟨length, evenOthers⟩ := List.forall_mem_cons.mp even
    have filled : row ≠ [] := by
      rintro rfl
      rw [List.length_nil] at length
      omega
    cases rows with
    | nil =>
      obtain ⟨row', bares, read⟩ := readRows_listLexemes filled entries tokens same
      have length' : row'.length = width := by
        rw [← length, ← List.length_map (f := bare), bares, List.length_map]
      refine ⟨[row'], by rw [List.map_singleton, bares, List.map_singleton],
        fun fuel index before t rest enough closing evenBefore => ?_⟩
      obtain ⟨fuel', spent, found⟩ := read fuel index before [] t rest enough (.inr closing)
      have more : ∀ r ∈ row' :: before, r.length = width :=
        List.forall_mem_cons.mpr ⟨length', evenBefore⟩
      have evenAll : ∀ r ∈ (row' :: before).reverse, r.length = width := fun r listed =>
        more r (List.mem_reverse.mp listed)
      rw [found, List.append_nil]
      unfold readRowEnd
      rw [atToken_cons, atToken_cons, closing, List.reverse_reverse]
      dsimp only
      rw [all_length_of_even evenAll, List.reverse_cons]
      rfl
    | cons second rows =>
      obtain ⟨first, later, rfl, sameFirst, sameLater⟩ := List.map_eq_append_iff.mp same
      obtain ⟨semicolon, after, rfl, separates, sameOthers⟩ := List.map_eq_cons_iff.mp sameLater
      obtain ⟨row', bares, read⟩ := readRows_listLexemes filled entries first sameFirst
      obtain ⟨rows', bares', readOthers⟩ := ih (List.cons_ne_nil _ _) evenOthers others after sameOthers
      have length' : row'.length = width := by
        rw [← length, ← List.length_map (f := bare), bares, List.length_map]
      refine ⟨row' :: rows', by rw [List.map_cons, bares, bares']; rfl,
        fun fuel index before t rest enough closing evenBefore => ?_⟩
      simp only [List.length_append, List.length_cons] at enough ⊢
      obtain ⟨fuel', spent, found⟩ := read fuel index before [] semicolon (after ++ t :: rest) (by omega)
        (.inl separates)
      rw [List.append_assoc, List.cons_append, found, List.append_nil]
      unfold readRowEnd
      rw [atToken_cons, separates, List.reverse_reverse]
      show readRows fuel' (row' :: before) [] ⟨after ++ t :: rest, index + first.length + 1⟩ = _
      rw [readOthers fuel' _ (row' :: before) t rest (by omega) closing
        (List.forall_mem_cons.mpr ⟨length', evenBefore⟩), List.reverse_cons, List.append_assoc,
        List.singleton_append, Nat.add_assoc index, Nat.add_assoc index, Nat.add_assoc first.length,
        Nat.add_comm 1]

/-- What starts an operand starts a longer list. -/
theorem Starts.append (starts : Starts list) (others : List Lexeme) : Starts (list ++ others) := by
  obtain ⟨l, first, rest⟩ := starts
  exact ⟨l, by rw [Option.mem_def, List.head?_append, Option.mem_def.mp first]; rfl, rest⟩

/-- Rows start with their first entry. -/
theorem starts_rowLexemes {rows : List (List Expr)} (some' : rows ≠ []) (filled : ∀ row ∈ rows, row ≠ [])
    (starts : ∀ row ∈ rows, ∀ e ∈ row, Starts e.lexemes) : Starts (rowLexemes rows) := by
  obtain ⟨row, others, rfl⟩ := List.exists_cons_of_ne_nil some'
  obtain ⟨e, entries, rfl⟩ := List.exists_cons_of_ne_nil (filled row List.mem_cons_self)
  have entry : Starts e.lexemes := starts _ List.mem_cons_self e List.mem_cons_self
  have first : Starts (listLexemes (e :: entries)) := by
    cases entries with
    | nil => exact entry
    | cons _ _ => exact entry.append _
  cases others with
  | nil => exact first
  | cons _ _ => exact first.append _

/-- An array is an operand. -/
theorem readsPrimary_array {rows : List (List Expr)} (some' : rows ≠ []) {width : Nat}
    (even : ∀ row ∈ rows, row.length = width) (wide : 0 < width)
    (all : ∀ row ∈ rows, ∀ e ∈ row, ∃ level, ReadsExpr level e.lexemes e)
    (starts : ∀ row ∈ rows, ∀ e ∈ row, Starts e.lexemes) (span : Option Span) :
    ReadsPrimary (lexemes (.array rows span)) (.array rows span) := by
  intro tokens same
  obtain ⟨t, later, rfl, opening, sameLater⟩ := List.map_eq_cons_iff.mp same
  obtain ⟨inner, last, rfl, sameInner, sameLast⟩ := List.map_eq_append_iff.mp sameLater
  obtain ⟨t', rfl, closing⟩ := List.map_eq_singleton_iff.mp sameLast
  obtain ⟨kind, role, text, start, stop⟩ := t
  obtain ⟨rfl, rfl, rfl⟩ := Lexeme.mk.inj opening
  obtain ⟨rows', bares, read⟩ := readRows_rowLexemes some' even wide all inner sameInner
  have filled : ∀ row ∈ rows, row ≠ [] := by
    rintro row listed rfl
    have length := even [] listed
    rw [List.length_nil] at length
    omega
  have first : Starts (inner.map Token.lexeme) := sameInner ▸ starts_rowLexemes some' filled starts
  refine ⟨.array rows' none, ?_, _, _, rfl, nofun, fun fuel rest index enough => ?_⟩
  · have same : (rows'.map fun row => row.map (led some)) = (rows.map fun row => row.map (led some)) :=
      bares
    simp only [bare, led, ledRows_eq, same]
  · simp only [List.length_cons, List.length_append, List.length_nil] at enough ⊢
    have notClosed := (atToken_of_starts first (t' :: rest) (index + 1)).2 .array fun same => by contradiction
    cases fuel with
    | zero => omega
    | succ fuel =>
      rw [readPrimary]
      show (if TokenCursor.atToken ⟨(inner ++ [t']) ++ rest, index + 1⟩ .array .closing then _
        else readRows fuel [] [] ⟨(inner ++ [t']) ++ rest, index + 1⟩) = _
      rw [List.append_assoc, List.singleton_append, notClosed, if_neg Bool.false_ne_true,
        read fuel (index + 1) [] t' rest (by omega) closing fun r none => absurd none List.not_mem_nil,
        Nat.add_right_comm index 1, Nat.add_assoc index, Nat.add_assoc index]
      rfl

/-- An array without rows is an operand. -/
theorem readsPrimary_noRows (span : Option Span) :
    ReadsPrimary (lexemes (.array [] span)) (.array [] span) := by
  intro tokens same
  obtain ⟨t, later, rfl, opening, sameLater⟩ := List.map_eq_cons_iff.mp same
  obtain ⟨t', rfl, closing⟩ := List.map_eq_singleton_iff.mp sameLater
  obtain ⟨kind, role, text, start, stop⟩ := t
  obtain ⟨rfl, rfl, rfl⟩ := Lexeme.mk.inj opening
  refine ⟨.array [] none, rfl, _, _, rfl, nofun, fun fuel rest index enough => ?_⟩
  cases fuel with
  | zero =>
    simp only [List.length_cons, List.length_nil] at enough
    omega
  | succ fuel =>
    have closed : TokenCursor.atToken ⟨t' :: rest, index + 1⟩ .array .closing = true := by
      rw [atToken_cons, closing]
      rfl
    rw [readPrimary]
    show (if TokenCursor.atToken ⟨t' :: rest, index + 1⟩ .array .closing then _ else _) = _
    rw [closed]
    rfl

/-- An operand that stands alone is read. -/
theorem ReadsAs.primary {text : List Char} (reads : ReadsAs text e) : ReadsPrimary [.operand text] e := by
  intro tokens same
  obtain ⟨t, rfl, single⟩ := List.map_eq_singleton_iff.mp same
  obtain ⟨e', found, bare⟩ := reads.read t single
  have kind : t.kind = .operand := congrArg Lexeme.kind single
  refine ⟨e', bare, t, [], rfl, by rw [kind]; nofun, fun fuel rest index enough => ?_⟩
  cases fuel with
  | zero =>
    rw [List.length_singleton] at enough
    omega
  | succ fuel =>
    unfold readPrimary
    rw [kind, found]
    rfl

/-! ### Trees -/

/-- The tokens of a tree are read as the tree: as an expression, and as an operand where the tree binds
tightly enough to stand as one. -/
structure Rereads (e : Expr) : Prop where
  starts : Starts e.lexemes
  expr : ReadsExpr e.precedence e.lexemes e
  unary : 7 ≤ e.precedence → ReadsUnary e.lexemes e
  operand : 6 ≤ e.precedence → e.isSigned = false → ReadsOperand e.lexemes e

namespace Rereads

/-- An operand without operators is read. -/
theorem of_primary (reads : ReadsPrimary e.lexemes e) (starts : Starts e.lexemes) : Rereads e where
  starts := starts
  expr := reads.operand.unary.expr _
  unary _ := reads.operand.unary
  operand _ _ := reads.operand

/-- A tree in parentheses, where it needs them, starts an operand. -/
theorem starts_bracketed (reads : Rereads e) (least : Nat) : Starts (e.bracketed least e.lexemes) := by
  unfold bracketed
  split
  · exact ⟨_, rfl, ⟨nofun, nofun⟩, nofun⟩
  · exact reads.starts

/-- A tree is an expression where its operator needs one, in parentheses if it binds less tightly. -/
theorem expr_bracketed (reads : Rereads e) (least : Nat) :
    ∃ level, least ≤ level ∧ ReadsExpr level (e.bracketed least e.lexemes) e := by
  unfold bracketed
  split
  · exact ⟨least, Nat.le_refl least, reads.expr.parenthesized.operand.unary.expr least⟩
  · rename_i tight
    exact ⟨e.precedence, Nat.le_of_not_lt tight, reads.expr⟩

/-- A tree is an operand behind a sign, in parentheses if it binds less tightly. -/
theorem unary_bracketed (reads : Rereads e) : ReadsUnary (e.bracketed 7 e.lexemes) e := by
  unfold bracketed
  split
  · exact reads.expr.parenthesized.operand.unary
  · rename_i tight
    exact reads.unary (Nat.le_of_not_lt tight)

/-- A tree without a sign is an operand in front of a percent sign, in parentheses if it binds less
tightly. -/
theorem operand_bracketed (reads : Rereads e) (unsigned : e.isSigned = false) :
    ReadsOperand (e.bracketed 6 e.lexemes) e := by
  unfold bracketed
  split
  · exact reads.expr.parenthesized.operand
  · rename_i tight
    exact reads.operand (Nat.le_of_not_lt tight) unsigned

/-- A tree is an argument. -/
theorem argument (reads : Rereads e) : ReadsArgument e.lexemes e := .inr ⟨reads.starts, _, reads.expr⟩

end Rereads

/-- A literal or a reference is read. -/
theorem ReadsAs.rereads {text : List Char} (reads : ReadsAs text e) (single : e.lexemes = [.operand text]) :
    Rereads e :=
  .of_primary (single ▸ reads.primary) (single ▸ ⟨_, rfl, ⟨nofun, nofun⟩, fun _ => rfl⟩)

/-- The tokens of a formula that says what its tree is are read as the tree. -/
theorem Legible.rereads (legible : e.Legible) : Rereads e := by
  induction legible with
  | number unsigned span => exact (readsAs_number unsigned span).rereads rfl
  | text content span => exact (readsAs_text content span).rereads rfl
  | boolean b span => exact (readsAs_boolean b span).rereads rfl
  | error known span => exact (readsAs_error known span).rereads rfl
  | reference legible spelling span => exact (readsAs_reference legible spelling span).rereads rfl
  | plus _ span ih =>
    have reads := ih.unary_bracketed.sign (.inl rfl) span
    exact ⟨⟨_, rfl, ⟨nofun, nofun⟩, nofun⟩, reads.expr _, fun _ => reads, fun _ signed => by contradiction⟩
  | minus _ span ih =>
    have reads := ih.unary_bracketed.sign (.inr rfl) span
    exact ⟨⟨_, rfl, ⟨nofun, nofun⟩, nofun⟩, reads.expr _, fun _ => reads, fun _ signed => by contradiction⟩
  | percent _ unsigned span ih =>
    have reads := (ih.operand_bracketed unsigned).percent span
    exact ⟨(ih.starts_bracketed 6).append _, reads.unary.expr _, fun _ => reads.unary, fun _ _ => reads⟩
  | @binary operator left right known _ _ span first second =>
    obtain ⟨level, tight, leftReads⟩ := first.expr_bracketed operator.precedence
    obtain ⟨level', tighter, rightReads⟩ := second.expr_bracketed (operator.precedence + 1)
    have loose : operator.precedence < 6 := by
      cases operator with
      | other symbol => exact absurd rfl (known symbol)
      | _ => decide
    refine ⟨(first.starts_bracketed _).append _, leftReads.binary rightReads known tight tighter span,
      fun tight => ?_, fun tight => ?_⟩
    · exact absurd (Nat.lt_of_lt_of_le loose (Nat.le_of_succ_le tight)) (Nat.lt_irrefl _)
    · exact absurd (Nat.lt_of_lt_of_le loose tight) (Nat.lt_irrefl _)
  | @call name arguments _ _ _ several span ih =>
    refine .of_primary (readsPrimary_call (fun e listed => ?_) several span) ⟨_, rfl, ⟨nofun, nofun⟩, nofun⟩
    cases left : e.isOmitted with
    | false => exact (ih e listed left).argument
    | true =>
      obtain ⟨span, rfl⟩ := exists_of_isOmitted left
      exact .inl ⟨rfl, rfl⟩
  | noRows span => exact .of_primary (readsPrimary_noRows span) ⟨_, rfl, ⟨nofun, nofun⟩, nofun⟩
  | array some' wide rectangular _ span ih =>
    exact .of_primary (readsPrimary_array some' rectangular wide
      (fun row listed e member => ⟨_, (ih row listed e member).expr⟩)
      (fun row listed e member => (ih row listed e member).starts) span) ⟨_, rfl, ⟨nofun, nofun⟩, nofun⟩

/-- A formula that says what its tree is reads back as the tree, but for tokens and spellings. -/
theorem Legible.ofText_chars (legible : e.Legible) :
    ∃ e' : Expr, ofText e.render.toList = .ok e' ∧ e'.bare = e.bare := by
  obtain ⟨tokens, cut, same, significant'⟩ := legible.tokens_render
  obtain ⟨e', bare, read⟩ := legible.rereads.expr tokens same
  obtain ⟨fuel, spent, found⟩ := read (6 * tokens.length + 6) 0 [] 0 (by omega) (Nat.zero_le _)
    fun t none => by contradiction
  obtain ⟨left, rfl⟩ : ∃ n, fuel = n + 1 := ⟨fuel - 1, by omega⟩
  refine ⟨e', ?_, bare⟩
  obtain ⟨l, first, ⟨_, formula⟩, _⟩ := same ▸ legible.rereads.starts
  cases tokens with
  | nil => contradiction
  | cons t rest =>
    obtain rfl := Option.some.inj first
    rw [List.append_nil, readInfix] at found
    unfold ofText
    rw [cut]
    dsimp only
    rw [significant']
    unfold ofTokens
    dsimp only
    rw [if_neg (show t.kind ≠ .literal from formula), found]
    rfl

/-- The formula of a tree reads back as the tree, but for tokens and spellings. -/
theorem ofText_render (writable : e.Writable) :
    ∃ e' : Expr, ofText e.render.toList = .ok e' ∧ e'.bare = e.bare :=
  writable.legible.ofText_chars

/-- The sum of one and a cell as a percentage, times the negative sum of a range of a sheet with a blank
in its name and an omitted argument. -/
def mixedFormula : Expr :=
  .binary .times
    (.unary .percent
      (.binary .plus (.literal (.number ⟨0x3ff0000000000000⟩) none)
        (.reference (.cell none ⟨0, 0, false, true, by decide, by decide⟩) "" none) none) none)
    (.unary .minus
      (.call "SUM"
        [.reference (.range (some "my sheet") ⟨some ⟨1, false⟩, none⟩ ⟨some ⟨2, true⟩, none⟩) "" none,
          omitted] none) none) none

/-- The formula is read back from its text. -/
theorem ofText_render_mixedFormula : mixedFormula.Writable ∧
    ∃ e' : Expr, ofText mixedFormula.render.toList = .ok e' ∧ e'.bare = mixedFormula.bare := by
  have writable : mixedFormula.Writable := by
    have cell : Reference.Writable (.cell none ⟨0, 0, false, true, by decide, by decide⟩) :=
      ⟨nofun, nofun, trivial⟩
    have rows : Reference.Writable
        (.range (some "my sheet") ⟨some ⟨1, false⟩, none⟩ ⟨some ⟨2, true⟩, none⟩) := by
      refine ⟨by rintro _ ⟨⟩; decide, ?_, by rintro _ ⟨⟩ _ ⟨⟩; decide, nofun⟩
      rintro named start stop ⟨⟩
      refine ⟨⟨rfl, ?_, nofun⟩, ⟨rfl, ?_, nofun⟩⟩ <;>
      · rintro _ ⟨⟩
        decide
    refine .binary (fun _ same => by contradiction)
      (.percent (.binary (fun _ same => by contradiction) (.number _ (by decide) (by decide) none)
        (.reference cell "" none) none) rfl none)
      (.minus (.call ?_ ?_ ?_ none) none) none
    · have letters : "SUM".toList.all Char.isAlphanum = true := by decide
      exact ⟨⟨'S', rfl, rfl⟩, fun c listed => .inl (List.all_eq_true.mp letters c listed)⟩
    · simp only [List.forall_mem_cons]
      exact ⟨fun _ => .reference rows "" none, nofun, nofun⟩
    · exact fun _ _ _ => Nat.le_refl 2
  exact ⟨writable, ofText_render writable⟩

end Expr

end Spreadsheet
