import Spreadsheet.Formula.Parser
import Spreadsheet.Proofs.Evaluation.Rectangular

/-!
# What holds of every tree that is read

The reader makes trees of operands, operators, calls and arrays. What holds of operands and passes
from the parts of a tree to the whole holds of the tree of every text.
-/
namespace Spreadsheet

/-- An evaluation in two steps that ends well has ended well after the first step. -/
theorem exists_of_bind_eq_ok {ε α β : Type} {x : Except ε α} {f : α → Except ε β} {b : β}
    (ended : x >>= f = .ok b) : ∃ a, x = .ok a ∧ f a = .ok b := by
  cases x with
  | error e => contradiction
  | ok a => exact ⟨a, rfl, ended⟩

/-- What is given holds of the tokens that are still to be read. -/
def TokenCursor.All (Given : Token → Prop) (c : TokenCursor) : Prop := ∀ t ∈ c.rest, Given t

/-- What is given holds behind the next token. -/
theorem TokenCursor.All.next {Given : Token → Prop} {c : TokenCursor} (all : c.All Given) :
    c.next.All Given :=
  fun t listed => all t (List.mem_of_mem_tail listed)

namespace Expr

/-- A property of the operands that are read which passes from the parts of a tree to the whole, of tokens
of which something is given. An argument that is left out is not alone. The arrays that are read have rows
of one length, which is not zero. -/
structure ReaderLaw (Given : Token → Prop) (Holds : Expr → Prop) : Prop where
  text : ∀ content span, Holds (.literal (.text content) span)
  operand : ∀ t e, Given t → t.kind = .operand → ofOperand t = .ok e → Holds e
  sign : ∀ t operand, Given t → t.kind = .prefixOperator → Holds operand →
    Holds (.unary (.ofSymbol t.text) operand (some t.span))
  percent : ∀ t operand, Given t → t.kind = .postfixOperator → Holds operand →
    Holds (.unary (.ofSymbol t.text) operand (some t.span))
  binary : ∀ t left right, Given t → t.kind = .infixOperator → Holds left → Holds right →
    Holds (.binary (.ofSymbol t.text) left right (some t.span))
  call : ∀ t arguments, Given t → t.kind = .function → t.role = .opening →
    (∀ e ∈ arguments, e = omitted ∨ Holds e) → arguments ≠ [omitted] →
      Holds (.call (String.ofList t.text.dropLast) arguments (some t.span))
  array : ∀ rows width, 0 < width → Grid.Even rows width →
    (∀ row ∈ rows, ∀ e ∈ row, Holds e) → Holds (.array rows none)

variable {Given : Token → Prop} {Holds : Expr → Prop}

/-- A law holds of an operand with the operators behind it. -/
theorem ReaderLaw.readPostfix (law : ReaderLaw Given Holds) (tokens : List Token) {operand : Expr}
    (index : Nat) (all : ∀ t ∈ tokens, Given t) (holds : Holds operand) :
    Holds (Expr.readPostfix operand tokens index).1 ∧
      (Expr.readPostfix operand tokens index).2.All Given := by
  induction tokens generalizing operand index with
  | nil => exact ⟨holds, all⟩
  | cons t rest ih =>
    unfold Expr.readPostfix
    split
    · rename_i kind
      obtain ⟨first, others⟩ := List.forall_mem_cons.mp all
      exact ih _ others (law.percent _ _ first kind holds)
    · exact ⟨holds, all⟩

/-- With some fuel, a property holds of everything the readers read, and what is given of the tokens behind
it. An argument that is read may be left out, but the first one only in front of others. -/
structure ReadsOnly (Given : Token → Prop) (Holds : Expr → Prop) (fuel : Nat) : Prop where
  expr : ∀ {least c e c'}, c.All Given → readExpr fuel least c = .ok (e, c') → Holds e ∧ c'.All Given
  infix' : ∀ {least left c e c'}, c.All Given → Holds left → readInfix fuel least left c = .ok (e, c') →
    Holds e ∧ c'.All Given
  unary : ∀ {c e c'}, c.All Given → readUnary fuel c = .ok (e, c') → Holds e ∧ c'.All Given
  primary : ∀ {t c e c'}, Given t → c.All Given → readPrimary fuel t c = .ok (e, c') →
    Holds e ∧ c'.All Given
  arguments : ∀ {c list c'}, c.All Given → readArguments fuel c = .ok (list, c') →
    ((∀ e ∈ list, e = omitted ∨ Holds e) ∧ list ≠ [omitted]) ∧ c'.All Given
  argument : ∀ {c list c'}, c.All Given → readArgument fuel c = .ok (list, c') →
    ((∀ e ∈ list, e = omitted ∨ Holds e) ∧ list ≠ [] ∧
      (c.atToken .function .closing = false → list ≠ [omitted])) ∧ c'.All Given
  rows : ∀ {rows row c e c'}, c.All Given → (∀ r ∈ rows, ∀ e ∈ r, Holds e) → (∀ e ∈ row, Holds e) →
    readRows fuel rows row c = .ok (e, c') → Holds e ∧ c'.All Given

namespace ReadsOnly

variable {fuel : Nat}

/-- Without fuel nothing is read. -/
theorem zero : ReadsOnly Given Holds 0 where
  expr _ found := by
    unfold readExpr at found
    contradiction
  infix' _ _ found := by
    unfold readInfix at found
    contradiction
  unary _ found := by
    unfold readUnary at found
    contradiction
  primary _ _ found := by
    unfold readPrimary at found
    contradiction
  arguments _ found := by
    unfold readArguments at found
    contradiction
  argument _ found := by
    unfold readArgument at found
    contradiction
  rows _ _ _ found := by
    unfold readRows at found
    contradiction

/-- Reading an operand with the operators around it. -/
theorem readUnary_succ (reads : ReadsOnly Given Holds fuel) (law : ReaderLaw Given Holds)
    {c c' : TokenCursor} {e : Expr} (all : c.All Given)
    (found : readUnary (fuel + 1) c = .ok (e, c')) : Holds e ∧ c'.All Given := by
  unfold readUnary at found
  split at found
  · contradiction
  · rename_i t later rest
    have first : Given t := all t (rest ▸ List.mem_cons_self)
    split at found
    · rename_i kind
      obtain ⟨⟨operand, next⟩, inner, last⟩ := exists_of_bind_eq_ok found
      obtain ⟨rfl, rfl⟩ := Prod.mk.inj (Except.ok.inj last)
      obtain ⟨holds, behind⟩ := reads.unary all.next inner
      exact ⟨law.sign _ _ first kind holds, behind⟩
    · obtain ⟨⟨operand, next⟩, inner, last⟩ := exists_of_bind_eq_ok found
      obtain ⟨holds, behind⟩ := reads.primary first all inner
      have complete := law.readPostfix next.rest next.index behind holds
      rwa [Except.ok.inj last] at complete

/-- Reading infix operators and their right operands. -/
theorem readInfix_succ (reads : ReadsOnly Given Holds fuel) (law : ReaderLaw Given Holds) {least : Nat}
    {left e : Expr} {c c' : TokenCursor} (all : c.All Given) (holds : Holds left)
    (found : readInfix (fuel + 1) least left c = .ok (e, c')) : Holds e ∧ c'.All Given := by
  unfold readInfix at found
  split at found
  · obtain ⟨rfl, rfl⟩ := Prod.mk.inj (Except.ok.inj found)
    exact ⟨holds, all⟩
  · rename_i t later rest
    have first : Given t := all t (rest ▸ List.mem_cons_self)
    dsimp only at found
    split at found
    · rename_i both
      obtain ⟨⟨right, next⟩, inner, last⟩ := exists_of_bind_eq_ok found
      obtain ⟨holds', behind⟩ := reads.expr all.next inner
      exact reads.infix' behind (law.binary _ _ _ first both.1 holds holds') last
    · obtain ⟨rfl, rfl⟩ := Prod.mk.inj (Except.ok.inj found)
      exact ⟨holds, all⟩

/-- Reading an operand. -/
theorem readPrimary_succ (reads : ReadsOnly Given Holds fuel) (law : ReaderLaw Given Holds) {t : Token}
    {c c' : TokenCursor} {e : Expr} (first : Given t) (all : c.All Given)
    (found : readPrimary (fuel + 1) t c = .ok (e, c')) : Holds e ∧ c'.All Given := by
  unfold readPrimary at found
  split at found
  · split at found
    · rename_i kind _ _ operand
      obtain ⟨rfl, rfl⟩ := Prod.mk.inj (Except.ok.inj found)
      exact ⟨law.operand _ _ first kind operand, all.next⟩
    · contradiction
  · rename_i kind role
    obtain ⟨⟨arguments, next⟩, inner, last⟩ := exists_of_bind_eq_ok found
    obtain ⟨rfl, rfl⟩ := Prod.mk.inj (Except.ok.inj last)
    obtain ⟨⟨listed, several⟩, behind⟩ := reads.arguments all.next inner
    exact ⟨law.call _ _ first kind role listed several, behind⟩
  · obtain ⟨⟨inside, next⟩, inner, last⟩ := exists_of_bind_eq_ok found
    dsimp only at last
    obtain ⟨holds, behind⟩ := reads.expr all.next inner
    split at last
    · obtain ⟨rfl, rfl⟩ := Prod.mk.inj (Except.ok.inj last)
      exact ⟨holds, behind.next⟩
    · contradiction
  · split at found
    · obtain ⟨rfl, rfl⟩ := Prod.mk.inj (Except.ok.inj found)
      exact ⟨law.array _ 1 Nat.one_pos (fun _ none => by contradiction) fun _ none => by contradiction,
        all.next.next⟩
    · exact reads.rows all.next (fun _ none => by contradiction) (fun _ none => by contradiction) found
  · contradiction

/-- Reading what stands behind an argument. -/
theorem behindArgument (reads : ReadsOnly Given Holds fuel) {argument : Expr} {c c' : TokenCursor}
    {list : List Expr} (all : c.All Given) (holds : argument = omitted ∨ Holds argument)
    (found : (if c.atToken .separator .argument then do
        let (arguments, c) ← readArgument fuel c.next
        return (argument :: arguments, c)
      else if c.atToken .function .closing then return ([argument], c.next)
      else
        match c.rest with
        | t :: _ => throw (c.fault (.expectedSeparator t))
        | [] => throw (c.fault .endOfArguments)) = Except.ok (list, c')) :
    ((∀ e ∈ list, e = omitted ∨ Holds e) ∧ list ≠ [] ∧
      (c.atToken .separator .argument = true ∨ argument ≠ omitted → list ≠ [omitted])) ∧
        c'.All Given := by
  split at found
  · obtain ⟨⟨others, behind⟩, further, last⟩ := exists_of_bind_eq_ok found
    obtain ⟨rfl, rfl⟩ := Prod.mk.inj (Except.ok.inj last)
    obtain ⟨⟨listed, some', _⟩, after⟩ := reads.argument all.next further
    refine ⟨⟨List.forall_mem_cons.mpr ⟨holds, listed⟩, List.cons_ne_nil _ _, fun _ same => ?_⟩, after⟩
    exact some' (List.cons.inj same).2
  · rename_i noSeparator
    split at found
    · obtain ⟨rfl, rfl⟩ := Prod.mk.inj (Except.ok.inj found)
      refine ⟨⟨List.forall_mem_singleton.mpr holds, List.cons_ne_nil _ _, fun given same => ?_⟩, all.next⟩
      rcases given with separator | other
      · exact noSeparator separator
      · exact other (List.cons.inj same).1
    · split at found <;> contradiction

/-- Reading arguments. -/
theorem readArgument_succ (reads : ReadsOnly Given Holds fuel) (solid : ¬Holds omitted) {c c' : TokenCursor}
    {list : List Expr} (all : c.All Given) (found : readArgument (fuel + 1) c = .ok (list, c')) :
    ((∀ e ∈ list, e = omitted ∨ Holds e) ∧ list ≠ [] ∧
      (c.atToken .function .closing = false → list ≠ [omitted])) ∧ c'.All Given := by
  unfold readArgument at found
  dsimp only at found
  split at found
  · rename_i left
    obtain ⟨⟨listed, some', several⟩, behind⟩ := reads.behindArgument all (.inl rfl) found
    refine ⟨⟨listed, some', fun more => several (.inl ?_)⟩, behind⟩
    rwa [more, Bool.or_false] at left
  · obtain ⟨⟨argument, next⟩, inner, last⟩ := exists_of_bind_eq_ok found
    obtain ⟨holds, after⟩ := reads.expr all inner
    have read : argument ≠ omitted := fun same => solid (same ▸ holds)
    obtain ⟨⟨listed, some', several⟩, behind⟩ := reads.behindArgument after (.inr holds) last
    exact ⟨⟨listed, some', fun _ => several (.inr read)⟩, behind⟩

/-- Reading the entries of an array: what it is made of when it ends has rows of one length. -/
theorem readRows_succ (reads : ReadsOnly Given Holds fuel) (law : ReaderLaw Given Holds)
    {rows : List (List Expr)} {row : List Expr} {c c' : TokenCursor} {e : Expr} (all : c.All Given)
    (finished : ∀ r ∈ rows, ∀ e ∈ r, Holds e) (current : ∀ e ∈ row, Holds e)
    (found : readRows (fuel + 1) rows row c = .ok (e, c')) : Holds e ∧ c'.All Given := by
  unfold readRows at found
  obtain ⟨⟨entry, next⟩, inner, rest⟩ := exists_of_bind_eq_ok found
  obtain ⟨holds, behind⟩ := reads.expr all inner
  have extended : ∀ e ∈ entry :: row, Holds e := List.forall_mem_cons.mpr ⟨holds, current⟩
  have every : ∀ r ∈ (entry :: row).reverse :: rows, ∀ e ∈ r, Holds e :=
    List.forall_mem_cons.mpr ⟨fun e listed => extended e (List.mem_reverse.mp listed), finished⟩
  dsimp only at rest
  split at rest
  · exact reads.rows behind.next finished extended rest
  · split at rest
    · exact reads.rows behind.next every (fun _ none => by contradiction) rest
    · split at rest
      · split at rest
        · rename_i even
          obtain ⟨rfl, rfl⟩ := Prod.mk.inj (Except.ok.inj rest)
          simp only [List.all_eq_true, beq_iff_eq] at even
          have last := even _ (List.mem_reverse.mpr List.mem_cons_self)
          rw [List.length_reverse, List.length_cons] at last
          exact ⟨law.array _ _ (by omega) even fun r listed => every r (List.mem_reverse.mp listed),
            behind.next⟩
        · contradiction
      · split at rest <;> contradiction

/-- More fuel reads nothing else. -/
theorem succ (reads : ReadsOnly Given Holds fuel) (law : ReaderLaw Given Holds) (solid : ¬Holds omitted) :
    ReadsOnly Given Holds (fuel + 1) where
  expr all found := by
    unfold readExpr at found
    obtain ⟨⟨left, next⟩, inner, rest⟩ := exists_of_bind_eq_ok found
    obtain ⟨holds, behind⟩ := reads.unary all inner
    exact reads.infix' behind holds rest
  infix' := reads.readInfix_succ law
  unary := reads.readUnary_succ law
  primary := reads.readPrimary_succ law
  arguments all found := by
    unfold readArguments at found
    split at found
    · obtain ⟨rfl, rfl⟩ := Prod.mk.inj (Except.ok.inj found)
      exact ⟨⟨fun _ none => by contradiction, nofun⟩, all.next⟩
    · rename_i more
      obtain ⟨⟨listed, _, several⟩, behind⟩ := reads.argument all found
      exact ⟨⟨listed, several (Bool.eq_false_iff.mpr more)⟩, behind⟩
  argument := reads.readArgument_succ solid
  rows := reads.readRows_succ law

end ReadsOnly

/-- A law of the reader that does not hold of what is left out holds of everything that is read from
tokens. -/
theorem ReaderLaw.readsOnly (law : ReaderLaw Given Holds) (solid : ¬Holds omitted) (fuel : Nat) :
    ReadsOnly Given Holds fuel := by
  induction fuel with
  | zero => exact .zero
  | succ fuel reads => exact reads.succ law solid

/-- No operand is left out. -/
theorem ne_omitted_of_ofOperand {t : Token} {e : Expr} (found : ofOperand t = .ok e) : e ≠ omitted := by
  rintro rfl
  unfold ofOperand at found
  split at found
  · split at found <;> cases found
  · cases found
  · cases found
  · cases found
  · split at found
    · cases found
    · split at found <;> cases found
  · cases found

/-- What a law of the reader holds of, nothing left out, is one as well. -/
theorem ReaderLaw.solid (law : ReaderLaw Given Holds) :
    ReaderLaw Given fun e => Holds e ∧ e ≠ omitted where
  text content span := ⟨law.text content span, nofun⟩
  operand t e given kind found := ⟨law.operand t e given kind found, ne_omitted_of_ofOperand found⟩
  sign t operand given kind inner := ⟨law.sign t operand given kind inner.1, nofun⟩
  percent t operand given kind inner := ⟨law.percent t operand given kind inner.1, nofun⟩
  binary t left right given kind first second :=
    ⟨law.binary t left right given kind first.1 second.1, nofun⟩
  call t arguments given kind role listed several :=
    ⟨law.call t arguments given kind role (fun e member => (listed e member).imp_right And.left) several,
      nofun⟩
  array rows width wide even entries :=
    ⟨law.array rows width wide even fun row within e member => (entries row within e member).1, nofun⟩

/-- A law of the reader holds of the tree of every text, if what is asked of its tokens is given. -/
theorem ReaderLaw.ofText (law : ReaderLaw Given Holds) {text : List Char} {e : Expr}
    (given : ∀ tokens, Token.ofText text = .ok tokens → ∀ t ∈ tokens, Given t)
    (found : Expr.ofText text = .ok e) : Holds e := by
  unfold Expr.ofText at found
  split at found
  · contradiction
  · rename_i tokens cut
    have all : ∀ t ∈ significant tokens, Given t := fun t listed =>
      given tokens cut t (List.mem_filter.mp listed).1
    generalize significant tokens = list at all found
    unfold ofTokens at found
    cases list with
    | nil => contradiction
    | cons t rest =>
      dsimp only at found
      split at found
      · obtain rfl := Except.ok.inj found
        exact law.text _ _
      · obtain ⟨⟨tree, next⟩, inner, last⟩ := exists_of_bind_eq_ok found
        dsimp only at last
        split at last
        · obtain rfl := Except.ok.inj last
          have start : TokenCursor.All Given ⟨t :: rest, 0⟩ := all
          exact ((law.solid.readsOnly (fun left => left.2 rfl) _).expr start inner).1.1
        · contradiction

end Expr

end Spreadsheet
