import Mathlib.Data.List.Chain
import Spreadsheet.Proofs.Formula.Lexemes

/-!
# Tokens of written formulas

The formula of a tree is cut into the tokens of the tree. No two operands stand side by side and
nothing is blank, so nothing is joined and nothing is dropped before the tokens are read.
-/
namespace Spreadsheet

/-- No two operands stand side by side, and nothing is blank. -/
structure Separate (list : List Lexeme) : Prop where
  solid : ∀ l ∈ list, l.kind ≠ .blank
  apart : List.IsChain (fun l l' : Lexeme => l.kind ≠ .operand ∨ l'.kind ≠ .operand) list

namespace Separate

variable {list others : List Lexeme} {l : Lexeme}

/-- No tokens are separate. -/
theorem nil : Separate [] := ⟨fun _ none => absurd none List.not_mem_nil, .nil⟩

/-- One token is separate. -/
theorem operand (text : List Char) : Separate [.operand text] :=
  ⟨List.forall_mem_singleton.mpr nofun, .singleton _⟩

/-- Tokens around one that is no operand are separate. -/
theorem join (left : Separate list) (right : Separate others) (solid : l.kind ≠ .blank)
    (between : l.kind ≠ .operand) : Separate (list ++ l :: others) := by
  refine ⟨List.forall_mem_append.mpr ⟨left.solid, List.forall_mem_cons.mpr ⟨solid, right.solid⟩⟩, ?_⟩
  refine List.isChain_append.mpr ⟨left.apart, ?_, fun a _ b first => ?_⟩
  · exact List.isChain_cons.mpr ⟨fun _ _ => .inl between, right.apart⟩
  · obtain rfl := Option.some.inj first
    exact .inr between

/-- Tokens between brackets are separate. -/
theorem enclosed (inner : Separate list) {opening closing : Lexeme} (first : opening.kind ≠ .blank)
    (first' : opening.kind ≠ .operand) (last : closing.kind ≠ .blank) (last' : closing.kind ≠ .operand) :
    Separate (opening :: list ++ [closing]) :=
  nil.join (inner.join nil last last') first first'

end Separate

namespace Expr

/-- Parentheses keep tokens separate. -/
theorem separate_bracketed {e : Expr} {list : List Lexeme} (inner : Separate list) (least : Nat) :
    Separate (e.bracketed least list) := by
  unfold bracketed
  split
  · exact inner.enclosed nofun nofun nofun nofun
  · exact inner

/-- Commas keep the tokens of trees separate. -/
theorem separate_listLexemes {list : List Expr} (all : ∀ e ∈ list, Separate e.lexemes) :
    Separate (listLexemes list) := by
  induction list with
  | nil => exact .nil
  | cons e rest ih =>
    obtain ⟨first, others⟩ := List.forall_mem_cons.mp all
    cases rest with
    | nil => exact first
    | cons e' rest => exact first.join (ih others) nofun nofun

/-- Semicolons keep the tokens of rows separate. -/
theorem separate_rowLexemes {rows : List (List Expr)}
    (all : ∀ row ∈ rows, Separate (listLexemes row)) : Separate (rowLexemes rows) := by
  induction rows with
  | nil => exact .nil
  | cons row rest ih =>
    obtain ⟨first, others⟩ := List.forall_mem_cons.mp all
    cases rest with
    | nil => exact first
    | cons row' rest => exact first.join (ih others) nofun nofun

/-- The tokens of a tree are separate. -/
theorem separate_lexemes (e : Expr) : Separate e.lexemes := by
  induction e with
  | literal value span =>
    cases value with
    | empty => exact .nil
    | _ => exact .operand _
  | reference target spelling span => exact .operand _
  | unary operator operand span ih =>
    cases operator with
    | percent => exact (separate_bracketed ih 6).join .nil nofun nofun
    | _ => exact Separate.nil.join (separate_bracketed ih 7) nofun nofun
  | binary operator left right span first second =>
    exact (separate_bracketed first _).join (separate_bracketed second _) nofun nofun
  | call name arguments span ih =>
    exact (separate_listLexemes ih).enclosed nofun nofun nofun nofun
  | array rows span ih =>
    exact (separate_rowLexemes fun row listed => separate_listLexemes (ih row listed)).enclosed
      nofun nofun nofun nofun

end Expr

namespace Token

variable {tokens : List Token}

/-- Operands apart are not joined. -/
theorem joinRanges_of_separate (separate : Separate (tokens.map lexeme)) :
    joinRanges tokens = tokens := by
  obtain ⟨solid, apart⟩ := separate
  have both : joinRanges tokens = tokens ∧ ∀ t : Token, (∀ t' ∈ tokens.head?,
      t.kind ≠ .operand ∨ t'.kind ≠ .operand) → t.kind = .operand → joinAfter t [] tokens = t :: tokens := by
    induction tokens with
    | nil => exact ⟨rfl, fun t _ _ => rfl⟩
    | cons t rest ih =>
      obtain ⟨visible, others⟩ := List.forall_mem_cons.mp solid
      obtain ⟨next, chain⟩ := List.isChain_cons.mp apart
      obtain ⟨alone, after⟩ := ih others chain
      have joined : (if t.isRange then joinAfter t [] rest else t :: joinRanges rest) = t :: rest := by
        split
        · rename_i range
          refine after t (fun t' first => ?_) (by simpa using (Bool.and_eq_true_iff.mp range).1)
          refine next t'.lexeme ?_
          rw [Option.mem_def, List.head?_map, Option.mem_def.mp first]
          rfl
        · rw [alone]
      refine ⟨joined, fun current distinct operand => ?_⟩
      have other : t.kind ≠ .operand := (distinct t rfl).resolve_left (not_not.mpr operand)
      have away : current.meet t = false := by
        unfold meet isRange
        simp [other]
      unfold joinAfter
      rw [if_neg (show t.kind ≠ .blank from visible), away, if_neg Bool.false_ne_true, joined]
      rfl
  exact both.1

end Token

namespace Lexer

/-- The tokens that are added come behind those before. -/
theorem map_lexeme_tokens_pushAll (s : Lexer) (list : List Lexeme) :
    (s.pushAll list).tokens.reverse.map Token.lexeme = s.tokens.reverse.map Token.lexeme ++ list := by
  induction list generalizing s with
  | nil => exact (List.append_nil _).symm
  | cons l rest ih =>
    rw [pushAll_cons, ih]
    show ((Token.place l.kind l.role l.text s.offset :: s.tokens).reverse.map Token.lexeme) ++ rest = _
    rw [List.reverse_cons, List.map_append, List.append_assoc]
    rfl

end Lexer

namespace Expr

/-- A formula that says what its tree is is cut into the tokens of the tree. -/
theorem Legible.tokens_render {e : Expr} (legible : e.Legible) :
    ∃ tokens, Token.ofText e.render.toList = .ok tokens ∧ tokens.map Token.lexeme = e.lexemes ∧
      significant tokens = tokens := by
  have cut := legible.cuts.cut ⟨[], 1, [], []⟩ [] rfl rfl fun c none => by contradiction
  have idle : (Lexer.pushAll ⟨[], 1, [], []⟩ e.lexemes).pending = [] := Lexer.pending_pushAll rfl _
  have complete : (Lexer.pushAll ⟨[], 1, [], []⟩ e.lexemes).opened = [] := Lexer.opened_pushAll _ _
  rw [List.append_nil, Lexer.cut_nil, Lexer.finish, Lexer.save_of_idle idle] at cut
  simp only [complete, List.isEmpty_nil, if_true] at cut
  have same := Lexer.map_lexeme_tokens_pushAll ⟨[], 1, [], []⟩ e.lexemes
  generalize (Lexer.pushAll ⟨[], 1, [], []⟩ e.lexemes).tokens.reverse = tokens at *
  rw [show (Lexer.tokens ⟨[], 1, [], []⟩).reverse.map Token.lexeme ++ e.lexemes = e.lexemes from rfl] at same
  have separate : Separate (tokens.map Token.lexeme) := same ▸ e.separate_lexemes
  refine ⟨tokens, ?_, same, List.filter_eq_self.mpr fun t listed => ?_⟩
  · obtain ⟨s, ran, finished⟩ := exists_of_bind_eq_ok cut
    rw [render, String.toList_ofList]
    show (Lexer.run ⟨[], 1, [], []⟩ e.chars >>= fun s => s.finish >>= fun tokens =>
      pure (Token.joinRanges tokens)) = _
    rw [ran]
    show (s.finish >>= fun tokens => pure (Token.joinRanges tokens)) = _
    rw [finished]
    exact congrArg Except.ok (Token.joinRanges_of_separate separate)
  · have visible := separate.solid t.lexeme (List.mem_map_of_mem listed)
    exact bne_iff_ne.mpr visible

end Expr

end Spreadsheet
