import Spreadsheet.Proofs.Formula.Scanning

/-!
# What gathers in a pending operand

What is pending has gathered piece by piece: a character without a meaning of its own, the sign of an
exponent, a name in quotes, or a part in square brackets. The same pieces gather again wherever the text
is read with nothing pending, and whatever stands behind it.
-/
namespace Spreadsheet

namespace Lexer

variable {s : Lexer} {text rest : List Char} {c : Char}

/-! ### Quoted and bracketed parts -/

/-- A part in quotes is a content whose quotes are written twice and the quote that closes it. -/
theorem exists_closed_of_quotedLength? {quote : Char} {n : Nat}
    (found : quotedLength? quote text = some n) :
    ∃ content rest, text = closed quote content ++ rest ∧ n = (closed quote content).length := by
  induction text using quotedLength?.induct quote generalizing n with
  | case1 => contradiction
  | case2 =>
    rw [quotedLength?, if_pos rfl] at found
    exact ⟨[], [], rfl, (Option.some.inj found).symm⟩
  | case3 c other =>
    rw [quotedLength?, if_neg other] at found
    contradiction
  | case4 rest ih =>
    rw [quotedLength?, if_pos rfl, if_pos rfl] at found
    obtain ⟨m, inner, rfl⟩ := Option.map_eq_some_iff.mp found
    obtain ⟨content, behind, written, length⟩ := ih inner
    refine ⟨quote :: content, behind, ?_, ?_⟩
    · rw [written]
      simp [closed, doubleQuotes]
    · simp [closed, doubleQuotes, length]
  | case5 d rest other =>
    rw [quotedLength?, if_pos rfl, if_neg other] at found
    exact ⟨[], d :: rest, rfl, (Option.some.inj found).symm⟩
  | case6 c d rest other ih =>
    rw [quotedLength?, if_neg other] at found
    obtain ⟨m, inner, rfl⟩ := Option.map_eq_some_iff.mp found
    obtain ⟨content, behind, written, length⟩ := ih inner
    refine ⟨c :: content, behind, ?_, ?_⟩
    · rw [written]
      simp [closed, doubleQuotes, other]
    · simp [closed, doubleQuotes, other, length]

/-- A text closes the square brackets that are open before it, whatever stands behind it. -/
def ClosesSquare (depth : Nat) (inner : List Char) : Prop :=
  ∀ rest, squareLength? depth (inner ++ rest) = some inner.length

/-- A part in square brackets closes them. -/
theorem exists_of_squareLength? {depth n : Nat} (found : squareLength? depth text = some n) :
    ∃ inner rest, text = inner ++ rest ∧ n = inner.length ∧ ClosesSquare depth inner := by
  induction depth, text using squareLength?.induct generalizing n with
  | case1 depth => contradiction
  | case2 depth rest last =>
    rw [squareLength?, if_pos rfl, if_pos last] at found
    refine ⟨[']'], rest, rfl, (Option.some.inj found).symm, fun rest => ?_⟩
    rw [List.singleton_append, squareLength?, if_pos rfl, if_pos last]
    rfl
  | case3 depth rest more ih =>
    rw [squareLength?, if_pos rfl, if_neg more] at found
    obtain ⟨m, within, rfl⟩ := Option.map_eq_some_iff.mp found
    obtain ⟨inner, behind, written, length, closes⟩ := ih within
    refine ⟨']' :: inner, behind, by rw [written]; rfl, by rw [length]; rfl, fun rest => ?_⟩
    rw [List.cons_append, squareLength?, if_pos rfl, if_neg more, closes rest]
    rfl
  | case4 depth c rest other ih =>
    rw [squareLength?, if_neg other] at found
    obtain ⟨m, within, rfl⟩ := Option.map_eq_some_iff.mp found
    obtain ⟨inner, behind, written, length, closes⟩ := ih within
    refine ⟨c :: inner, behind, by rw [written]; rfl, by rw [length]; rfl, fun rest => ?_⟩
    rw [List.cons_append, squareLength?, if_neg other, closes rest]
    rfl

/-! ### Pieces -/

/-- An exponent is awaited behind a pending text. -/
def AwaitsExponent (text : List Char) : Prop := (Lexer.mk text.reverse 0 [] []).awaitsExponent = true

/-- A text that gathers in a pending operand, its last piece last. A quoted name comes first, behind a
dollar sign, or behind a colon. -/
inductive Gathers : List Char → Prop where
  | nothing : Gathers []
  | ordinary {text : List Char} {c : Char} (before : Gathers text) (plain : isOrdinary c = true) :
    Gathers (text ++ [c])
  | exponent {text : List Char} {c : Char} (before : Gathers text) (awaits : AwaitsExponent text)
    (sign : c = '+' ∨ c = '-') : Gathers (text ++ [c])
  | quoted {text : List Char} (content : List Char) (before : Gathers text)
    (place : text = [] ∨ text = ['$'] ∨ text.getLast? = some ':') :
    Gathers (text ++ '\'' :: closed '\'' content)
  | square {text inner : List Char} (before : Gathers text) (closes : ClosesSquare 1 inner) :
    Gathers (text ++ '[' :: inner)

/-- Ordinary characters gather behind what has gathered. -/
theorem Gathers.append (before : Gathers text) {word : List Char} (all : ∀ c ∈ word, isOrdinary c = true) :
    Gathers (text ++ word) := by
  induction word generalizing text with
  | nil => rwa [List.append_nil]
  | cons c word ih =>
    obtain ⟨first, others⟩ := List.forall_mem_cons.mp all
    have longer := ih (before.ordinary first) others
    rwa [List.append_assoc] at longer

/-- What gathers starts neither with what ends an operand nor as an error code does. -/
theorem Gathers.head?_ne (gathers : Gathers text) : ∀ c ∈ text.head?, endsOperand c = false ∧ c ≠ '#' := by
  have longer : ∀ {text other : List Char}, (∀ c ∈ text.head?, endsOperand c = false ∧ c ≠ '#') →
      (text = [] → ∀ c ∈ other.head?, endsOperand c = false ∧ c ≠ '#') →
        ∀ c ∈ (text ++ other).head?, endsOperand c = false ∧ c ≠ '#' := by
    intro text other front alone
    cases text with
    | nil => exact alone rfl
    | cons d text => exact front
  induction gathers with
  | nothing => exact fun c none => by contradiction
  | ordinary _ plain ih =>
    refine longer ih fun _ d first => ?_
    obtain rfl := Option.some.inj first
    exact ⟨by simpa using (Bool.and_eq_true_iff.mp plain).1, ne_of_isOrdinary plain (by decide)⟩
  | exponent _ awaits _ ih =>
    refine longer ih fun none => ?_
    rw [none] at awaits
    contradiction
  | quoted content _ _ ih =>
    refine longer ih fun _ d first => ?_
    rw [← Option.some.inj first]
    decide
  | square _ _ ih =>
    refine longer ih fun _ d first => ?_
    rw [← Option.some.inj first]
    decide

/-- The sign of an exponent joins what is pending. -/
theorem cut_exponent (awaits : s.awaitsExponent = true) (sign : c = '+' ∨ c = '-') :
    s.cut (c :: rest) = (s.extend [c]).cut rest := by
  have read : s.step c rest = .ok (s.extend [c], 0) := by
    unfold step
    rcases sign with rfl | rfl <;> simp [awaits]
  exact cut_cons read

/-- A part in square brackets joins what is pending. -/
theorem cut_square {inner : List Char} (closes : ClosesSquare 1 inner) :
    s.cut ('[' :: inner ++ rest) = (s.extend ('[' :: inner)).cut rest := by
  have read : s.step '[' (inner ++ rest) = .ok (s.extend ('[' :: inner), inner.length) := by
    show s.readSquare _ = _
    unfold readSquare
    rw [closes rest]
    simp only [List.take_left]
  rw [List.cons_append, cut_cons read, List.drop_left]

/-- What is added in two parts is added at once. -/
theorem extend_extend (s : Lexer) (text other : List Char) :
    (s.extend text).extend other = s.extend (text ++ other) := by
  simp [extend]

/-- What gathers once gathers again where nothing is pending. Behind the closing quote of a name another
quote would not close it. -/
theorem Gathers.cut (gathers : Gathers text) (idle : s.pending = [])
    (apart : text.getLast? = some '\'' → rest.head? ≠ some '\'') :
    s.cut (text ++ rest) = (s.extend text).cut rest := by
  have shown : ∀ text, (s.extend text).pending = text.reverse := fun text => by
    rw [extend, idle]
    exact List.append_nil _
  induction gathers generalizing rest with
  | nothing => rfl
  | @ordinary text c _ plain ih =>
    have other : c ≠ '\'' := ne_of_isOrdinary plain (by decide)
    rw [List.append_assoc, List.singleton_append, ih fun _ => by simpa using other, cut_ordinary plain,
      extend_extend]
  | @exponent text c _ awaits sign ih =>
    have other : c ≠ '\'' := by rcases sign with rfl | rfl <;> decide
    have awaits' : (s.extend text).awaitsExponent = true := by
      unfold awaitsExponent
      rw [shown]
      exact awaits
    rw [List.append_assoc, List.singleton_append, ih fun _ => by simpa using other,
      cut_exponent awaits' sign, extend_extend]
  | @quoted text content _ place ih =>
    have front : text.getLast? ≠ some '\'' := by
      rcases place with rfl | rfl | colon
      · decide
      · decide
      · rw [colon]
        decide
    have place' : (s.extend text).pending = [] ∨ (s.extend text).pending = ['$'] ∨
        (s.extend text).pending.head? = some ':' := by
      rw [shown, List.head?_reverse, List.reverse_eq_nil_iff]
      refine place.imp_right (Or.imp_left fun dollar => ?_)
      rw [dollar]
      rfl
    have last : (text ++ '\'' :: closed '\'' content).getLast? = some '\'' := by
      rw [List.getLast?_append, closed, ← List.cons_append, List.getLast?_concat]
      rfl
    have behind : ∀ c ∈ rest.head?, c ≠ '\'' := by
      rintro c first rfl
      exact apart last first
    rw [List.append_assoc, ih fun quote => absurd quote front, cut_joinedName place' content behind,
      extend_extend]
  | @square text inner _ closes ih =>
    rw [List.append_assoc, ih fun _ => by simp, cut_square closes, extend_extend]

/-- A name that gathers and a parenthesis open a function. -/
theorem cut_function (idle : s.pending = []) {name : List Char} (some' : name ≠ [])
    (gathers : Gathers name) :
    s.cut (name ++ '(' :: rest) = ((s.push (.opening .function (name ++ ['(']))).withOpened
      (.function :: s.opened)).cut rest := by
  rw [gathers.cut idle fun _ => by simp]
  obtain ⟨pending, start, tokens, opened⟩ := s
  obtain rfl : pending = [] := idle
  have read : (extend ⟨[], start, tokens, opened⟩ name).step '(' rest =
      .ok ((extend ⟨[], start, tokens, opened⟩ name).readOpening '(', 0) := rfl
  have shape : (extend ⟨[], start, tokens, opened⟩ name).readOpening '(' =
      (push ⟨[], start, tokens, opened⟩ (.opening .function (name ++ ['(']))).withOpened
        (.function :: opened) := by
    have filled : name.reverse.isEmpty = false := by simpa using some'
    unfold readOpening extend
    simp only [List.append_nil, filled, Bool.false_eq_true, if_false, List.reverse_reverse]
    rfl
  rw [cut_cons read, shape]
  rfl

end Lexer

end Spreadsheet
