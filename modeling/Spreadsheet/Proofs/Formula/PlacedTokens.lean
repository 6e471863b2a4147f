import Mathlib.Data.List.Chain
import Spreadsheet.Proofs.Formula.LawfulTokens

/-!
# Where tokens stand

The tokens of a formula are pieces of its text, one behind the other. Nothing is left out between them,
except where a text in quotes stands right behind a colon: what was pending up to the colon becomes no
token. Each character that is read keeps the tokens in their places.
-/
namespace Spreadsheet

/-- Only the empty text has no bytes. -/
theorem byteSize_eq_zero {text : List Char} : byteSize text = 0 ↔ text = [] := by
  cases text with
  | nil => exact ⟨fun _ => rfl, fun _ => rfl⟩
  | cons c rest =>
    have positive := c.utf8Size_pos
    rw [byteSize_cons]
    exact ⟨fun none => by omega, nofun⟩

/-- Two beginnings of one text with as many bytes are the same. -/
theorem eq_of_append_eq_append {text other rest rest' : List Char} (same : text ++ rest = other ++ rest')
    (size : byteSize text = byteSize other) : text = other := by
  rcases List.append_eq_append_iff.mp same with ⟨more, rfl, _⟩ | ⟨more, rfl, _⟩
  · rw [byteSize_append] at size
    rw [byteSize_eq_zero.mp (by omega : byteSize more = 0), List.append_nil]
  · rw [byteSize_append] at size
    rw [byteSize_eq_zero.mp (by omega : byteSize more = 0), List.append_nil]

namespace Token

variable {t : Token} {tokens others : List Token} {before dropped rest rest' : List Char}

/-! ### Places -/

/-- The token is the piece of the text at its bytes. -/
def StandsIn (t : Token) (text : List Char) : Prop :=
  ∃ before behind, text = before ++ t.text ++ behind ∧ t.start = byteSize before ∧
    t.stop = byteSize (before ++ t.text)

/-- The token is a text in quotes. -/
def IsText (t : Token) : Prop := t.kind = .operand ∧ t.role = .text

/-- The token is a text in quotes, and a colon stands right before it. -/
def QuotesBehindColon (t : Token) (text : List Char) : Prop :=
  t.IsText ∧ ∃ before behind, text = before ++ [':'] ++ t.text ++ behind ∧
    t.start = byteSize (before ++ [':'])

/-- Behind a byte a token comes at once, unless it is a text in quotes behind a colon, which comes later. -/
def ComesAfter (text : List Char) (stop : Nat) (t : Token) : Prop :=
  stop = t.start ∧ ¬t.QuotesBehindColon text ∨ stop < t.start ∧ t.QuotesBehindColon text

/-- Why a text may be left out in front of a token: it is empty, and then no colon stands before a text in
quotes, or it ends with a colon that does. -/
def MayFollow (before dropped : List Char) (t : Token) : Prop :=
  dropped = [] ∧ (t.IsText → before.getLast? ≠ some ':') ∨ dropped.getLast? = some ':' ∧ t.IsText

/-- Tokens that follow each other in the text behind another one, with what is left out in front of
each. -/
inductive Laid : List Char → List Char → List Token → Prop where
  | done (before : List Char) : Laid before [] []
  | next {before dropped rest : List Char} {t : Token} {tokens : List Token} (formula : t.kind ≠ .literal)
    (start : t.start = byteSize (before ++ dropped)) (stop : t.stop = byteSize (before ++ dropped ++ t.text))
    (follows : MayFollow before dropped t) (after : Laid (before ++ dropped ++ t.text) rest tokens) :
    Laid before (dropped ++ t.text ++ rest) (t :: tokens)

/-- Something is left out in front of a token exactly if it is a text in quotes behind a colon. -/
theorem MayFollow.comesAfter (follows : MayFollow before dropped t)
    (start : t.start = byteSize (before ++ dropped)) :
    ComesAfter (before ++ (dropped ++ t.text ++ rest)) (byteSize before) t ∧
      (dropped = [] ↔ ¬t.QuotesBehindColon (before ++ (dropped ++ t.text ++ rest))) := by
  rcases follows with ⟨rfl, apart⟩ | ⟨colon, quotes⟩
  · have other : ¬t.QuotesBehindColon (before ++ ([] ++ t.text ++ rest)) := by
      rintro ⟨quotes, front, behind, written, place⟩
      rw [List.append_nil] at start
      have same : before ++ (t.text ++ rest) = front ++ [':'] ++ (t.text ++ behind) := by simpa using written
      refine apart quotes ?_
      rw [eq_of_append_eq_append same (start.symm.trans place), List.getLast?_concat]
    rw [List.append_nil] at start
    exact ⟨.inl ⟨start.symm, other⟩, fun _ => other, fun _ => rfl⟩
  · obtain ⟨front, rfl⟩ := List.getLast?_eq_some_iff.mp colon
    have behind : t.QuotesBehindColon (before ++ (front ++ [':'] ++ t.text ++ rest)) :=
      ⟨quotes, before ++ front, rest, by simp, by rw [start, List.append_assoc]⟩
    have size : byteSize [':'] = 1 := rfl
    refine ⟨.inr ⟨?_, behind⟩, fun none => absurd none (by simp), fun other => absurd behind other⟩
    rw [start, byteSize_append, byteSize_append]
    omega

namespace Laid

/-- Tokens that follow each other are spread over the whole text. -/
theorem spread (laid : Laid before rest tokens) :
    (∀ t ∈ tokens, t.StandsIn (before ++ rest)) ∧
      (∀ t ∈ tokens.head?, ComesAfter (before ++ rest) (byteSize before) t) ∧
        (tokens.IsChain fun t => ComesAfter (before ++ rest) t.stop) ∧
          (∀ t ∈ tokens.getLast?, t.stop = byteSize (before ++ rest)) ∧ (tokens = [] → rest = []) := by
  induction laid with
  | done before =>
    exact ⟨fun _ none => absurd none List.not_mem_nil, nofun, .nil, nofun, fun _ => rfl⟩
  | @next before dropped rest t tokens _ start stop follows after ih =>
    have whole : before ++ dropped ++ t.text ++ rest = before ++ (dropped ++ t.text ++ rest) := by simp
    rw [whole] at ih
    obtain ⟨pieces, head, ordered, last, complete⟩ := ih
    have own : t.StandsIn (before ++ (dropped ++ t.text ++ rest)) :=
      ⟨before ++ dropped, rest, by simp, start, stop⟩
    refine ⟨List.forall_mem_cons.mpr ⟨own, pieces⟩, ?_, ?_, ?_, nofun⟩
    · rintro _ ⟨⟩
      exact (follows.comesAfter start).1
    · exact List.isChain_cons.mpr ⟨stop ▸ head, ordered⟩
    · cases tokens with
      | nil =>
        rintro _ ⟨⟩
        rw [complete rfl, List.append_nil, ← List.append_assoc]
        exact stop
      | cons t' tokens => exact last

/-- The texts of tokens that follow each other are the whole text exactly if nothing is left out. -/
theorem flatMap_text_iff (laid : Laid before rest tokens) :
    byteSize (tokens.flatMap Token.text) ≤ byteSize rest ∧
      (tokens.flatMap Token.text = rest ↔ ∀ t ∈ tokens, ¬t.QuotesBehindColon (before ++ rest)) := by
  induction laid with
  | done before =>
    exact ⟨Nat.le_refl 0, fun _ _ none => absurd none List.not_mem_nil, fun _ => rfl⟩
  | @next before dropped rest t tokens _ start _ follows _ ih =>
    obtain ⟨size, whole⟩ := ih
    have behind : dropped = [] ↔ ¬t.QuotesBehindColon (before ++ (dropped ++ t.text ++ rest)) :=
      (follows.comesAfter start).2
    have same : before ++ dropped ++ t.text ++ rest = before ++ (dropped ++ t.text ++ rest) := by simp
    rw [same] at whole
    refine ⟨?_, ?_⟩
    · rw [List.flatMap_cons, byteSize_append, byteSize_append, byteSize_append]
      omega
    · rw [List.forall_mem_cons, ← behind, ← whole, List.flatMap_cons]
      constructor
      · intro complete
        have sizes := congrArg byteSize complete
        simp only [byteSize_append] at sizes
        obtain rfl := byteSize_eq_zero.mp (by omega : byteSize dropped = 0)
        exact ⟨rfl, List.append_cancel_left complete⟩
      · rintro ⟨rfl, complete⟩
        rw [complete]
        rfl

/-- Tokens that follow others are laid behind them. -/
theorem append (laid : Laid before rest tokens) (behind : Laid (before ++ rest) rest' others) :
    Laid before (rest ++ rest') (tokens ++ others) := by
  induction laid with
  | done before => rwa [List.append_nil] at behind
  | @next before dropped rest t tokens formula start stop follows _ ih =>
    rw [List.append_assoc _ rest rest']
    refine .next formula start stop follows (ih ?_)
    simpa using behind

/-- Of tokens that follow each other the later ones follow the earlier ones. -/
theorem exists_of_append (laid : Laid before rest (tokens ++ others)) :
    ∃ front behind, rest = front ++ behind ∧ Laid before front tokens ∧
      Laid (before ++ front) behind others := by
  induction tokens generalizing before rest with
  | nil => exact ⟨[], rest, rfl, .done before, by rwa [List.append_nil]⟩
  | cons t tokens ih =>
    cases laid with
    | next formula start stop follows after =>
      obtain ⟨front, behind, rfl, earlier, later⟩ := ih after
      exact ⟨_, behind, (List.append_assoc _ _ _).symm, .next formula start stop follows earlier,
        by simpa using later⟩

/-- One more token is laid behind others. -/
theorem concat (laid : Laid before rest tokens) (formula : t.kind ≠ .literal)
    (start : t.start = byteSize (before ++ rest ++ dropped))
    (stop : t.stop = byteSize (before ++ rest ++ dropped ++ t.text))
    (follows : MayFollow (before ++ rest) dropped t) :
    Laid before (rest ++ (dropped ++ t.text)) (tokens ++ [t]) := by
  have single := Laid.next formula start stop follows (.done _)
  rw [List.append_nil] at single
  exact laid.append single

end Laid

end Token

namespace Lexer

variable {s s' : Lexer} {front dropped read rest text : List Char} {kind : TokenKind} {role : TokenRole}
  {c : Char} {n : Nat}

/-! ### Reading -/

/-- The tokens so far are laid over the beginning of a formula, and what is pending starts behind it. -/
structure Placed (s : Lexer) (front : List Char) : Prop where
  laid : Token.Laid ['='] front s.tokens.reverse
  start : s.start = byteSize ('=' :: front)

/-- A text has been read: tokens are laid over its beginning, which does not end with a colon, and the rest
of it is pending. -/
def HasRead (s : Lexer) (read : List Char) : Prop :=
  ∃ front, s.Placed front ∧ front.getLast? ≠ some ':' ∧ front ++ s.pending.reverse = read

/-- The text ends with a character other than a colon. -/
def EndsApart (text : List Char) : Prop := ∃ c ∈ text.getLast?, c ≠ ':'

/-- A text ends as its end does. -/
theorem EndsApart.append (apart : EndsApart text) (front : List Char) :
    (front ++ text).getLast? ≠ some ':' := by
  obtain ⟨c, last, other⟩ := apart
  rw [List.getLast?_append, Option.mem_def.mp last]
  exact fun same => other (Option.some.inj same)

/-- A single character other than a colon is no colon. -/
theorem endsApart_singleton (other : c ≠ ':') : EndsApart [c] := ⟨c, rfl, other⟩

/-- Nothing is pending once it is saved. -/
theorem pending_save (s : Lexer) : s.save.pending = [] := by
  unfold save
  split
  · rename_i idle
    exact List.isEmpty_iff.mp idle
  · rfl

/-- The end of a text that follows the equals sign is told from the text. -/
theorem getLast?_cons_ne (apart : front.getLast? ≠ some ':') : ('=' :: front).getLast? ≠ some ':' := by
  cases front with
  | nil => decide
  | cons c front => rwa [List.getLast?_cons_cons]

/-- A token is laid behind those before, and behind what is dropped. -/
theorem hasRead_emit (laid : Token.Laid ['='] front s.tokens.reverse)
    (offset : s.offset = byteSize ('=' :: (front ++ dropped))) (formula : kind ≠ .literal)
    (follows : Token.MayFollow ('=' :: front) dropped (.place kind role text s.offset))
    (apart : EndsApart text) : (s.emit kind role text).HasRead (front ++ dropped ++ text) := by
  refine ⟨front ++ dropped ++ text, ⟨?_, ?_⟩, apart.append _, List.append_nil _⟩
  · show Token.Laid _ _ (_ :: s.tokens).reverse
    rw [List.reverse_cons, List.append_assoc]
    refine laid.concat formula offset ?_ follows
    show s.offset + byteSize text = _
    rw [offset, ← byteSize_append]
    exact congrArg byteSize (by simp [Token.place])
  · show s.offset + byteSize text = _
    rw [offset, ← byteSize_append, List.cons_append]

/-- A token is laid behind those before, where nothing is pending. -/
theorem Placed.emit (placed : s.Placed front) (idle : s.pending = []) (formula : kind ≠ .literal)
    (follows : role = .text → front.getLast? ≠ some ':') (apart : EndsApart text) :
    (s.emit kind role text).HasRead (front ++ text) := by
  have offset : s.offset = byteSize ('=' :: (front ++ [])) := by
    rw [Lexer.offset, idle, List.append_nil]
    exact placed.start
  have held := hasRead_emit placed.laid offset formula
    (.inl ⟨rfl, fun quotes => getLast?_cons_ne (follows quotes.2)⟩) apart
  rwa [List.append_nil] at held

/-- What is pending ends where reading goes on. -/
theorem Placed.offset (placed : s.Placed front) :
    s.offset = byteSize ('=' :: (front ++ s.pending.reverse)) := by
  rw [Lexer.offset, placed.start, ← byteSize_reverse s.pending, ← byteSize_append, List.cons_append]

/-- What is pending becomes a token behind those before. -/
theorem Placed.save (placed : s.Placed front)
    (follows : Token.operandRole s.pending.reverse = .text → front.getLast? ≠ some ':') :
    s.save.Placed (front ++ s.pending.reverse) := by
  unfold Lexer.save
  split
  · rename_i idle
    rwa [List.isEmpty_iff.mp idle, List.reverse_nil, List.append_nil]
  · refine ⟨?_, placed.offset⟩
    show Token.Laid _ _ (_ :: s.tokens).reverse
    rw [List.reverse_cons]
    have follows' : Token.MayFollow ('=' :: front) [] (.operand s.pending.reverse s.start) :=
      .inl ⟨rfl, fun quotes => getLast?_cons_ne (follows quotes.2)⟩
    refine placed.laid.concat ?_ ?_ ?_ follows'
    · exact nofun
    · rw [List.append_nil]
      exact placed.start
    · show s.start + byteSize s.pending.reverse = _
      rw [placed.start, ← byteSize_append, List.append_nil]
      rfl

/-- A code of an error is not empty and does not end with a colon. -/
theorem endsApart_of_errorCodeLength? (found : errorCodeLength? text = some n) :
    EndsApart (text.take n) ∧ 0 < n := by
  obtain ⟨code, first, rfl⟩ := Option.map_eq_some_iff.mp found
  have typed : (text.take code.length).map Char.toUpper = code := by
    simpa using List.find?_some first
  have known : errorCodes.all (fun code => code.getLast?.any fun c => c != ':') = true := by decide
  have last := List.all_eq_true.mp known code (List.mem_of_find?_eq_some first)
  rw [← typed, List.getLast?_map, Option.any_map] at last
  obtain ⟨c, ends, other⟩ := (Option.any_eq_true _ _).mp last
  refine ⟨⟨c, ends, ?_⟩, Nat.pos_of_ne_zero ?_⟩
  · rintro rfl
    exact absurd other (by decide)
  · intro none
    rw [none] at ends
    contradiction

namespace HasRead

/-- What is pending becomes a token, and the tokens are laid over all that has been read. -/
theorem save (held : s.HasRead read) : s.save.Placed read := by
  obtain ⟨front, placed, apart, rfl⟩ := held
  exact placed.save fun _ => apart

/-- Characters that join what is pending. -/
theorem extend (held : s.HasRead read) (text : List Char) : (s.extend text).HasRead (read ++ text) := by
  obtain ⟨front, placed, apart, rfl⟩ := held
  refine ⟨front, ⟨placed.laid, placed.start⟩, apart, ?_⟩
  rw [Lexer.extend, List.reverse_append, List.reverse_reverse, List.append_assoc]

/-- Other brackets are open. -/
theorem withOpened (held : s.HasRead read) (opened : List TokenKind) :
    (s.withOpened opened).HasRead read := by
  obtain ⟨front, placed, apart, rfl⟩ := held
  exact ⟨front, ⟨placed.laid, placed.start⟩, apart, rfl⟩

/-- An opening bracket is read with the name of a function that is pending. -/
theorem readOpening (held : s.HasRead read) (bracket : c = '\x7b' ∨ c = '(') :
    (s.readOpening c).HasRead (read ++ [c]) := by
  have saved := held.save
  have other : c ≠ ':' := by rcases bracket with rfl | rfl <;> decide
  unfold Lexer.readOpening
  dsimp only
  split
  · have added : (s.save.emit .array .opening [c]).HasRead (read ++ [c]) :=
      saved.emit s.pending_save nofun nofun (endsApart_singleton other)
    exact added.withOpened _
  · split
    · rename_i idle
      have idle' := List.isEmpty_iff.mp idle
      rw [save_of_idle idle'] at saved
      have added : (s.emit .parenthesis .opening [c]).HasRead (read ++ [c]) :=
        saved.emit idle' nofun nofun (endsApart_singleton other)
      exact added.withOpened _
    · obtain ⟨front, placed, _, rfl⟩ := held
      have cleared : Placed { s with pending := [] } front := ⟨placed.laid, placed.start⟩
      have last : EndsApart (s.pending.reverse ++ [c]) := ⟨c, List.getLast?_concat, other⟩
      have added : (emit { s with pending := [] } .function .opening (s.pending.reverse ++ [c])).HasRead
          (front ++ (s.pending.reverse ++ [c])) := cleared.emit rfl nofun nofun last
      rw [List.append_assoc]
      exact added.withOpened _

/-- A part in quotes is read. In front of a text in quotes what is pending is saved, unless it ends with a
colon: then nothing stands for it. -/
theorem readQuoted (held : s.HasRead read) {quote : Char} (quotes : quote = '"' ∨ quote = '\'')
    (found : s.readQuoted quote rest = .ok (s', n)) : s'.HasRead (read ++ quote :: rest.take n) := by
  unfold Lexer.readQuoted at found
  dsimp only at found
  split at found
  · contradiction
  · rename_i length ends
    obtain ⟨content, behind, written, rfl⟩ := exists_closed_of_quotedLength? ends
    have last : EndsApart (quote :: rest.take (closed quote content).length) := by
      rw [written, List.take_left, closed, ← List.cons_append]
      exact ⟨quote, List.getLast?_concat, by rcases quotes with rfl | rfl <;> decide⟩
    -- A colon in front of the quote belongs to what is pending.
    have behind' : s.pending.head? ≠ some ':' → read.getLast? ≠ some ':' := by
      obtain ⟨front, _, apart, rfl⟩ := held
      intro other
      rw [List.getLast?_append, List.getLast?_reverse]
      cases first : s.pending.head? with
      | none => exact apart
      | some d => rwa [first] at other
    split at found
    · rename_i text
      obtain ⟨rfl, rfl⟩ := Prod.mk.inj (Except.ok.inj found)
      have role : Token.operandRole (quote :: rest.take (closed quote content).length) = .text := by
        rw [text]
        rfl
      cases joined : ((quote == '\'' && s.pending == ['$']) || s.pending.head? == some ':') with
      | false =>
        have placed := held.save
        have alone : s.pending.head? ≠ some ':' := fun colon => by simp [colon] at joined
        have cleared : Placed { s.save with pending := [], start := s.save.offset } read := by
          refine ⟨placed.laid, ?_⟩
          show s.save.start + byteSize s.save.pending = _
          rw [placed.start, pending_save]
          rfl
        exact cleared.emit rfl (fun literal => absurd literal (by decide)) (fun _ => behind' alone) last
      | true =>
        obtain ⟨front, placed, _, rfl⟩ := held
        have colon : s.pending.reverse.getLast? = some ':' := by
          rw [text] at joined
          simpa using joined
        exact hasRead_emit placed.laid placed.offset (fun literal => absurd literal (by decide))
          (.inr ⟨colon, rfl, role⟩) last
    · rename_i other
      obtain rfl := quotes.resolve_left other
      obtain ⟨rfl, rfl⟩ := Prod.mk.inj (Except.ok.inj found)
      refine HasRead.extend ?_ _
      split
      · exact held
      · rename_i alone
        refine ⟨read, held.save, behind' fun colon => alone (by simp [colon]), ?_⟩
        rw [pending_save]
        exact List.append_nil _

/-- A part in square brackets is read. -/
theorem readSquare (held : s.HasRead read) (found : s.readSquare rest = .ok (s', n)) :
    s'.HasRead (read ++ '[' :: rest.take n) := by
  unfold Lexer.readSquare at found
  split at found
  · contradiction
  · obtain ⟨rfl, rfl⟩ := Prod.mk.inj (Except.ok.inj found)
    exact held.extend _

/-- A closing bracket is read. -/
theorem readClosing (placed : s.save.Placed read) (lawful : s.Lawful)
    (found : s.readClosing c = .ok s') : s'.HasRead (read ++ [c]) := by
  unfold Lexer.readClosing at found
  dsimp only at found
  split at found
  · contradiction
  · rename_i kind opened open'
    split at found
    · rename_i closes
      obtain rfl := Except.ok.inj found
      obtain ⟨bracket, _⟩ := List.forall_mem_cons.mp (open' ▸ lawful.save.1.opened)
      have formula : kind ≠ .literal := by
        rintro rfl
        exact absurd bracket (by decide)
      have other : c ≠ ':' := by
        rw [closes, closer]
        split <;> decide
      have added : (s.save.emit kind .closing [c]).HasRead (read ++ [c]) :=
        placed.emit s.pending_save formula nofun (endsApart_singleton other)
      exact added.withOpened _
    · contradiction

/-- An error code is read, with the sheet in front of it that is pending. -/
theorem readErrorCode (held : s.HasRead read) (found : s.readErrorCode rest = .ok (s', n)) :
    s'.HasRead (read ++ '#' :: rest.take n) := by
  unfold Lexer.readErrorCode at found
  dsimp only at found
  split at found
  · contradiction
  · rename_i length code
    obtain ⟨apart, some'⟩ := endsApart_of_errorCodeLength? code
    obtain ⟨m, rfl⟩ : ∃ m, length = m + 1 := ⟨length - 1, by omega⟩
    obtain ⟨rfl, rfl⟩ := Prod.mk.inj (Except.ok.inj found)
    -- The token ends the text that is read, whether a sheet is pending in front of the code or not.
    have complete : ∀ {s₀ : Lexer}, s₀.save.Placed (read ++ '#' :: rest.take m) →
        s₀.save.HasRead (read ++ '#' :: rest.take m) := fun placed =>
      ⟨_, placed, apart.append read, by rw [pending_save]; exact List.append_nil _⟩
    refine complete ?_
    split
    · exact (held.extend _).save
    · have begun : (s.save.extend ('#' :: rest.take m)).Placed read := ⟨held.save.laid, held.save.start⟩
      have shown : (s.save.extend ('#' :: rest.take m)).pending.reverse = '#' :: rest.take m := by
        rw [Lexer.extend, pending_save, List.append_nil, List.reverse_reverse]
      have saved := begun.save fun quotes => by
        rw [shown] at quotes
        contradiction
      rwa [shown] at saved

/-- An operator is read. -/
theorem readOperator (placed : s.save.Placed read) (operator : isOperatorStart c = true) :
    (s.readOperator c rest).1.HasRead (read ++ c :: rest.take (s.readOperator c rest).2) := by
  have listed : c ∈ ['+', '-', '*', '/', '^', '&', '=', '>', '<', '%'] := List.contains_iff_mem.mp operator
  have other : c ≠ ':' := by
    rintro rfl
    exact absurd listed (by decide)
  have pair : ∀ kind text, kind ≠ .literal → EndsApart text →
      (s.save.emit kind .plain text).HasRead (read ++ text) := fun _ _ formula apart =>
    placed.emit s.pending_save formula nofun apart
  unfold Lexer.readOperator
  dsimp only
  split
  · exact pair _ ['>', '='] nofun ⟨'=', rfl, by decide⟩
  · exact pair _ ['<', '='] nofun ⟨'=', rfl, by decide⟩
  · exact pair _ ['<', '>'] nofun ⟨'>', rfl, by decide⟩
  · refine pair _ [c] ?_ (endsApart_singleton other)
    split
    · exact nofun
    · split <;> exact nofun

/-- A separator is read. -/
theorem readSeparator (placed : s.save.Placed read) (separator : c = ';' ∨ c = ',') :
    (s.readSeparator c).HasRead (read ++ [c]) := by
  have apart : EndsApart [c] := endsApart_singleton (by rcases separator with rfl | rfl <;> decide)
  have added : ∀ kind role, kind ≠ .literal → role ≠ .text →
      (s.save.emit kind role [c]).HasRead (read ++ [c]) := fun _ _ formula other =>
    placed.emit s.pending_save formula (fun quotes => absurd quotes other) apart
  unfold Lexer.readSeparator
  dsimp only
  split
  · exact added _ _ nofun nofun
  · split <;> exact added _ _ nofun nofun

/-- Blanks are read together. -/
theorem readBlanks (placed : s.save.Placed read) (blank : isFormulaBlank c = true) :
    (s.save.emit .blank .plain (c :: rest.take (rest.takeWhile isFormulaBlank).length)).HasRead
      (read ++ c :: rest.take (rest.takeWhile isFormulaBlank).length) := by
  refine placed.emit s.pending_save nofun nofun ?_
  have all : ∀ d ∈ c :: rest.takeWhile isFormulaBlank, isFormulaBlank d = true :=
    List.forall_mem_cons.mpr ⟨blank, List.all_eq_true.mp List.all_takeWhile⟩
  rw [← List.prefix_iff_eq_take.mp (List.takeWhile_prefix _)]
  obtain ⟨d, last⟩ := List.getLast?_isSome.mpr (List.cons_ne_nil c (rest.takeWhile isFormulaBlank)) |>
    Option.isSome_iff_exists.mp
  refine ⟨d, last, ?_⟩
  rintro rfl
  exact absurd (all _ (List.mem_of_mem_getLast? last)) (by decide)

/-- Each character is read with those that belong to it. -/
theorem step (held : s.HasRead read) (lawful : s.Lawful) (found : s.step c rest = .ok (s', n)) :
    s'.HasRead (read ++ c :: rest.take n) := by
  unfold Lexer.step at found
  dsimp only at found
  have saved : (if endsOperand c = true then s.save else s).save.Placed read := by
    split
    · rw [save_save]
      exact held.save
    · exact held.save
  have same : endsOperand c = false → (if endsOperand c = true then s.save else s) = s := fun inner => by
    rw [inner, if_neg Bool.false_ne_true]
  have kept : (if endsOperand c = true then s.save else s).Lawful := by
    split
    · exact lawful.save.1
    · exact lawful
  generalize (if endsOperand c = true then s.save else s) = s₀ at found saved same kept
  split at found
  · obtain ⟨rfl, rfl⟩ := Prod.mk.inj (Except.ok.inj found)
    exact held.extend _
  split at found
  · rename_i quotes
    obtain rfl := same (by rcases quotes with rfl | rfl <;> decide)
    exact held.readQuoted quotes found
  rename_i quotes
  split at found
  · rename_i square
    obtain rfl := square
    obtain rfl := same (by decide)
    exact held.readSquare found
  rename_i square
  split at found
  · rename_i mark
    obtain rfl := mark
    obtain rfl := same (by decide)
    exact held.readErrorCode found
  rename_i mark
  split at found
  · rename_i blank
    obtain ⟨rfl, rfl⟩ := Prod.mk.inj (Except.ok.inj found)
    exact readBlanks saved blank
  rename_i blank
  split at found
  · rename_i operator
    have both := Except.ok.inj found
    have first : (s₀.readOperator c rest).1 = s' := congrArg Prod.fst both
    have second : (s₀.readOperator c rest).2 = n := congrArg Prod.snd both
    exact first ▸ second ▸ readOperator saved operator
  rename_i operator
  split at found
  · rename_i bracket
    obtain ⟨rfl, rfl⟩ := Prod.mk.inj (Except.ok.inj found)
    obtain rfl := same (by rcases bracket with rfl | rfl <;> decide)
    exact held.readOpening bracket
  rename_i opening
  split at found
  · cases closed : s₀.readClosing c with
    | error fault =>
      rw [closed] at found
      contradiction
    | ok after =>
      rw [closed] at found
      obtain ⟨rfl, rfl⟩ := Prod.mk.inj (Except.ok.inj found)
      exact readClosing saved kept closed
  rename_i closing
  split at found
  · rename_i separator
    obtain ⟨rfl, rfl⟩ := Prod.mk.inj (Except.ok.inj found)
    exact readSeparator saved separator
  rename_i separator
  obtain ⟨rfl, rfl⟩ := Prod.mk.inj (Except.ok.inj found)
  have plain := isOrdinary_of_ne quotes square mark blank operator opening closing separator
  obtain rfl := same (by simpa using (Bool.and_eq_true_iff.mp plain).1)
  exact held.extend _

/-- All characters are read. -/
theorem run (held : s.HasRead read) (lawful : s.Lawful) (ran : s.run text = .ok s') :
    s'.HasRead (read ++ text) := by
  induction s, text using Lexer.run.induct generalizing read with
  | case1 s =>
    rw [Lexer.run] at ran
    obtain rfl := Except.ok.inj ran
    rwa [List.append_nil]
  | case2 s c rest fault stops =>
    rw [Lexer.run, stops] at ran
    contradiction
  | case3 s c rest next length goes ih =>
    rw [Lexer.run, goes] at ran
    have behind := ih (held.step lawful goes) (lawful.step goes) ran
    rwa [List.append_assoc, List.cons_append, List.take_append_drop] at behind

/-- At the end of a text the tokens are laid over all of it. -/
theorem finish (held : s.HasRead read) {tokens : List Token} (finished : s.finish = .ok tokens) :
    Token.Laid ['='] read tokens := by
  unfold Lexer.finish at finished
  dsimp only at finished
  split at finished
  · obtain rfl := Except.ok.inj finished
    exact held.save.laid
  · contradiction

end HasRead

end Lexer

end Spreadsheet
