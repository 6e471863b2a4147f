import Spreadsheet.Proofs.Formula.PlacedTokens

/-!
# Tiled formulas

The tokens of a formula tile it: the first starts behind the equals sign, each of the others where the one
before it stops, and the last stops at the end, so that the formula can be made up again from them. Joining
the ends of ranges keeps the tokens in their places. Only a text in quotes right behind a colon breaks this.
-/
namespace Spreadsheet

namespace Token

variable {t : Token} {tokens : List Token} {before rest text : List Char}

/-! ### Joining -/

/-- Only what starts with a double quote is a text. -/
theorem operandRole_ne_text (first : text.head? ≠ some '"') : operandRole text ≠ .text := by
  unfold operandRole
  rw [if_neg (by simpa using first)]
  split_ifs <;> decide

/-- An operand that is no text: one that starts with a character, and not with a quote. -/
structure Unquoted (t : Token) : Prop where
  operand : t.kind = .operand
  role : t.role ≠ .text
  starts : ∃ c ∈ t.text.head?, c ≠ '"'

/-- A reference is no text. -/
theorem Lawful.unquoted (lawful : t.Lawful) (range : t.isRange = true) : t.Unquoted := by
  obtain ⟨kind, role⟩ := Bool.and_eq_true_iff.mp range
  have operand : t.kind = .operand := beq_iff_eq.mp kind
  have other : t.role ≠ .text := by
    rw [beq_iff_eq.mp role]
    decide
  obtain ⟨told, c, first, _⟩ := lawful.operand operand
  refine ⟨operand, other, c, first, ?_⟩
  rintro rfl
  rw [told, operandRole, Option.mem_def.mp first] at other
  exact other rfl

/-- One operand of two is no text if the first is none. -/
theorem Unquoted.join (unquoted : t.Unquoted) (blanks : List Token) (second : Token) :
    (join t blanks second).Unquoted := by
  obtain ⟨c, first, other⟩ := unquoted.starts
  have starts : (Token.join t blanks second).text.head? = some c := by
    show (t.text ++ _ ++ _).head? = _
    rw [List.append_assoc, List.head?_append, Option.mem_def.mp first]
    rfl
  refine ⟨rfl, operandRole_ne_text ?_, c, starts, other⟩
  exact fun same => other (Option.some.inj (starts.symm.trans same))

/-- One operand of two stands where they and the blanks between them stand. -/
theorem Laid.join {second : Token} {blanks : List Token} (first : t.Unquoted)
    (between : ∀ t' ∈ blanks, t'.kind = .blank) (last : second.role ≠ .text)
    (laid : Laid before rest (t :: blanks ++ second :: tokens)) :
    Laid before rest (join t blanks second :: tokens) := by
  rw [List.append_cons] at laid
  obtain ⟨front, behind, rfl, earlier, later⟩ := laid.exists_of_append
  have joined : front = (Token.join t blanks second).text := by
    have complete := earlier.flatMap_text_iff.2.mpr fun t' listed quotes => by
      rcases List.mem_append.mp listed with own | final
      · rcases List.mem_cons.mp own with rfl | blank
        · exact first.role quotes.1.2
        · exact absurd (between _ blank) (by rw [quotes.1.1]; decide)
      · obtain rfl := List.mem_singleton.mp final
        exact last quotes.1.2
    rw [← complete]
    simp [Token.join, operand, place]
  have start : t.start = byteSize before := by
    cases earlier with
    | next _ start _ follows _ =>
      rcases follows with ⟨rfl, _⟩ | ⟨_, quotes⟩
      · rwa [List.append_nil] at start
      · exact absurd quotes.2 first.role
  subst joined
  rw [← List.nil_append (Token.join t blanks second).text]
  have operand : (Token.join t blanks second).kind ≠ .literal := fun literal =>
    absurd (show TokenKind.operand = .literal from literal) (by decide)
  refine .next operand (by rwa [List.append_nil]) ?_ (.inl ⟨rfl, fun quotes => ?_⟩) (by simpa using later)
  · show t.start + byteSize (Token.join t blanks second).text = _
    rw [start, ← byteSize_append, List.append_nil]
  · exact absurd quotes.2 (first.join blanks second).role

/-- Joining the ends of ranges keeps tokens in their places. -/
theorem Laid.joinRanges (laid : Laid before rest tokens) (lawful : ∀ t ∈ tokens, t.Lawful) :
    Laid before rest (Token.joinRanges tokens) := by
  have both : (∀ {before rest}, Laid before rest tokens → Laid before rest (Token.joinRanges tokens)) ∧
      ∀ {before rest} (current : Token) (blanks : List Token), current.Unquoted →
        (∀ t ∈ blanks, t.kind = .blank) → Laid before rest (current :: blanks.reverse ++ tokens) →
          Laid before rest (joinAfter current blanks tokens) := by
    clear laid
    induction tokens with
    | nil =>
      exact ⟨id, fun current blanks _ _ laid => by rwa [List.append_nil] at laid⟩
    | cons t tokens ih =>
      obtain ⟨first, others⟩ := List.forall_mem_cons.mp lawful
      obtain ⟨alone, after⟩ := ih others
      have next : ∀ {before rest}, Laid before rest (t :: tokens) →
          Laid before rest (if t.isRange then joinAfter t [] tokens else t :: Token.joinRanges tokens) := by
        intro before rest laid
        split
        · rename_i range
          exact after t [] (first.unquoted range) (fun _ none => absurd none List.not_mem_nil) laid
        · cases laid with
          | next formula start stop follows behind => exact .next formula start stop follows (alone behind)
      refine ⟨next, fun current blanks unquoted between laid => ?_⟩
      unfold joinAfter
      split
      · rename_i blank
        exact after current (t :: blanks) unquoted (List.forall_mem_cons.mpr ⟨blank, between⟩)
          (by simpa using laid)
      · split
        · rename_i meets
          have range : t.isRange = true := (Bool.and_eq_true_iff.mp meets).1
          refine after _ [] (unquoted.join blanks.reverse t) (fun _ none => absurd none List.not_mem_nil) ?_
          refine Laid.join unquoted (fun t' listed => between t' (List.mem_reverse.mp listed)) ?_ laid
          exact (first.unquoted range).role
        · obtain ⟨front, behind, rfl, earlier, later⟩ := laid.exists_of_append
          exact earlier.append (next later)
  exact both.1 laid

/-! ### Tiling -/

/-- Tokens tile a formula: each is the piece at its bytes, the first starts behind the equals sign, each
of the others where the one before it stops, and the last stops at the end. -/
structure Tile (tokens : List Token) (text : List Char) : Prop where
  pieces : ∀ t ∈ tokens, t.StandsIn text
  first : ∀ t ∈ tokens.head?, t.start = 1
  adjacent : tokens.IsChain fun t t' => t.stop = t'.start
  last : ∀ t ∈ tokens.getLast?, t.stop = byteSize text
  whole : tokens = [] → byteSize text = 1

/-- Tokens are spread over a formula: each is the piece at its bytes, they stand in order up to the end,
and something is left out exactly in front of the texts in quotes behind a colon. -/
structure Spread (tokens : List Token) (text : List Char) : Prop where
  pieces : ∀ t ∈ tokens, t.StandsIn text
  first : ∀ t ∈ tokens.head?, ComesAfter text 1 t
  ordered : tokens.IsChain fun t => ComesAfter text t.stop
  last : ∀ t ∈ tokens.getLast?, t.stop = byteSize text
  whole : tokens = [] → byteSize text = 1

/-- Tokens that come behind each other, some later than at once, come at once exactly if none of them is a
text in quotes behind a colon. -/
theorem adjacent_iff {stop : Nat} (first : ∀ t ∈ tokens.head?, ComesAfter text stop t)
    (ordered : tokens.IsChain fun t => ComesAfter text t.stop) :
    ((∀ t ∈ tokens.head?, stop = t.start) ∧ tokens.IsChain fun t t' => t.stop = t'.start) ↔
      ∀ t ∈ tokens, ¬t.QuotesBehindColon text := by
  induction tokens generalizing stop with
  | nil => exact ⟨fun _ _ none => absurd none List.not_mem_nil, fun _ => ⟨nofun, .nil⟩⟩
  | cons t rest ih =>
    obtain ⟨next, others⟩ := List.isChain_cons.mp ordered
    rw [List.forall_mem_cons, ← ih next others, List.isChain_cons]
    rcases first t rfl with ⟨same, apart⟩ | ⟨later, behind⟩
    · refine ⟨fun ⟨_, chain⟩ => ⟨apart, chain⟩, fun ⟨_, chain⟩ => ⟨?_, chain⟩⟩
      rintro _ ⟨⟩
      exact same
    · refine ⟨fun ⟨same, _⟩ => ?_, fun ⟨apart, _⟩ => absurd behind apart⟩
      exact absurd (same t rfl) (Nat.ne_of_lt later)

/-- Tokens that are spread over a formula tile it exactly if no text in quotes stands behind a colon. -/
theorem Spread.tile_iff (spread : Spread tokens text) :
    Tile tokens text ↔ ∀ t ∈ tokens, ¬t.QuotesBehindColon text := by
  rw [← adjacent_iff spread.first spread.ordered]
  constructor
  · exact fun tile => ⟨fun t first => (tile.first t first).symm, tile.adjacent⟩
  · rintro ⟨first, adjacent⟩
    exact ⟨spread.pieces, fun t listed => (first t listed).symm, adjacent, spread.last, spread.whole⟩

/-- The tokens of a formula are laid over it. -/
theorem laid_of_ofText (cut : ofText ('=' :: text) = .ok tokens) : Laid ['='] text tokens := by
  obtain ⟨s, ran, finished⟩ := exists_of_bind_eq_ok cut
  obtain ⟨pieces, ended, joined⟩ := exists_of_bind_eq_ok finished
  obtain rfl := Except.ok.inj joined
  have start : Lexer.Lawful ⟨[], 1, [], []⟩ :=
    ⟨.nothing, fun _ none => absurd none List.not_mem_nil, fun _ none => absurd none List.not_mem_nil⟩
  have begun : Lexer.HasRead ⟨[], 1, [], []⟩ [] := ⟨[], ⟨.done _, rfl⟩, by decide, rfl⟩
  exact ((begun.run start ran).finish ended).joinRanges ((start.run ran).finish ended)

/-- The tokens of a formula are pieces of it, and they tile it, and make it up again, unless a text in quotes
stands right behind a colon: what is pending up to the colon is left out. -/
theorem tile_iff_of_ofText (formula : text.head? = some '=') (cut : ofText text = .ok tokens) :
    Spread tokens text ∧ (Tile tokens text ↔ ∀ t ∈ tokens, ¬t.QuotesBehindColon text) ∧
      (tokens ≠ [] → (render tokens = text ↔ ∀ t ∈ tokens, ¬t.QuotesBehindColon text)) := by
  obtain ⟨text, rfl⟩ := List.head?_eq_some_iff.mp formula
  have laid := laid_of_ofText cut
  have spread : Spread tokens ('=' :: text) := by
    obtain ⟨pieces, first, ordered, last, whole⟩ := laid.spread
    exact ⟨pieces, first, ordered, last, fun none => by rw [whole none]; rfl⟩
  refine ⟨spread, spread.tile_iff, fun some' => ?_⟩
  refine Iff.trans ?_ laid.flatMap_text_iff.2
  cases laid with
  | done => exact absurd rfl some'
  | next other => rw [render, if_neg other, List.cons.injEq, and_iff_right rfl]

/-- In front of a text in quotes the unfinished range `A1:` is left out, and the formula is not made up
again. -/
theorem not_tile_quotesBehindColon :
    ∃ tokens, ofText "=A1:\"x\"".toList = .ok tokens ∧ ¬Tile tokens "=A1:\"x\"".toList ∧
      render tokens ≠ "=A1:\"x\"".toList := by
  have cut : ofText "=A1:\"x\"".toList = .ok [.place .operand .text "\"x\"".toList 4] := by
    decide +kernel
  obtain ⟨_, tile, whole⟩ := tile_iff_of_ofText rfl cut
  have behind : ¬∀ t ∈ [Token.place .operand .text "\"x\"".toList 4],
      ¬t.QuotesBehindColon "=A1:\"x\"".toList := fun apart =>
    apart _ List.mem_cons_self ⟨⟨rfl, rfl⟩, "=A1".toList, [], by decide, by decide⟩
  exact ⟨_, cut, fun tiles => behind (tile.mp tiles), fun same => behind ((whole nofun).mp same)⟩

end Token

end Spreadsheet
