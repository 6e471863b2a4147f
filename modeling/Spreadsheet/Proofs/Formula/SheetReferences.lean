import Spreadsheet.Proofs.Formula.Operands

/-!
# References to sheets

A formula that consists of a reference means that reference, on its own sheet or on a named one, as long
as the name of the sheet has no number sign: a reference with one is taken for one to a deleted sheet.
-/
namespace Spreadsheet

namespace Token

/-- A single token is not joined with any other. -/
theorem joinRanges_singleton (t : Token) : joinRanges [t] = [t] := by
  unfold joinRanges
  split <;> rfl

/-- What is cut into one operand is the only token of a formula. -/
theorem ofText_of_scans {text : List Char} (scans : Lexer.Scans text) :
    ofText ('=' :: text) = .ok [operand text 1] := by
  have cut := scans ⟨[], 1, [], []⟩ [] rfl fun c none => by contradiction
  rw [List.append_nil, Lexer.cut_nil] at cut
  have finished : (Lexer.push ⟨[], 1, [], []⟩ (.operand text)).finish = .ok [operand text 1] := rfl
  obtain ⟨s, ran, ended⟩ := exists_of_bind_eq_ok (cut.trans finished)
  show (Lexer.run ⟨[], 1, [], []⟩ text >>= fun s => s.finish >>= fun tokens =>
    pure (joinRanges tokens)) = _
  rw [ran]
  show (s.finish >>= fun tokens => pure (joinRanges tokens)) = _
  rw [ended]
  exact congrArg Except.ok (joinRanges_singleton _)

end Token

namespace Expr

/-- A single operand is the whole tree. -/
theorem ofTokens_operand {t : Token} (operand : t.kind = .operand) {e : Expr} (found : ofOperand t = .ok e) :
    ofTokens [t] = .ok e := by
  have primary : readPrimary 10 t ⟨[t], 0⟩ = .ok (e, ⟨[], 1⟩) := by
    rw [readPrimary, operand, found]
    rfl
  have unary : readUnary 11 ⟨[t], 0⟩ = .ok (e, ⟨[], 1⟩) := by
    rw [readUnary]
    dsimp only
    rw [if_neg (by rw [operand]; decide), primary]
    rfl
  have whole : readExpr 12 0 ⟨[t], 0⟩ = .ok (e, ⟨[], 1⟩) := by
    rw [readExpr, unary]
    rfl
  unfold ofTokens
  dsimp only
  rw [if_neg (by rw [operand]; decide), List.length_singleton, whole]
  rfl

/-- What is cut into one operand is a formula of that operand. -/
theorem ofText_of_scans {text : List Char} (scans : Lexer.Scans text) {e : Expr}
    (found : ofOperand (.operand text 1) = .ok e) : ofText ('=' :: text) = .ok e := by
  unfold ofText
  rw [Token.ofText_of_scans scans]
  exact ofTokens_operand rfl found

end Expr

namespace Reference

variable {target new : Reference} {name : String}

/-- The bytes of a reference behind the equals sign of a formula. -/
def formulaSpan (target : Reference) : Span := ⟨1, 1 + byteSize target.chars⟩

/-- The formula of the text of a reference is that reference. -/
def MeansItself (target : Reference) : Prop :=
  Expr.ofText ('=' :: target.chars) = .ok (.reference target target.text (some target.formulaSpan))

/-- The formula of the text of a reference is an error, whose code starts with the first number sign. -/
def MeansError (target : Reference) : Prop :=
  Expr.ofText ('=' :: target.chars) =
    .ok (.literal (.error (.ofCode (String.ofList (target.chars.dropWhile (· != '#')))))
      (some target.formulaSpan))

/-- What means itself means no error. -/
theorem MeansItself.not_meansError (itself : target.MeansItself) : ¬target.MeansError :=
  fun error => nomatch Except.ok.inj (itself.symm.trans error)

/-- A reference with a number sign means an error. -/
theorem meansError_of_mem (marked : '#' ∈ target.chars) : target.MeansError := by
  refine Expr.ofText_of_scans (Expr.scans_reference target) ?_
  have role : (Token.operand target.chars 1).role = .range := Expr.operandRole_reference target
  have found : (Token.operand target.chars 1).text.contains '#' = true := List.contains_iff_mem.mpr marked
  unfold Expr.ofOperand
  rw [role]
  dsimp only
  rw [if_pos found]
  rfl

/-- A reference in its normal form means itself, or an error if the name of its sheet has a number sign. -/
theorem Normal.meansItself_iff (normal : target.Normal) :
    target.MeansItself ↔ ∀ name ∈ target.sheet, '#' ∉ name.toList := by
  constructor
  · intro same name named listed
    exact same.not_meansError (meansError_of_mem (Expr.mem_reference_iff.mpr ⟨name, named, listed⟩))
  · intro plain
    refine Expr.ofText_of_scans (Expr.scans_reference target) ?_
    refine Expr.ofOperand_reference normal (fun marked => ?_) (Expr.operandRole_reference target) rfl
    obtain ⟨name, named, listed⟩ := Expr.mem_reference_iff.mp marked
    exact plain name named listed

/-- A reference to cells that are moved to another sheet names that sheet. -/
theorem sheet_of_moved {rows columns : Int} {sheet : Option String}
    (found : target.moved rows columns sheet = some new) : new.sheet = sheet := by
  cases target with
  | cell named c =>
    obtain ⟨c', _, rfl⟩ := Option.map_eq_some_iff.mp found
    rfl
  | range named start stop =>
    obtain ⟨start', _, rest⟩ := Option.bind_eq_some_iff.mp found
    obtain ⟨stop', _, rest⟩ := Option.bind_eq_some_iff.mp rest
    obtain rfl := Option.some.inj rest
    rfl

/-- A reference to a sheet means itself exactly if the name of the sheet has no number sign, and otherwise
it means an error. So does a reference to cells that were moved to the sheet, where its corners can still
be named. -/
theorem meansItself_iff_of_sheet (name : String) :
    (∀ target : Reference, target.sheet = some name → target.Normal →
      (target.MeansItself ↔ '#' ∉ name.toList) ∧ (target.MeansError ↔ '#' ∈ name.toList)) ∧
      ∀ (rows columns : Int) (target new : Reference), target.Filled →
        target.moved rows columns (some name) = some new → new.CornersNameable →
          (new.MeansItself ↔ '#' ∉ name.toList) ∧ (new.MeansError ↔ '#' ∈ name.toList) := by
  have both : ∀ target : Reference, target.sheet = some name → target.Normal →
      (target.MeansItself ↔ '#' ∉ name.toList) ∧ (target.MeansError ↔ '#' ∈ name.toList) := by
    intro target named normal
    have itself : target.MeansItself ↔ '#' ∉ name.toList := by
      rw [normal.meansItself_iff, named]
      simp
    refine ⟨itself, fun error => ?_, fun listed => ?_⟩
    · by_contra plain
      exact (itself.mpr plain).not_meansError error
    · exact meansError_of_mem (Expr.mem_reference_iff.mpr ⟨name, named, listed⟩)
  refine ⟨both, fun rows columns target new filled found corners => both new (sheet_of_moved found) ?_⟩
  exact ⟨corners, law_filled.moved rows columns _ target new filled found, ordered_moved found⟩

/-- A quote in the name of a sheet does not matter, and a number sign does: the same cell of the one sheet
is a reference, also where it was moved there, and of the other an error. -/
theorem meansError_of_numberSign :
    MeansItself (.cell (some "it's") ⟨0, 0, false, false, by decide, by decide⟩) ∧
      (∃ new, moved 0 1 (some "it's") (.cell none ⟨0, 0, false, false, by decide, by decide⟩) = some new ∧
        new.MeansItself) ∧
        MeansError (.cell (some "a#b") ⟨0, 0, false, false, by decide, by decide⟩) ∧
          ¬MeansItself (.cell (some "a#b") ⟨0, 0, false, false, by decide, by decide⟩) := by
  have normal : ∀ name, Normal (.cell (some name) ⟨0, 0, false, false, by decide, by decide⟩) :=
    fun _ => ⟨trivial, trivial, trivial⟩
  have quote := (meansItself_iff_of_sheet "it's").1 _ rfl (normal _)
  have sign := (meansItself_iff_of_sheet "a#b").1 _ rfl (normal _)
  have found : moved 0 1 (some "it's") (.cell none ⟨0, 0, false, false, by decide, by decide⟩) =
      some (.cell (some "it's") ⟨0, 1, false, false, by decide, by decide⟩) := rfl
  have follow := (meansItself_iff_of_sheet "it's").2 0 1 (.cell none ⟨0, 0, false, false, by decide, by decide⟩)
    (.cell (some "it's") ⟨0, 1, false, false, by decide, by decide⟩) trivial found trivial
  exact ⟨quote.1.mpr (by decide), ⟨_, found, follow.1.mpr (by decide)⟩, sign.2.mpr (by decide),
    fun same => sign.1.mp same (by decide)⟩

end Reference

end Spreadsheet
