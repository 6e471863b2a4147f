import Spreadsheet.Proofs.Formula.Rereading
import Spreadsheet.Proofs.Formula.TypedTrees
import Spreadsheet.Proofs.Workbook.InsertedLines

/-!
# Texts of formulas along runs

The text of a formula is the one that was typed, or it was written from the tree when references of it were
redirected. Typed again, it is the formula of the same tree, unless it was written from a tree with a node
that is not told by what is written for it.
-/
namespace Spreadsheet

/-- The text of a formula was typed, or it is written from the tree. -/
structure Formula.Worded (text : String) (tree : Except FormulaError Expr) : Prop where
  formula : text.toList.head? = some '='
  words : Expr.ofText text.toList = tree ∨ ∃ e, tree = .ok e ∧ text = e.render

/-- The text that a redirection leaves is written from the tree. -/
theorem Formula.law_worded : Formula.Law Formula.Worded where
  typed _ formula := ⟨formula, .inl rfl⟩
  redirected _ _ e' _ _ := ⟨by rw [Expr.render, String.toList_ofList]; rfl, .inr ⟨e', rfl, rfl⟩⟩

/-- A redirection changes references. -/
theorem Expr.Redirects.exists_fate {e e' : Expr} (redirects : e.Redirects e') :
    ∃ fate, e.redirect? fate = some e' := by
  cases redirects with
  | shifted changed => exact ⟨_, changed⟩
  | copied changed =>
    unfold Expr.offset? at changed
    split at changed
    · contradiction
    · exact ⟨_, changed⟩
  | moved changed => exact ⟨_, changed⟩
  | invalidated changed => exact ⟨_, changed⟩

/-- The tree of a formula is one that is typed and redirected. -/
theorem Formula.law_typed : Formula.Law fun _ tree => ∀ e, tree = .ok e → e.Typed where
  typed _ _ _ read := Expr.typed_ofText read
  redirected _ e e' typed redirects tree same := by
    obtain rfl := Except.ok.inj same
    obtain ⟨fate, changed⟩ := redirects.exists_fate
    exact (typed e rfl).redirect? changed

namespace Workbook

variable {w : Workbook} {p : Position} {e : Expr}

/-- A formula whose text was typed, or whose nodes are all told, is read from its text as it is, and typing
the text enters it again. -/
theorem exists_ofText_text (attained : w.Attainable) (typed : w.expr? p = some e)
    (told : (w.content p).text = e.render → e.isTelling = true) :
    ∃ e' : Expr, Expr.ofText (w.content p).text.toList = .ok e' ∧ e'.bare = e.bare ∧
      (Content.ofText (w.content p).text).expr? = some e' := by
  obtain ⟨f, found, tree⟩ := Option.bind_eq_some_iff.mp typed
  have shown : (w.content p).text = f.text := by
    cases content : w.content p with
    | empty =>
      rw [content] at found
      contradiction
    | literal typed v =>
      rw [content] at found
      contradiction
    | formula f' =>
      rw [content] at found
      rw [← Option.some.inj found]
      rfl
  have tree := Formula.tree_of_expr? tree
  obtain ⟨formula, words⟩ := (attained.allFormulas Formula.law_worded).content p f found
  have made : e.Typed := (attained.allFormulas Formula.law_typed).content p f found e tree
  rw [shown] at told ⊢
  -- What is read is entered, since the text starts with an equals sign.
  have enters : ∀ e', Expr.ofText f.text.toList = .ok e' → (Content.ofText f.text).expr? = some e' := by
    intro e' read
    have some' : f.text ≠ "" := by
      intro none
      rw [none] at formula
      contradiction
    unfold Content.ofText
    rw [if_neg some', if_pos formula]
    show (Formula.ofText f.text).expr? = some e'
    unfold Formula.ofText Formula.expr?
    rw [read]
    rfl
  rcases words with same | ⟨e', same, written⟩
  · rw [tree] at same
    exact ⟨e, same, rfl, enters e same⟩
  · rw [tree] at same
    obtain rfl := Except.ok.inj same
    have legible := made.legible (told written) fun target listed =>
      ⟨attained.allReferences Reference.law_filled typed target listed,
        attained.allReferences Reference.law_ordered typed target listed⟩
    obtain ⟨e', read, same⟩ := legible.ofText_chars
    rw [← written] at read
    exact ⟨e', read, same, enters e' read⟩

/-- A percentage of a sum still says what it is after a row was inserted above it. -/
theorem exists_ofText_text_below_row :
    ∃ e e' : Expr,
      (((new .standard FunctionTable.empty).after (.setContent 0 0 0 "=(B1+2)%")).after
        (.insertLines .rows 0 0 1)).expr? ⟨0, 1, 0⟩ = some e ∧
      Expr.ofText ((((new .standard FunctionTable.empty).after (.setContent 0 0 0 "=(B1+2)%")).after
        (.insertLines .rows 0 0 1)).content ⟨0, 1, 0⟩).text.toList = .ok e' ∧ e'.bare = e.bare := by
  generalize start : new .standard FunctionTable.empty = w
  have blank : ∀ q, w.cell? q = none := fun q => start ▸ cell?_new _ _ q
  have room : (w.sheet? 0).any (·.inBounds 0 0) = true := start ▸ by decide +kernel
  have sheets := w.sameSheets_after_setContent ⟨0, 0, 0⟩ "=(B1+2)%"
  have known : (w.after (.setContent 0 0 0 "=(B1+2)%")).lines? 0 = some (Sheet.blank 100 26).lines :=
    (lines?_of_sameSheets sheets 0).trans (start ▸ lines?_new ..)
  have names : (w.after (.setContent 0 0 0 "=(B1+2)%")).registry = Registry.empty.add "Sheet1" :=
    sheets.registry.trans (start ▸ rfl)
  have near : ∀ p, ((w.after (.setContent 0 0 0 "=(B1+2)%")).cell? p).isSome = true → p.sheet = 0 →
      p.line .rows + 1 < indexBound := by
    intro p there _
    rcases w.isSome_cell?_after_setContent ⟨0, 0, 0⟩ "=(B1+2)%" there with rfl | before
    · decide
    · rw [blank] at before
      contradiction
  have attained : (w.after (.setContent 0 0 0 "=(B1+2)%")).Attainable :=
    .after (start ▸ .new _ _) _ fun _ _ _ same => by contradiction
  have telling : (Content.ofText "=(B1+2)%").expr?.map (fun e =>
      (e.led ((Registry.empty.add "Sheet1").follow (Shift.ofGap .rows 0 (0, 1)) 0)).isTelling) =
        some true := by decide +kernel
  obtain ⟨e, tree, told⟩ := Option.map_eq_some_iff.mp telling
  have typed : (w.after (.setContent 0 0 0 "=(B1+2)%")).expr? ⟨0, 0, 0⟩ = some e := by
    rw [w.expr?_after_setContent ⟨0, 0, 0⟩ "=(B1+2)%" ⟨0, 0, 0⟩ room, if_pos rfl, tree]
  obtain ⟨relocated, _⟩ := relocated_insertLines known (Nat.zero_le _) (by decide) Nat.one_pos near
  have follows := relocated.follows ⟨0, 0, 0⟩ ⟨0, 1, 0⟩ rfl
  obtain ⟨e₁, found, bare⟩ := follows.expr? typed
  rw [names] at bare
  obtain ⟨e', read, same, _⟩ := exists_ofText_text (attained.after _ fun _ _ _ same => by contradiction)
    found fun _ => by rw [← Expr.isTelling_bare, bare, told]
  exact ⟨e₁, e', found, read, same⟩

end Workbook

end Spreadsheet
