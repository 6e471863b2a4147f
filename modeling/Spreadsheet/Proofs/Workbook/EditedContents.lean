import Spreadsheet.Proofs.Workbook.SingleRecalculations

/-!
# Typing and deleting content without arrays

Without arrays a request that types or deletes content changes the positions it edits and nothing
else, and what it marks are these positions and the formulas typed there.
-/
namespace Spreadsheet

/-- The request types or deletes content. -/
def Request.TypesContent : Request → Prop
  | .setContent _ _ _ _ => True
  | .deleteContent _ => True
  | _ => False

namespace Workbook

variable {w w₁ : Workbook} {p q : Position} {edited : Position → Prop}

/-- A request changes the content of a position. -/
def Edits (w : Workbook) : Request → Position → Prop
  | .setContent sheet row column _, q =>
    (w.sheet? sheet).any (·.inBounds row column) = true ∧ q = ⟨sheet, row, column⟩
  | .deleteContent zones, q =>
    w.holds zones = true ∧ (∃ z ∈ zones, z.contains q = true) ∧ w.hasContent q = true
  | _, _ => False

/-- A workbook without arrays in which the contents of some positions have been replaced: the positions
have changed, and the formulas typed there are to be evaluated. -/
structure Rewritten (w : Workbook) (edited : Position → Prop) (w₁ : Workbook) : Prop where
  spills : w₁.spills = .empty
  journal : w₁.journal = w.journal
  content : ∀ q, ¬ edited q → w₁.content q = w.content q
  mem_dirty : ∀ q, q ∈ w₁.dirty ↔ edited q ∧ w₁.isFormula q = true
  mem_changed : ∀ q, q ∈ w₁.changed ↔ edited q

/-- A workbook without arrays in which the contents of some positions have been replaced, everything
else being as before. -/
structure Edited (w : Workbook) (edited : Position → Prop) (w₁ : Workbook) : Prop
    extends Rewritten w edited w₁ where
  plain : w₁.Plain
  sheets : SameSheets w w₁
  chosen : ∀ q, w₁.chosen q = w.chosen q
  reads : ∀ q, ¬ edited q → ∀ u, w₁.Reads q u ↔ w.Reads q u

/-- Nothing has been replaced where nothing is marked. -/
theorem rewritten_none (bare : w.spills = .empty) (dirty : w.dirty = ∅) (changed : w.changed = ∅) :
    w.Rewritten (fun _ => False) w where
  spills := bare
  journal := rfl
  content _ _ := rfl
  mem_dirty q := by simp [dirty]
  mem_changed q := by simp [changed]

/-- Nothing is edited in a workbook that is calm. -/
theorem Calm.edited_none (calm : w.Calm) : w.Edited (fun _ => False) w where
  toRewritten := rewritten_none calm.spills calm.dirty calm.changed
  plain := calm.toPlain
  sheets := .refl w
  chosen _ := rfl
  reads _ _ _ := .rfl

/-- Where no array is spilled, releasing one changes nothing. -/
theorem releaseArray_of_bare (bare : w.spills = .empty) (p : Position) : w.releaseArray p = w := by
  unfold releaseArray
  rw [bare, Spills.activeZone?_empty, Spills.release_empty, ← bare]

/-- Other positions keep their content where that of one is replaced. -/
theorem content_replaceContent_of_ne (w : Workbook) (content : Content) (other : q ≠ p) :
    (w.replaceContent p content).content q = w.content q := by
  rw [content_replaceContent, if_neg fun both => other both.1]

/-- One more content is replaced. -/
theorem Rewritten.replaceContent (step : w.Rewritten edited w₁) (content : Content)
    (exist : (w₁.sheet? p.sheet).isSome = true) :
    w.Rewritten (fun q => edited q ∨ q = p) (w₁.replaceContent p content) where
  spills := by rw [spills_replaceContent, step.spills, Spills.release_empty]
  journal := (journal_replaceContent w₁ p content).trans step.journal
  content q unedited := by
    rw [not_or] at unedited
    rw [content_replaceContent_of_ne w₁ content unedited.2, step.content q unedited.1]
  mem_dirty q := by
    rw [mem_dirty_replaceContent, releaseArray_of_bare step.spills, step.spills,
      Spills.release_empty, Spills.owner?_empty, step.mem_dirty]
    by_cases here : q = p
    · have entered : (w₁.replaceContent p content).isFormula p = content.formula?.isSome := by
        unfold isFormula
        rw [formula?_eq, content_replaceContent, if_pos ⟨rfl, exist⟩,
          Content.isSome_formula?_entered]
      subst here
      simp [entered]
    · have none : q ∉ Spills.empty.blockedAround p := fun blocked => by
        obtain ⟨candidate, state, _⟩ := Spills.mem_blockedAround.mp blocked
        rw [Spills.state?_empty] at state
        contradiction
      have kept : (w₁.replaceContent p content).isFormula q = w₁.isFormula q := by
        unfold isFormula
        rw [formula?_eq, formula?_eq, content_replaceContent_of_ne w₁ content here]
      simp [here, none, kept]
  mem_changed q := by
    rw [mem_changed_replaceContent, releaseArray_of_bare step.spills, step.mem_changed]

/-- One more content is replaced, and nothing else is changed. -/
theorem Edited.replaceContent (step : w.Edited edited w₁) (content : Content)
    (exist : (w₁.sheet? p.sheet).isSome = true) :
    w.Edited (fun q => edited q ∨ q = p) (w₁.replaceContent p content) where
  toRewritten := step.toRewritten.replaceContent content exist
  plain :=
    ⟨step.plain.current.replaceContent p content exist,
      step.plain.registered.congr (sameSheets_replaceContent w₁ p content),
      (step.toRewritten.replaceContent content exist).spills⟩
  sheets := step.sheets.trans (sameSheets_replaceContent w₁ p content)
  chosen q := by rw [chosen_replaceContent, step.chosen]
  reads q unedited u := by
    rw [not_or] at unedited
    rw [← step.reads q unedited.1]
    unfold Reads
    rw [zonesOf_replaceContent, if_neg unedited.2]

/-- Whatever can be said of workbooks in which contents are replaced one after the other, and tells
which contents are as before, can be said when those of positions are deleted: what is replaced is the
content there was. -/
theorem emptied_edits {P : (Position → Prop) → Workbook → Prop} (start : P (fun _ => False) w)
    (content : ∀ edited w', P edited w' → ∀ q, ¬ edited q → w'.content q = w.content q)
    (replace : ∀ edited w' p, P edited w' → (w'.sheet? p.sheet).isSome = true →
      P (fun q => edited q ∨ q = p) (w'.replaceContent p .empty)) (positions : List Position) :
    P (fun q => q ∈ positions ∧ w.hasContent q = true) (w.emptied positions) := by
  have run : P (fun q => q ∈ positions ∧ w.hasContent q = true) (w.emptied positions) ∧
      ∀ q ∈ positions, (w.emptied positions).content q = .empty := by
    induction positions using List.reverseRecOn with
    | nil =>
      refine ⟨?_, fun q none => absurd none List.not_mem_nil⟩
      show P _ w
      simpa using start
    | append_singleton positions p ih =>
      obtain ⟨step, cleared⟩ := ih
      have next : w.emptied (positions ++ [p]) =
          if (w.emptied positions).hasContent p then (w.emptied positions).replaceContent p .empty
          else w.emptied positions := by
        unfold emptied
        rw [List.foldl_append]
        rfl
      rw [next]
      by_cases filled : (w.emptied positions).hasContent p = true
      · rw [if_pos filled]
        have new : p ∉ positions := fun listed => by
          rw [hasContent_eq, cleared p listed] at filled
          contradiction
        have before : w.hasContent p = true := by
          rw [hasContent_eq, ← content _ _ step p fun both => new both.1, ← hasContent_eq, filled]
        have exist := isSome_sheet?_of_hasContent filled
        have same : (fun q => (q ∈ positions ∧ w.hasContent q = true) ∨ q = p) =
            fun q => q ∈ positions ++ [p] ∧ w.hasContent q = true := by
          funext q
          simp only [List.mem_append, List.mem_singleton, eq_iff_iff]
          constructor
          · rintro (⟨listed, typed⟩ | rfl)
            · exact ⟨.inl listed, typed⟩
            · exact ⟨.inr rfl, before⟩
          · rintro ⟨listed | rfl, typed⟩
            · exact .inl ⟨listed, typed⟩
            · exact .inr rfl
        refine ⟨same ▸ replace _ _ p step exist, fun q listed => ?_⟩
        by_cases here : q = p
        · rw [here, content_replaceContent, if_pos ⟨rfl, exist⟩]
          rfl
        · rw [content_replaceContent_of_ne _ _ here]
          exact cleared q ((List.mem_append.mp listed).resolve_right fun last =>
            here (List.mem_singleton.mp last))
      · rw [if_neg filled]
        have blank : (w.emptied positions).content p = .empty := by
          rw [hasContent_eq] at filled
          cases typed : (w.emptied positions).content p with
          | empty => rfl
          | literal typed' v => simp [typed, Content.isEmpty] at filled
          | formula f => simp [typed, Content.isEmpty] at filled
        have same : (fun q => q ∈ positions ∧ w.hasContent q = true) =
            fun q => q ∈ positions ++ [p] ∧ w.hasContent q = true := by
          funext q
          simp only [List.mem_append, List.mem_singleton, eq_iff_iff]
          constructor
          · exact fun ⟨listed, typed⟩ => ⟨.inl listed, typed⟩
          · rintro ⟨listed | rfl, typed⟩
            · exact ⟨listed, typed⟩
            · -- The position had content, so it must have been cleared before.
              by_contra unedited
              rw [hasContent_eq, ← content _ _ step q unedited, blank] at typed
              contradiction
        refine ⟨same ▸ step, fun q listed => ?_⟩
        rcases List.mem_append.mp listed with earlier | last
        · exact cleared q earlier
        · rw [List.mem_singleton.mp last, blank]
  exact run.1

/-- Whatever can be said of workbooks in which contents are replaced one after the other, and tells
which contents are as before, can be said of what a request prepares that types or deletes content. -/
theorem prepared_edits {P : (Position → Prop) → Workbook → Prop} (start : P (fun _ => False) w)
    (content : ∀ edited w', P edited w' → ∀ q, ¬ edited q → w'.content q = w.content q)
    (replace : ∀ edited w' p content, P edited w' → (w'.sheet? p.sheet).isSome = true →
      P (fun q => edited q ∨ q = p) (w'.replaceContent p content))
    {request : Request} (typed : request.TypesContent) (change : w.prepared request = some w₁) :
    P (w.Edits request) w₁ := by
  cases request with
  | setContent sheet row column text =>
    simp only [prepared] at change
    split at change
    · rename_i inside
      obtain rfl := Option.some.inj change
      have exist : (w.sheet? sheet).isSome = true := by
        cases found : w.sheet? sheet with
        | none => simp [found] at inside
        | some s => rfl
      have same : (fun q => False ∨ q = ⟨sheet, row, column⟩) =
          w.Edits (.setContent sheet row column text) := by
        funext q
        simp [Edits, inside]
      exact same ▸ replace _ w ⟨sheet, row, column⟩ (.ofText text) start exist
    · contradiction
  | deleteContent zones =>
    simp only [prepared] at change
    split at change
    · rename_i held
      obtain rfl := Option.some.inj change
      have same : (fun q => q ∈ zones.flatMap Zone.positions ∧ w.hasContent q = true) =
          w.Edits (.deleteContent zones) := by
        funext q
        simp [Edits, held, List.mem_flatMap, Zone.mem_positions]
      exact same ▸ emptied_edits start content (fun edited w' p => replace edited w' p .empty) _
    · contradiction
  | _ => exact absurd typed not_false

/-- A request that types or deletes content and is refused changes nothing and edits no position. -/
theorem edits_none {request : Request} (typed : request.TypesContent)
    (refused : w.prepared request = none) :
    w.after request = w ∧ ∀ q, ¬ w.Edits request q := by
  rw [after_eq, refused]
  cases request with
  | setContent sheet row column text =>
    refine ⟨rfl, fun q edits => ?_⟩
    simp [prepared, edits.1] at refused
  | deleteContent zones =>
    refine ⟨rfl, fun q edits => ?_⟩
    simp [prepared, edits.1] at refused
  | _ => exact absurd typed not_false

/-- A request that types or deletes content is refused, or it edits the positions it names. -/
theorem Calm.edited_prepared (calm : w.Calm) {request : Request} (typed : request.TypesContent) :
    match w.prepared request with
    | some w₁ => w.Edited (w.Edits request) w₁
    | none => w.after request = w ∧ ∀ q, ¬ w.Edits request q := by
  cases change : w.prepared request with
  | some w₁ =>
    exact prepared_edits (P := w.Edited) calm.edited_none (fun _ _ step => step.content)
      (fun _ _ _ content step exist => step.replaceContent content exist) typed change
  | none => exact edits_none typed change

namespace Edited

/-- What is due after an edit: the formulas edited and the readers of what was edited. -/
theorem mem_due (step : w.Edited edited w₁) :
    q ∈ w₁.due ↔ (edited q ∨ ∃ u, edited u ∧ w₁.Reads q u) ∧ w₁.isFormula q = true := by
  rw [Workbook.mem_due, step.mem_dirty]
  simp only [step.mem_changed, step.plain.current.mem_readersOf]
  constructor
  · rintro ⟨⟨listed, _⟩ | reads, formula⟩
    · exact ⟨.inl listed, formula⟩
    · exact ⟨.inr reads, formula⟩
  · rintro ⟨listed | reads, formula⟩
    · exact ⟨.inl ⟨listed, formula⟩, formula⟩
    · exact ⟨.inr reads, formula⟩

/-- What is not edited keeps its result. -/
theorem result? (step : w.Edited edited w₁) (unedited : ¬ edited q) :
    w₁.result? q = w.result? q := by
  unfold Workbook.result?
  rw [formula?_eq, formula?_eq, step.content q unedited]

/-- A formula that is edited is scheduled. -/
theorem mem_vertices (step : w.Edited edited w₁) (listed : edited q)
    (formula : w₁.isFormula q = true) : q ∈ w₁.vertices :=
  mem_vertices_of_mem_due (step.mem_due.mpr ⟨.inl listed, formula⟩)

/-- A cycle that is not scheduled after an edit was a cycle before. -/
theorem onCycle (step : w.Edited edited w₁) (cyclic : w₁.OnCycle p) (idle : p ∉ w₁.vertices) :
    w.OnCycle p := by
  have unedited : ∀ q, w₁.isFormula q = true → Relation.ReflTransGen w₁.Feeds q p → ¬ edited q := by
    intro q formula path listed
    have scheduled := step.mem_vertices listed formula
    rcases Relation.reflTransGen_iff_eq_or_transGen.mp path with same | onward
    · exact idle (same ▸ scheduled)
    · exact idle (step.plain.current.mem_vertices_of_transGen scheduled onward)
  have feeds : ∀ {u q}, w₁.Feeds u q → Relation.ReflTransGen w₁.Feeds q p → w.Feeds u q := by
    intro u q need path
    have untouched := unedited u need.1 (.head need path)
    refine ⟨?_, ?_⟩
    · have formula := need.1
      unfold isFormula at formula ⊢
      rwa [formula?_eq, ← step.content u untouched, ← formula?_eq]
    · exact (step.reads q (unedited q (step.plain.current.isFormula_of_reads need.2) path) u).mp
        need.2
  have along : ∀ q, Relation.TransGen w₁.Feeds q p → Relation.TransGen w.Feeds q p := by
    intro q path
    induction path using Relation.TransGen.head_induction_on with
    | single need => exact .single (feeds need .refl)
    | head need path ih => exact ih.head (feeds need path.to_reflTransGen)
  exact along p cyclic

end Edited

end Workbook

end Spreadsheet
