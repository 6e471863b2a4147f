import Spreadsheet.Proofs.Workbook.EditedContents

/-!
# The error of cycles

While content is typed and deleted and no formula comes to an array, formulas on cycles keep the
error of cycles. The others keep what they come to, unless a change overlooks them: a formula that
leaves a cycle without being told so keeps the error, and so does the result of a formula that is
told nothing because what it reads changed in the sign of a zero only.
-/
namespace Spreadsheet

/-- Two outcomes are equal up to the signs of zeros. -/
def Outcome.Alike (o o' : Outcome) : Prop := o = o' ∨ o.same o' = true

namespace Workbook

variable {w w' w₁ : Workbook} {p q : Position} {edited announced : Position → Prop}

/-- Formulas on cycles keep the error of cycles, all others what they come to. -/
structure CircularExact (w : Workbook) : Prop where
  circular : ∀ p, w.OnCycle p → w.result? p = some .circular
  exact : ∀ p, w.isFormula p = true → ¬ w.OnCycle p →
    ∃ result, w.result? p = some result ∧ result.Alike (w.compute p).outcome

/-- A change stirs the positions it edits, formulas on cycles whose result is another one now, and
formulas that read a stirred position and whose result is another one now. -/
inductive Stirred (w w' : Workbook) (edited : Position → Prop) : Position → Prop
  | edited {q : Position} (changed : edited q) : Stirred w w' edited q
  | stamped {q : Position} (cyclic : w'.OnCycle q) (other : ¬ w.SameResult w' q) :
    Stirred w w' edited q
  | reads {q u : Position} (reads : w'.Reads q u) (stirred : Stirred w w' edited u)
    (other : ¬ w.SameResult w' q) : Stirred w w' edited q

/-- A change overlooks a formula that lies on no cycle: it neither edits the formula nor stirs what
the formula reads, but the formula has left a cycle, or a result it reads has changed in the sign of
a zero, and it would come to something else now than it keeps. -/
structure Overlooked (w w' : Workbook) (edited : Position → Prop) (p : Position) : Prop where
  formula : w'.isFormula p = true
  free : ¬ w'.OnCycle p
  untouched : ¬ edited p
  quiet : ∀ u, w'.Reads p u → ¬ Stirred w w' edited u
  reason : w.OnCycle p ∨
    ∃ u, w'.Reads p u ∧ w.SameResult w' u ∧ w'.result? u ≠ w.result? u
  stale : ∀ result, w.result? p = some result → ¬ result.Alike (w'.compute p).outcome

/-! ### What one change does -/

/-- What a recalculation announces has been stirred. -/
theorem Edited.stirred_of_announced (step : w.Edited edited w₁) (renewed : w₁.Renewed announced w')
    (told : announced q) : Stirred w w' edited q := by
  have plain := step.plain
  have news : ∀ q, announced q → ¬ edited q → ¬ w.SameResult w' q := fun q told unedited => by
    rw [← sameResult_congr (step.result? unedited) rfl]
    exact ((renewed.announced_iff q).mp told).2
  have stamped : ∀ q, announced q → q ∈ w₁.plan.cyclic → Stirred w w' edited q := fun q told cyclic => by
    by_cases listed : edited q
    · exact .edited listed
    · exact .stamped ((onCycle_congr renewed.sources).mpr (plain.mem_cyclic_iff.mp cyclic).2)
        (news q told listed)
  have reads : ∀ {q u}, w₁.Reads q u → w'.Reads q u := fun reads => by
    unfold Reads
    rwa [renewed.sources.dependencies]
  -- A formula announces its result after all that it reads have announced theirs.
  have ordered : ∀ before after, w₁.plan.order = before ++ after → ∀ q ∈ before, announced q →
      Stirred w w' edited q := by
    intro before
    induction before using List.reverseRecOn with
    | nil => exact fun _ _ q none => absurd none List.not_mem_nil
    | append_singleton before p ih =>
      intro after split q listed told
      rw [List.append_assoc, List.singleton_append] at split
      rcases List.mem_append.mp listed with earlier | last
      · exact ih _ split q earlier told
      · obtain rfl := List.mem_singleton.mp last
        by_cases typed : edited q
        · exact .edited typed
        have here : q ∈ w₁.plan.order := by simp [split]
        rcases ((renewed.announced_iff q).mp told).1 with cyclic | ⟨_, summoned⟩
        · exact absurd cyclic (w₁.orders_plan.apart q here)
        · rcases summoned with due | ⟨u, told', reader⟩
          · rcases (step.mem_due.mp due).1 with typed' | ⟨u, typed', reader⟩
            · exact absurd typed' typed
            · exact .reads (reads reader) (.edited typed') (news q told typed)
          · refine .reads (reads reader) ?_ (news q told typed)
            rcases ((renewed.announced_iff u).mp told').1 with cyclic | ⟨listed', _⟩
            · exact stamped u told' cyclic
            · exact ih _ split u (mem_before_of_bare plain.spills split listed' reader) told'
  rcases ((renewed.announced_iff q).mp told).1 with cyclic | ⟨listed, _⟩
  · exact stamped q told cyclic
  · exact ordered w₁.plan.order [] (List.append_nil _).symm q listed told

/-- What reads a position that was edited or announces another result is scheduled, and summoned if
it is not on a cycle. -/
theorem Edited.summoned_of_reads (step : w.Edited edited w₁) (renewed : w₁.Renewed announced w')
    (reads : w₁.Reads p q) (news : edited q ∨ announced q) :
    p ∈ w₁.plan.cyclic ∨ p ∈ w₁.plan.order ∧ w₁.Summoned announced p := by
  have current := step.plain.current
  have formula := current.isFormula_of_reads reads
  have both : p ∈ w₁.vertices ∧ w₁.Summoned announced p := by
    rcases news with listed | told
    · have due : p ∈ w₁.due := step.mem_due.mpr ⟨.inr ⟨q, listed, reads⟩, formula⟩
      exact ⟨mem_vertices_of_mem_due due, .inl due⟩
    · refine ⟨current.mem_vertices_of_reads ?_ reads, .inr ⟨q, told, reads⟩⟩
      rcases ((renewed.announced_iff q).mp told).1 with cyclic | ⟨ordered, _⟩
      · exact (step.plain.mem_cyclic_iff.mp cyclic).1
      · exact w₁.orders_plan.inside q ordered
  rcases w₁.orders_plan.covers p both.1 with ordered | cyclic
  · exact .inr ⟨ordered, both.2⟩
  · exact .inl cyclic

/-- What has been stirred was edited or is announced. -/
theorem Edited.announced_of_stirred (step : w.Edited edited w₁) (renewed : w₁.Renewed announced w')
    (marked : ∀ p, w.OnCycle p → w.result? p = some .circular) (stirred : Stirred w w' edited q) :
    edited q ∨ announced q := by
  induction stirred with
  | edited listed => exact .inl listed
  | @stamped q cyclic other =>
    refine or_iff_not_imp_left.mpr fun unedited => ?_
    have cyclic' := (onCycle_congr renewed.sources).mp cyclic
    rw [← sameResult_congr (step.result? unedited) rfl] at other
    refine (renewed.announced_iff q).mpr ⟨.inl (step.plain.mem_cyclic_iff.mpr ⟨?_, cyclic'⟩), other⟩
    -- A cycle that is not scheduled has had its error all along.
    by_contra idle
    refine other ⟨.circular, .circular, ?_, renewed.circular q cyclic', Outcome.same_circular⟩
    rw [step.result? unedited, marked q (step.onCycle cyclic' idle)]
  | @reads q u reads _ other ih =>
    refine or_iff_not_imp_left.mpr fun unedited => ?_
    rw [← sameResult_congr (step.result? unedited) rfl] at other
    have reads' : w₁.Reads q u := by
      unfold Reads at reads
      rwa [renewed.sources.dependencies] at reads
    exact (renewed.announced_iff q).mpr ⟨step.summoned_of_reads renewed reads' ih, other⟩

/-- A formula on no cycle that was edited or reads a stirred position keeps what it comes to. -/
theorem Edited.result?_eq_compute (step : w.Edited edited w₁) (renewed : w₁.Renewed announced w')
    (marked : ∀ p, w.OnCycle p → w.result? p = some .circular) (formula : w'.isFormula p = true)
    (free : ¬ w'.OnCycle p) (told : edited p ∨ ∃ u, w'.Reads p u ∧ Stirred w w' edited u) :
    w'.result? p = some (w'.compute p).outcome := by
  rw [renewed.sources.isFormula] at formula
  have apart : p ∉ w₁.plan.cyclic := fun cyclic =>
    free ((onCycle_congr renewed.sources).mpr (step.plain.mem_cyclic_iff.mp cyclic).2)
  rcases told with listed | ⟨u, reads, stirred⟩
  · have due : p ∈ w₁.due := step.mem_due.mpr ⟨.inl listed, formula⟩
    rcases w₁.orders_plan.covers p (mem_vertices_of_mem_due due) with ordered | cyclic
    · exact renewed.fresh p ordered (.inl due)
    · exact absurd cyclic apart
  · unfold Reads at reads
    rw [renewed.sources.dependencies] at reads
    rcases step.summoned_of_reads renewed reads
        (step.announced_of_stirred renewed marked stirred) with cyclic | ⟨ordered, summoned⟩
    · exact absurd cyclic apart
    · exact renewed.fresh p ordered summoned

/-- A formula on no cycle that was not edited and reads no stirred position keeps the result it
had. -/
theorem Edited.result?_eq (step : w.Edited edited w₁) (renewed : w₁.Renewed announced w')
    (free : ¬ w'.OnCycle p) (untouched : ¬ edited p)
    (quiet : ∀ u, w'.Reads p u → ¬ Stirred w w' edited u) : w'.result? p = w.result? p := by
  rw [← step.result? untouched]
  have reads : ∀ {u}, w₁.Reads p u → w'.Reads p u := fun reads => by
    unfold Reads
    rwa [renewed.sources.dependencies]
  refine renewed.kept p (fun cyclic => ?_) fun _ summoned => ?_
  · exact free ((onCycle_congr renewed.sources).mpr (step.plain.mem_cyclic_iff.mp cyclic).2)
  · rcases summoned with due | ⟨u, told, reader⟩
    · rcases (step.mem_due.mp due).1 with listed | ⟨u, listed, reader⟩
      · exact untouched listed
      · exact quiet u (reads reader) (.edited listed)
    · exact quiet u (reads reader) (step.stirred_of_announced renewed told)

/-- The result of a position that was not stirred is the same as before, unless it is the very one
it was before. -/
theorem Edited.sameResult_or_eq (step : w.Edited edited w₁) (renewed : w₁.Renewed announced w')
    (quiet : ¬ Stirred w w' edited q) : w.SameResult w' q ∨ w'.result? q = w.result? q := by
  by_cases cyclic : w'.OnCycle q
  · left
    by_contra other
    exact quiet (.stamped cyclic other)
  · by_cases told : ∃ u, w'.Reads q u ∧ Stirred w w' edited u
    · obtain ⟨u, reads, stirred⟩ := told
      left
      by_contra other
      exact quiet (.reads reads stirred other)
    · right
      refine step.result?_eq renewed cyclic (fun listed => quiet (.edited listed)) fun u reads => ?_
      exact fun stirred => told ⟨u, reads, stirred⟩

/-- A formula that is told nothing comes to what it came to before, if all that it reads keep the
results they had. -/
theorem Edited.compute_eq (calm : w.Calm) (step : w.Edited edited w₁)
    (renewed : w₁.Renewed announced w') (untouched : ¬ edited p)
    (unedited : ∀ u, w'.Reads p u → ¬ edited u)
    (results : ∀ u, w'.Reads p u → w'.result? u = w.result? u) : w'.compute p = w.compute p := by
  have sheets : SameSheets w w' := step.sheets.trans renewed.sources.toSameSheets
  have reads : ∀ {u}, w.Reads p u → w'.Reads p u := fun reads => by
    unfold Reads
    rw [renewed.sources.dependencies]
    exact (step.reads p untouched _).mpr reads
  have content : ∀ u, w'.Reads p u → w'.content u = w.content u := fun u reader => by
    rw [← step.content u (unedited u reader)]
    refine content_eq_of_result? renewed.sources ?_
    rw [results u reader, step.result? (unedited u reader)]
  have spills : w'.spills = w.spills := renewed.calm.spills.trans calm.spills.symm
  refine compute_congr calm.current calm.registered sheets ?_ (fun u reader => ?_) fun u reader => ?_
  · have cleared := congrArg (Option.map Formula.tree) (renewed.sources.formula? p)
    rw [formula?_eq w₁, step.content p untouched, ← formula?_eq w] at cleared
    simpa [Option.map_map, Function.comp_def, Formula.cleared] using cleared
  · rw [value_eq, value_eq, spills, content u (reads reader)]
  · rw [format_eq, format_eq, spills, content u (reads reader), renewed.sources.chosen,
      step.chosen]

/-- Formulas on cycles have their error after a change, and if results were exact before, they are
exact exactly if no formula was overlooked. -/
theorem Edited.circularExact_iff (calm : w.Calm) (step : w.Edited edited w₁)
    (renewed : w₁.Renewed announced w') (exact : w.CircularExact) :
    w'.CircularExact ↔ ∀ p, ¬ Overlooked w w' edited p := by
  have marked := exact.circular
  have circular : ∀ p, w'.OnCycle p → w'.result? p = some .circular := fun p cyclic =>
    renewed.circular p ((onCycle_congr renewed.sources).mp cyclic)
  constructor
  · intro exact' p overlooked
    obtain ⟨result, kept, alike⟩ := exact'.exact p overlooked.formula overlooked.free
    rw [step.result?_eq renewed overlooked.free overlooked.untouched overlooked.quiet] at kept
    exact overlooked.stale result kept alike
  · refine fun attentive => ⟨circular, fun p formula free => ?_⟩
    by_cases told : edited p ∨ ∃ u, w'.Reads p u ∧ Stirred w w' edited u
    · exact ⟨_, step.result?_eq_compute renewed marked formula free told, .inl rfl⟩
    · push Not at told
      obtain ⟨untouched, quiet⟩ := told
      have kept := step.result?_eq renewed free untouched quiet
      obtain ⟨result, found⟩ : ∃ result, w.result? p = some result := by
        obtain ⟨f, found⟩ := Option.isSome_iff_exists.mp formula
        exact ⟨_, kept.symm.trans (by rw [Workbook.result?, found]; rfl)⟩
      refine ⟨result, kept.trans found, ?_⟩
      by_contra stale
      refine attentive p ⟨formula, free, untouched, quiet, ?_, fun other found' => ?_⟩
      · -- Otherwise the formula would come to what it came to before.
        by_contra unmoved
        push Not at unmoved
        obtain ⟨never, still⟩ := unmoved
        have same : w'.compute p = w.compute p :=
          step.compute_eq calm renewed untouched (fun u reads listed => quiet u reads (.edited listed))
            fun u reads => (step.sameResult_or_eq renewed (quiet u reads)).elim (still u reads) id
        have before : w.isFormula p = true := by
          unfold isFormula at formula ⊢
          rw [← Option.isSome_map (f := fun f => Outcome.single f.value f.format)] at formula ⊢
          exact (congrArg Option.isSome kept).symm.trans formula
        obtain ⟨old, found', alike⟩ := exact.exact p before never
        rw [found] at found'
        rw [same, Option.some.inj found'] at stale
        exact stale alike
      · rw [found] at found'
        rwa [← Option.some.inj found']

/-! ### Runs -/

/-- A request that types or deletes content leaves a calm workbook in which formulas on cycles have
their error; results stay exact exactly if no formula is overlooked. -/
theorem Calm.after (calm : w.Calm) (marked : ∀ p, w.OnCycle p → w.result? p = some .circular)
    {request : Request} (typed : request.TypesContent)
    (singles : ∀ w₁, w.prepared request = some w₁ → w₁.EvaluatesSingles) :
    (w.after request).Calm ∧
      (∀ p, (w.after request).OnCycle p → (w.after request).result? p = some .circular) ∧
      (w.CircularExact → ((w.after request).CircularExact ↔
        ∀ p, ¬ Overlooked w (w.after request) (w.Edits request) p)) := by
  have change := calm.edited_prepared typed
  cases found : w.prepared request with
  | none =>
    rw [found] at change
    obtain ⟨same, _⟩ := change
    rw [same]
    refine ⟨calm, marked, fun exact => ⟨fun _ p overlooked => ?_, fun _ => exact⟩⟩
    obtain ⟨result, kept, alike⟩ := exact.exact p overlooked.formula overlooked.free
    exact overlooked.stale result kept alike
  | some w₁ =>
    rw [found] at change
    have step : w.Edited (w.Edits request) w₁ := change
    rw [after_eq, found]
    obtain ⟨announced, renewed⟩ := step.plain.renewed_recalculate (singles w₁ found)
      fun q cyclic idle => by
        have untouched : ¬ w.Edits request q := fun listed =>
          idle (step.mem_vertices listed cyclic.isFormula)
        rw [step.result? untouched, marked q (step.onCycle cyclic idle)]
    exact ⟨renewed.calm, fun p cyclic =>
      renewed.circular p ((onCycle_congr renewed.sources).mp cyclic),
      fun exact => step.circularExact_iff calm renewed exact⟩

/-- No formula comes to an array when requests are made one after the other. -/
def RunsSingly (w : Workbook) (requests : List Request) : Prop :=
  ∀ before request, before ++ [request] <+: requests →
    ∀ w₁, (w.afterAll before).prepared request = some w₁ → w₁.EvaluatesSingles

/-- While content is typed and deleted and no formula comes to an array, formulas on cycles have
their error after every request. All other formulas have what they come to, up to the signs of
zeros, exactly as long as no request overlooks a formula. -/
theorem circularExact_along_run_iff (calm : w.Calm) (exact : w.CircularExact)
    {requests : List Request} (typed : ∀ request ∈ requests, request.TypesContent)
    (singles : w.RunsSingly requests) :
    (∀ before, before <+: requests → ∀ p, (w.afterAll before).OnCycle p →
        (w.afterAll before).result? p = some .circular) ∧
      ((∀ before, before <+: requests → (w.afterAll before).CircularExact) ↔
        ∀ before request, before ++ [request] <+: requests → ∀ p,
          ¬ Overlooked (w.afterAll before) ((w.afterAll before).after request)
            ((w.afterAll before).Edits request) p) := by
  have typed' : ∀ before request, before ++ [request] <+: requests → request.TypesContent :=
    fun before request upTo => typed request (upTo.subset (by simp))
  have calm' : ∀ before, before <+: requests → (w.afterAll before).Calm ∧
      ∀ p, (w.afterAll before).OnCycle p → (w.afterAll before).result? p = some .circular := by
    intro before
    induction before using List.reverseRecOn with
    | nil => exact fun _ => ⟨calm, exact.circular⟩
    | append_singleton before request ih =>
      intro upTo
      obtain ⟨now, marked⟩ := ih ((List.prefix_append _ _).trans upTo)
      rw [afterAll_concat]
      have next := now.after marked (typed' before request upTo) (singles before request upTo)
      exact ⟨next.1, next.2.1⟩
  have step : ∀ before request, before ++ [request] <+: requests →
      (w.afterAll before).CircularExact →
        ((w.afterAll (before ++ [request])).CircularExact ↔
          ∀ p, ¬ Overlooked (w.afterAll before) ((w.afterAll before).after request)
            ((w.afterAll before).Edits request) p) := by
    intro before request upTo now
    obtain ⟨calm, marked⟩ := calm' before ((List.prefix_append _ _).trans upTo)
    rw [afterAll_concat]
    exact (calm.after marked (typed' before request upTo) (singles before request upTo)).2.2 now
  refine ⟨fun before upTo => (calm' before upTo).2, fun always => ?_, fun attentive => ?_⟩
  · intro before request upTo
    exact (step before request upTo (always before ((List.prefix_append _ _).trans upTo))).mp
      (always _ upTo)
  · intro before
    induction before using List.reverseRecOn with
    | nil => exact fun _ => exact
    | append_singleton before request ih =>
      intro upTo
      exact (step before request upTo (ih ((List.prefix_append _ _).trans upTo))).mpr
        (attentive before request upTo)

/-- A new workbook is calm. -/
theorem calm_new (settings : Settings) (functions : FunctionTable) :
    (new settings functions).Calm where
  current := upToDate_new settings functions
  registered := registered_new settings functions
  spills := rfl
  dirty := rfl
  changed := rfl

/-- A new workbook has no formulas, so all of them have their results. -/
theorem circularExact_new (settings : Settings) (functions : FunctionTable) :
    (new settings functions).CircularExact := by
  have blank : ∀ p, (new settings functions).isFormula p = false := fun p => by
    rw [isFormula, formula?, cell?_new]
    rfl
  refine ⟨fun p cyclic => ?_, fun p formula _ => ?_⟩
  · have formula := cyclic.isFormula
    rw [blank] at formula
    contradiction
  · rw [blank] at formula
    contradiction

/-- A formula typed into a new workbook that reads its own cell has the error of cycles. -/
theorem result?_of_typed_own_reference :
    ((new Settings.standard FunctionTable.empty).after (.setContent 0 0 0 "=A1")).result? ⟨0, 0, 0⟩ =
      some .circular := by
  let w := new Settings.standard FunctionTable.empty
  let w₁ := w.replaceContent ⟨0, 0, 0⟩ (.ofText "=A1")
  have inside : (w.sheet? 0).any (·.inBounds 0 0) = true := by decide +kernel
  have found : w.prepared (.setContent 0 0 0 "=A1") = some w₁ := by
    simp only [prepared, inside, if_true]
    rfl
  have references : ∀ p e, w₁.expr? p = some e → e.isReference = true := by
    intro p e tree
    have parsed : (Content.ofText "=A1").expr?.all Expr.isReference = true := by decide +kernel
    rw [expr?_replaceContent w _ p _ (by decide +kernel)] at tree
    split at tree
    · rwa [tree] at parsed
    · rw [expr?, content, cell?_new] at tree
      contradiction
  have singles : w.RunsSingly [.setContent 0 0 0 "=A1"] := by
    intro before request upTo w' prepared
    cases before with
    | nil =>
      obtain ⟨rfl, _⟩ := List.cons_prefix_cons.mp upTo
      rw [show w.afterAll [] = w from rfl, found] at prepared
      rw [← Option.some.inj prepared]
      exact evaluatesSingles_of_references references
    | cons first rest =>
      have short := upTo.length_le
      simp at short
  have typed : ∀ request ∈ [Request.setContent 0 0 0 "=A1"], request.TypesContent := by
    simp [Request.TypesContent]
  have run := circularExact_along_run_iff (calm_new Settings.standard FunctionTable.empty)
    (circularExact_new _ _) typed singles
  have cyclic : w₁.OnCycle ⟨0, 0, 0⟩ := .single ⟨by decide +kernel, by unfold Reads; decide +kernel⟩
  have after : w.after (.setContent 0 0 0 "=A1") = w₁.recalculate := by rw [after_eq, found]
  refine run.1 [.setContent 0 0 0 "=A1"] (List.prefix_refl _) ⟨0, 0, 0⟩ ?_
  show (w.after (.setContent 0 0 0 "=A1")).OnCycle _
  rw [after]
  exact (onCycle_congr w₁.sameSources_recalculate).mpr cyclic

end Workbook

end Spreadsheet
