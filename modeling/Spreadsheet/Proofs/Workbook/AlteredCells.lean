import Spreadsheet.Proofs.Workbook.SinglePasses

/-!
# Formulas evaluated for altered cells

Typing or deleting content and choosing formats marks the cells that are altered and the formulas
typed there. In a workbook without arrays and cycles one round is enough after that, as long as no
formula comes to an array in it, and it evaluates just the formulas that have cause to be.
-/
namespace Spreadsheet

/-- Where there are no records no anchor has a state. -/
theorem Spills.state?_of_isEmpty {s : Spills} (empty : s.records.isEmpty = true) (a : Position) :
    s.state? a = none := by
  show s.records[a]? = none
  rw [Std.ExtTreeMap.isEmpty_iff.mp empty]
  exact Std.ExtTreeMap.getElem?_empty

/-- The request types or deletes content, or chooses a format. -/
def Request.AltersCells : Request → Prop
  | .setContent _ _ _ _ => True
  | .deleteContent _ => True
  | .setFormat _ _ => True
  | _ => False

namespace Workbook

variable {w w₁ : Workbook} {p q : Position} {request : Request} {format : Option String}

/-! ### Altered cells -/

/-- A request chooses another format for a position than it has. -/
def Reformatted (w : Workbook) : Request → Position → Prop
  | .setFormat zones format, q => w.holds zones = true ∧ w.Reformats zones format q
  | _, _ => False

/-- What a request has marked that alters cells: the cells that have been altered, and the formulas
among those whose content was replaced. -/
structure Altered (w : Workbook) (request : Request) (w₁ : Workbook) : Prop where
  spills : w₁.spills = .empty
  indexed : w₁.dependencies.Indexed
  journal : w₁.journal = w.journal
  mem_dirty : ∀ q, q ∈ w₁.dirty ↔ w.Edits request q ∧ w₁.isFormula q = true
  mem_changed : ∀ q, q ∈ w₁.changed ↔ w.Edits request q ∨ w.Reformatted request q

/-- Choosing formats evaluates nothing. -/
theorem journal_formatted (w : Workbook) (positions : List Position) (format : Option String) :
    (w.formatted positions format).journal = w.journal :=
  formatted_induction (P := fun w' => w'.journal = w.journal) rfl fun w' p _ kept => by
    unfold chooseFormat
    split
    · exact kept
    · exact kept

/-- The positions with another format are marked as changed. -/
theorem mem_changed_formatted (w : Workbook) (positions : List Position) :
    q ∈ (w.formatted positions format).changed ↔
      q ∈ w.changed ∨ q ∈ positions ∧ w.chosen q ≠ format := by
  induction positions generalizing w with
  | nil => simp [formatted]
  | cons p rest ih =>
    have next : w.formatted (p :: rest) format = (w.chooseFormat p format).formatted rest format :=
      rfl
    rw [next, ih, List.mem_cons]
    by_cases old : w.chosen p = format
    · rw [show w.chooseFormat p format = w from if_pos old]
      refine or_congr_right (and_congr_left fun other => ⟨.inr, fun listed =>
        listed.resolve_left fun here => other (here ▸ old)⟩)
    · rw [mem_changed_chooseFormat old, or_assoc]
      refine or_congr_right ?_
      by_cases here : q = p
      · simp [here, old]
      · simp [here, chosen_chooseFormat w format here]

/-- What a request marks that alters cells. -/
theorem altered_prepared (idle : w.Idle) (bare : w.spills = .empty) (alters : request.AltersCells)
    (change : w.prepared request = some w₁) : w.Altered request w₁ := by
  have indexed := (prepares_of_prepared change).indexed idle.indexed
  have rewritten : request.TypesContent → w.Rewritten (w.Edits request) w₁ := fun typed =>
    prepared_edits (P := w.Rewritten) (rewritten_none bare idle.unmarked.1 idle.unmarked.2)
      (fun _ _ step => step.content)
      (fun _ _ _ content step exist => step.replaceContent content exist) typed change
  cases request with
  | setContent sheet row column text =>
    have step := rewritten trivial
    exact ⟨step.spills, indexed, step.journal, step.mem_dirty, fun q => by
      simp [step.mem_changed, Reformatted]⟩
  | deleteContent zones =>
    have step := rewritten trivial
    exact ⟨step.spills, indexed, step.journal, step.mem_dirty, fun q => by
      simp [step.mem_changed, Reformatted]⟩
  | setFormat zones format =>
    have held : w.holds zones = true := by
      by_contra refused
      rw [prepared, if_neg refused] at change
      contradiction
    rw [prepared, if_pos held] at change
    obtain rfl := Option.some.inj change
    refine ⟨?_, indexed, journal_formatted w _ format, fun q => ?_, fun q => ?_⟩
    · exact formatted_induction (P := fun w' => w'.spills = .empty) bare fun w' p _ kept =>
        (spills_chooseFormat w' p format).trans kept
    · rw [(formatting_formatted w _ format).dirty, idle.unmarked.1]
      simp [Edits]
    · rw [mem_changed_formatted, idle.unmarked.2]
      simp [Edits, Reformatted, Reformats, held, List.mem_flatMap, Zone.mem_positions]
  | _ => exact absurd alters not_false

/-- What is due after cells have been altered: the formulas typed, and those that read an altered
cell. -/
theorem Altered.mem_due_iff (altered : w.Altered request w₁) :
    p ∈ w₁.due ↔ w₁.isFormula p = true ∧ (w.Edits request p ∨
      ∃ q, (w.Edits request q ∨ w.Reformatted request q) ∧ w₁.Reads p q) := by
  rw [mem_due, altered.mem_dirty]
  simp only [altered.mem_changed, altered.indexed.mem_readersOf]
  constructor
  · rintro ⟨⟨edits, _⟩ | reads, formula⟩
    · exact ⟨formula, .inl edits⟩
    · exact ⟨formula, .inr reads⟩
  · rintro ⟨formula, edits | reads⟩
    · exact ⟨.inl ⟨edits, formula⟩, formula⟩
    · exact ⟨.inr reads, formula⟩

/-- A request that alters cells and is refused leaves everything as it is. -/
theorem after_eq_of_altersCells (alters : request.AltersCells)
    (refused : w.prepared request = none) :
    w.after request = w ∧ ∀ q, ¬ w.Edits request q ∧ ¬ w.Reformatted request q := by
  cases request with
  | setContent sheet row column text =>
    have typed : Request.TypesContent (.setContent sheet row column text) := trivial
    obtain ⟨same, none⟩ := edits_none typed refused
    exact ⟨same, fun q => ⟨none q, id⟩⟩
  | deleteContent zones =>
    have typed : Request.TypesContent (.deleteContent zones) := trivial
    obtain ⟨same, none⟩ := edits_none typed refused
    exact ⟨same, fun q => ⟨none q, id⟩⟩
  | setFormat zones format =>
    refine ⟨?_, fun q => ⟨id, fun reformatted => ?_⟩⟩
    · rw [after_eq, refused]
      rfl
    · simp [prepared, reformatted.1] at refused
  | _ => exact absurd alters not_false

/-! ### One pass -/

/-- The formula at a position keeps another value or format after the recalculation that a request
asks for than before. -/
def Renews (w : Workbook) (request : Request) (u : Position) : Prop :=
  ∃ w₁, w.prepared request = some w₁ ∧ ¬ w₁.SameResult (w.after request) u

/-- A recalculation has at most one round, whatever the limit, which leaves nothing marked. It
evaluates no formula twice, and just those whose content was replaced, that read an altered cell, or
that read a formula which it has evaluated and given another value or format. -/
structure OnePass (w : Workbook) (request : Request) : Prop where
  rounds : ∀ w₁, w.prepared request = some w₁ → ∀ limit, (w₁.roundsWithin limit).length ≤ 1
  unmarked : ∀ w₁, w.prepared request = some w₁ → ∀ limit, ∀ v ∈ w₁.roundsWithin limit,
    v.recalculateOnce.Unmarked
  ended : (w.after request).Unmarked
  evaluations : ∃ entries, (w.after request).journal = entries ++ w.journal ∧
    (evaluated entries).Nodup ∧ ∀ p, p ∈ evaluated entries ↔
      (w.after request).isFormula p = true ∧ (w.Edits request p ∨
        (∃ q, (w.Edits request q ∨ w.Reformatted request q) ∧ (w.after request).Reads p q) ∨
        ∃ u ∈ evaluated entries, (w.after request).Reads p u ∧ w.Renews request u)

/-- In a workbook that is attained nothing is marked, and dependencies are indexed. -/
theorem Attainable.idle (attained : w.Attainable) : w.Idle := by
  induction attained with
  | new settings functions => exact .new settings functions
  | register _ f idle => exact ⟨idle.unmarked, idle.indexed⟩
  | after _ request _ idle => exact idle.after request
  | pasteCells _ _ _ targets mode idle _ => exact idle.after _

/-- A request that is refused asks for no recalculation. -/
theorem onePass_of_refused (idle : w.Idle) (alters : request.AltersCells)
    (refused : w.prepared request = none) : w.OnePass request := by
  obtain ⟨same, none⟩ := after_eq_of_altersCells alters refused
  have absent : ∀ w₁, w.prepared request ≠ some w₁ := fun w₁ found => by
    rw [refused] at found
    contradiction
  refine ⟨fun w₁ found => absurd found (absent w₁), fun w₁ found => absurd found (absent w₁),
    ?_, [], ?_, .nil, fun p => ?_⟩
  · rw [same]
    exact idle.unmarked
  · rw [same]
    rfl
  · simp [evaluated, none]

/-- The formulas that have cause to be evaluated after cells have been altered. -/
theorem Altered.prompted_iff (altered : w.Altered request w₁) {w' : Workbook}
    (sources : SameSources w₁ w') {entries : List JournalEntry} :
    w₁.isFormula p = true ∧ w₁.Prompted entries w' p ↔
      w'.isFormula p = true ∧ (w.Edits request p ∨
        (∃ q, (w.Edits request q ∨ w.Reformatted request q) ∧ w'.Reads p q) ∨
        ∃ u ∈ evaluated entries, w'.Reads p u ∧ ¬ w₁.SameResult w' u) := by
  rw [Prompted, altered.mem_due_iff]
  simp only [sources.isFormula, sources.reads_iff]
  constructor
  · rintro ⟨formula, ⟨_, edits | reads⟩ | reads⟩
    · exact ⟨formula, .inl edits⟩
    · exact ⟨formula, .inr (.inl reads)⟩
    · exact ⟨formula, .inr (.inr reads)⟩
  · rintro ⟨formula, edits | reads | reads⟩
    · exact ⟨formula, .inl ⟨formula, .inl edits⟩⟩
    · exact ⟨formula, .inl ⟨formula, .inr reads⟩⟩
    · exact ⟨formula, .inr reads⟩

/-- In every workbook that is attained and has no arrays, one pass is enough after cells have been
altered, if no formula reads its own result then and none that is evaluated comes to an array. -/
theorem onePass_after (attained : w.Attainable) (bare : ∀ a, w.spills.state? a = none)
    (alters : request.AltersCells) (acyclic : ∀ p, ¬ (w.after request).OnCycle p)
    (singles : ∀ w₁, w.prepared request = some w₁ → w₁.EvaluatesSingles) : w.OnePass request := by
  cases change : w.prepared request with
  | none => exact onePass_of_refused attained.idle alters change
  | some w₁ =>
    have empty : w.spills = .empty := attained.built.sound.eq_empty bare
    have altered := altered_prepared attained.idle empty alters change
    have recalculated : w.after request = w₁.recalculate := by
      rw [after_eq, change]
    have sources : SameSources w₁ (w.after request) := recalculated ▸ w₁.sameSources_recalculate
    have free : ∀ p, ¬ w₁.OnCycle p := fun p cycle =>
      acyclic p ((onCycle_congr sources).mpr cycle)
    have straight : w₁.Straight := ⟨altered.indexed, altered.spills, free⟩
    obtain ⟨entries, once, journal, distinct, called⟩ :=
      straight.passed_recalculateOnce (singles w₁ change)
    have after : w.after request = w₁.recalculateOnce :=
      recalculated.trans (recalculate_eq_of_once once)
    have only : ∀ w₂, w.prepared request = some w₂ → ∀ limit, ∀ v ∈ w₂.roundsWithin limit,
        v = w₁ ∧ (w₂.roundsWithin limit).length = 1 := by
      intro w₂ found limit v starts
      obtain rfl := Option.some.inj (change.symm.trans found)
      exact eq_of_mem_roundsWithin once starts
    refine ⟨fun w₂ found limit => ?_, fun w₂ found limit v starts => ?_, ?_, entries, ?_, distinct,
      fun p => ?_⟩
    · cases starts : w₂.roundsWithin limit with
      | nil => exact Nat.zero_le 1
      | cons v rest =>
        have one := (only w₂ found limit v (by simp [starts])).2
        rw [← starts, one]
    · rwa [(only w₂ found limit v starts).1]
    · rwa [after]
    · rw [after, journal, altered.journal]
    · have renews : ∀ u, w.Renews request u ↔ ¬ w₁.SameResult (w.after request) u := fun u => by
        simp [Renews, change]
      rw [called, ← after, altered.prompted_iff sources]
      simp only [renews]

/-- A workbook in which `A1` shows `B1`. -/
def mirror : Workbook :=
  ((new Settings.standard FunctionTable.empty).replaceContent ⟨0, 0, 0⟩ (.ofText "=B1")).inTurn
    [⟨0, 0, 0⟩]

/-- When `B1` is to show `C1` one pass is enough for both. -/
theorem onePass_after_of_mirror :
    let request : Request := .setContent 0 0 1 "=C1"
    mirror.Attainable ∧ (∀ a, mirror.spills.state? a = none) ∧ request.AltersCells ∧
      (∀ p, ¬ (mirror.after request).OnCycle p) ∧
      (∀ w₁, mirror.prepared request = some w₁ → w₁.EvaluatesSingles) ∧
      mirror.OnePass request := by
  intro request
  let typed := mirror.replaceContent ⟨0, 0, 1⟩ (.ofText "=C1")
  have attained : mirror.Attainable :=
    (Attainable.new Settings.standard FunctionTable.empty).typed (by decide +kernel)
  have bare : ∀ a, mirror.spills.state? a = none :=
    Spills.state?_of_isEmpty (by decide +kernel)
  have inside : (mirror.sheet? 0).any (·.inBounds 0 1) = true := by decide +kernel
  have change : mirror.prepared request = some typed := if_pos inside
  have acyclic : ∀ p, ¬ (mirror.after request).OnCycle p := fun p cycle => by
    rw [after_eq, change, onCycle_congr typed.sameSources_recalculate] at cycle
    exact not_onCycle_of_ranked (List.idxOf · [⟨0, 0, 1⟩, ⟨0, 0, 0⟩]) (by decide +kernel) cycle
  have singles : ∀ w₁, mirror.prepared request = some w₁ → w₁.EvaluatesSingles := by
    intro w₁ found
    obtain rfl := Option.some.inj (change.symm.trans found)
    refine evaluatesSingles_of_references fun p e tree => ?_
    have references : ∀ q ∈ typed.formulaPositions,
        (typed.expr? q).all Expr.isReference = true := by decide +kernel
    have here := references p (mem_formulaPositions.mpr (isFormula_of_expr? tree))
    rwa [tree] at here
  exact ⟨attained, bare, trivial, acyclic, singles,
    onePass_after attained bare trivial acyclic singles⟩

/-! ### Arrays that come and go -/

/-- Every formula comes to a single value. -/
def ComesToSingles (w : Workbook) : Prop :=
  ∀ p, w.isFormula p = true → ∃ value format, (w.compute p).outcome = .single value format

/-- Whether all formulas come to single values can be found out. -/
theorem comesToSingles_of_all (all : (w.formulaPositions.all fun p =>
    match (w.compute p).outcome with
    | .single _ _ => true
    | .array _ _ => false) = true) : w.ComesToSingles := by
  intro p formula
  have here := List.all_eq_true.mp all p (mem_formulaPositions.mpr formula)
  cases outcome : (w.compute p).outcome with
  | single value format => exact ⟨value, format, rfl⟩
  | array values formats =>
    rw [outcome] at here
    contradiction

/-- A workbook in which recalculations have two rounds at most and `C1` tells whether `B1` is
true. -/
def switch : Workbook :=
  ((new { Settings.standard with rounds := 1 } FunctionTable.empty).replaceContent ⟨0, 0, 2⟩
    (.ofText "=IF(B1,TRUE,FALSE)")).inTurn [⟨0, 0, 2⟩]

/-- The workbook into whose cell `A1` an array was typed that is to spill into `B1` unless `C1`
tells that `B1` is true. -/
def switchTyped : Workbook :=
  switch.replaceContent ⟨0, 0, 0⟩ (.ofText "=IF(C1,FALSE,\x7bTRUE,TRUE\x7d)")

/-- The workbook when the array has been spilled. -/
def switchOn : Workbook := switchTyped.inTurn [⟨0, 0, 0⟩]

/-- The workbook when the array has been taken back because of `C1`. -/
def switchOff : Workbook := switchOn.inTurn [⟨0, 0, 2⟩, ⟨0, 0, 0⟩]

/-- The array is spilled in the first round and taken back in the second, the last one. -/
theorem rounds_switchTyped :
    switchTyped.rounds = [switchTyped, switchOn] ∧
      switchTyped.recalculate = switchOff.unmarked := by
  obtain ⟨limit, typed, chained, busy⟩ : switchTyped.settings.rounds + 1 = 2 ∧
      ¬ (switchTyped.dirty.isEmpty && switchTyped.changed.isEmpty) = true ∧
      switchTyped.Chained [⟨0, 0, 0⟩] ∧ switchTyped.due.isEmpty = false := by decide +kernel
  obtain ⟨spilled, chained', busy'⟩ :
      ¬ (switchOn.dirty.isEmpty && switchOn.changed.isEmpty) = true ∧
      switchOn.Chained [⟨0, 0, 2⟩, ⟨0, 0, 0⟩] ∧ switchOn.due.isEmpty = false := by decide +kernel
  have first : switchTyped.recalculateOnce = switchOn := chained.recalculateOnce busy
  have second : switchOn.recalculateOnce = switchOff := chained'.recalculateOnce busy'
  have rounds : switchTyped.roundsWithin 2 = [switchTyped, switchOn] := by
    simp only [roundsWithin, if_neg typed, first, if_neg spilled]
  refine ⟨by rw [Workbook.rounds, limit, rounds], ?_⟩
  rw [recalculate, limit, recalculateWithin_eq, rounds]
  show switchOn.recalculateOnce.unmarked = _
  rw [second]

/-- A workbook without arrays can be left without arrays and cycles after two rounds, in which a
formula has been evaluated twice: it came to an array first, and that made it come to a single value
then. -/
theorem not_onePass_switch :
    let request : Request := .setContent 0 0 0 "=IF(C1,FALSE,\x7bTRUE,TRUE\x7d)"
    switch.Attainable ∧ (∀ a, switch.spills.state? a = none) ∧ switch.ComesToSingles ∧
      request.AltersCells ∧ (∀ p, ¬ (switch.after request).OnCycle p) ∧
      (∀ a, (switch.after request).spills.state? a = none) ∧ (switch.after request).ComesToSingles ∧
      switch.prepared request = some switchTyped ∧ switchTyped.rounds.length = 2 ∧
      (evaluated (switch.after request).journal).count ⟨0, 0, 0⟩ = 2 ∧
      ¬ switch.OnePass request := by
  intro request
  obtain ⟨rounds, ended⟩ := rounds_switchTyped
  have attained : switch.Attainable :=
    (Attainable.new { Settings.standard with rounds := 1 } FunctionTable.empty).typed
      (by decide +kernel)
  have inside : (switch.sheet? 0).any (·.inBounds 0 0) = true := by decide +kernel
  have change : switch.prepared request = some switchTyped := if_pos inside
  have after : switch.after request = switchOff.unmarked := by
    rw [after_eq, change]
    exact ended
  refine ⟨attained, Spills.state?_of_isEmpty (by decide +kernel),
    comesToSingles_of_all (by decide +kernel), trivial, fun p => ?_, ?_, ?_, change,
    by rw [rounds]; rfl, ?_, fun pass => ?_⟩
  · rw [after]
    exact not_onCycle_of_ranked (List.idxOf · [⟨0, 0, 2⟩, ⟨0, 0, 0⟩]) (by decide +kernel)
  · rw [after]
    exact Spills.state?_of_isEmpty (by decide +kernel)
  · rw [after]
    exact comesToSingles_of_all (by decide +kernel)
  · rw [after]
    decide +kernel
  · have few := pass.rounds switchTyped change (switchTyped.settings.rounds + 1)
    rw [← Workbook.rounds, rounds] at few
    contradiction

end Workbook

end Spreadsheet
