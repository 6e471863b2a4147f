import Spreadsheet.Proofs.Workbook.AlertedFormulas
import Spreadsheet.Proofs.Workbook.MovedCells
import Spreadsheet.Proofs.Workbook.NamedSheets

/-!
# Who is alerted when a sheet changes

When a sheet is added or deleted, or its rows and columns are, nothing changes on the other sheets but
the trees of formulas with references to it, and these formulas are marked. Formulas that are not
marked lead to other sheets only, so they come to what they came to before.
-/
namespace Spreadsheet

/-- A request pastes nothing. -/
def Request.PastesNothing : Request → Prop
  | .paste _ _ => False
  | .pasteCells _ _ _ => False
  | _ => True

namespace Workbook

variable {w w' w'' : Workbook} {p q : Position} {id : SheetId}

/-- Away from one sheet nothing has changed between two workbooks but the trees of formulas that are
marked. -/
structure SameAway (id : SheetId) (w w' : Workbook) : Prop where
  functions : w'.functions = w.functions
  extent : ∀ other, other ≠ id → w'.extent? other = w.extent? other
  hasContent : ∀ q, q.sheet ≠ id → w'.hasContent q = w.hasContent q
  value : ∀ q, q.sheet ≠ id → w'.value q = w.value q
  format : ∀ q, q.sheet ≠ id → w'.format q = w.format q
  state : ∀ a, a.sheet ≠ id → w'.spills.state? a = w.spills.state? a
  dirty : ∀ p, p.sheet ≠ id → p ∈ w.dirty → p ∈ w'.dirty
  formula : ∀ p, p.sheet ≠ id → p ∈ w'.dirty ∨ w'.formula? p = w.formula? p

namespace SameAway

/-- Nothing changes between a workbook and itself. -/
theorem refl (id : SheetId) (w : Workbook) : SameAway id w w :=
  ⟨rfl, fun _ _ => rfl, fun _ _ => rfl, fun _ _ => rfl, fun _ _ => rfl, fun _ _ => rfl,
    fun _ _ marked => marked, fun _ _ => .inr rfl⟩

/-- What two steps leave as it was is as it was. -/
theorem trans (first : SameAway id w w') (second : SameAway id w' w'') : SameAway id w w'' where
  functions := second.functions.trans first.functions
  extent other away := (second.extent other away).trans (first.extent other away)
  hasContent q away := (second.hasContent q away).trans (first.hasContent q away)
  value q away := (second.value q away).trans (first.value q away)
  format q away := (second.format q away).trans (first.format q away)
  state a away := (second.state a away).trans (first.state a away)
  dirty p away marked := second.dirty p away (first.dirty p away marked)
  formula p away := by
    rcases second.formula p away with marked | same
    · exact .inl marked
    · exact (first.formula p away).imp (second.dirty p away) same.trans

/-- Nothing changes away from a sheet where the other sheets, their arrays and their marks stay. -/
theorem of_sheets (functions : w'.functions = w.functions)
    (sheets : ∀ other, other ≠ id → w'.sheet? other = w.sheet? other)
    (shown : ∀ q, q.sheet ≠ id → w.spills.ShowSame w'.spills q)
    (state : ∀ a, a.sheet ≠ id → w'.spills.state? a = w.spills.state? a)
    (dirty : ∀ p, p.sheet ≠ id → p ∈ w.dirty → p ∈ w'.dirty) : SameAway id w w' := by
  have cell : ∀ q : Position, q.sheet ≠ id → w'.cell? q = w.cell? q := fun q away => by
    unfold cell?
    rw [sheets q.sheet away]
  have content : ∀ q : Position, q.sheet ≠ id → w'.content q = w.content q := fun q away => by
    unfold Workbook.content
    rw [cell q away]
  have chosen : ∀ q : Position, q.sheet ≠ id → w'.chosen q = w.chosen q := fun q away => by
    unfold Workbook.chosen
    rw [cell q away]
  refine ⟨functions, fun other away => ?_, fun q away => ?_, fun q away => ?_, fun q away => ?_,
    state, dirty, fun p away => .inr ?_⟩
  · unfold extent?
    rw [sheets other away]
  · rw [hasContent_eq, hasContent_eq, content q away]
  · exact value_of_showSame (content q away) (shown q away)
  · exact format_of_showSame (content q away) (chosen q away) (shown q away)
  · rw [formula?_eq, formula?_eq, content p away]

/-- Nothing changes away from a sheet when formulas are redirected, if those that change are marked
there. -/
theorem redirectFormulas (w : Workbook) (redirect : SheetId → Expr → Option Expr)
    {marked : List Position} (every : ∀ p ∈ w.redirected redirect, p.sheet ≠ id → p ∈ marked) :
    SameAway id w ((w.redirectFormulas redirect).markDirty marked) := by
  have content := fun q => content_redirectFormulas w redirect q
  refine ⟨rfl, fun other _ => extent?_redirectFormulas w redirect other, fun q _ => ?_, fun q _ => ?_,
    fun q _ => ?_, fun _ _ => rfl, fun p _ marked => PositionSet.mem_insertMany.mpr (.inl marked),
    fun p away => ?_⟩
  · show (w.redirectFormulas redirect).hasContent q = _
    rw [hasContent_eq, hasContent_eq, content, Content.isEmpty_mapFormula]
  · show (w.redirectFormulas redirect).value q = _
    rw [value_eq, value_eq, content]
    cases w.content q with
    | empty => rfl
    | literal typed v => rfl
    | formula f =>
      simp only [Content.mapFormula]
      cases f.expr?.bind (redirect q.sheet) <;> rfl
  · show (w.redirectFormulas redirect).format q = _
    rw [format_eq, format_eq, content, chosen_redirectFormulas]
    cases w.content q with
    | empty => rfl
    | literal typed v => rfl
    | formula f =>
      simp only [Content.mapFormula]
      cases f.expr?.bind (redirect q.sheet) <;> rfl
  · show _ ∨ (w.redirectFormulas redirect).formula? p = w.formula? p
    rw [formula?_eq, content, Content.formula?_mapFormula, ← formula?_eq]
    cases found : w.formula? p with
    | none => exact .inr rfl
    | some f =>
      cases changed : f.expr?.bind (redirect p.sheet) with
      | none =>
        right
        simp [changed]
      | some e =>
        left
        refine PositionSet.mem_insertMany.mpr (.inr (every p ?_ away))
        exact List.mem_filterMap.mpr ⟨(p, f), mem_formulas.mpr found, by simp [changed]⟩

/-- What is away from a sheet depends on sheets, arrays and functions only, as long as no mark is
lost. -/
theorem congr (same : SameAway id w w') (functions : w''.functions = w'.functions)
    (sheets : w''.sheets = w'.sheets) (spills : w''.spills = w'.spills)
    (dirty : ∀ p, p ∈ w'.dirty → p ∈ w''.dirty) : SameAway id w w'' := by
  refine same.trans (of_sheets functions (fun _ _ => ?_) (fun _ _ => ?_) (fun _ _ => ?_) fun p _ =>
    dirty p)
  · unfold sheet?
    rw [sheets]
  · rw [spills]
    exact ⟨rfl, rfl, rfl⟩
  · rw [spills]

/-- Recording dependencies anew and marking changes nothing else. -/
theorem recorded (same : SameAway id w w') (positions : List Position) :
    SameAway id w (w'.rebuildDependencies.markDirty positions) :=
  same.congr rfl rfl rfl fun _ marked => PositionSet.mem_insertMany.mpr (.inl marked)

/-- Forgetting the results of a sheet changes nothing on the others. -/
theorem forgetResults (sound : w.spills.Sound) (id : SheetId) : SameAway id w (w.forgetResults id) :=
  of_sheets rfl (fun _ _ => rfl) (fun _ away => sound.showSame_clearSheet away)
    (fun a away => (Spills.state?_clearSheet w.spills id a).trans (if_neg away))
    fun _ away marked => PositionSet.mem_filter.mpr ⟨marked, bne_iff_ne.mpr away⟩

/-- A shift changes nothing on other sheets but formulas that it marks. -/
theorem applyShift (w : Workbook) (s : Shift) : SameAway s.sheet w (w.applyShift s) := by
  have moved : SameAway s.sheet w (w.updateSheet s.sheet (moveCells s)) :=
    of_sheets rfl (fun other away => by rw [sheet?_updateSheet, if_neg away])
      (fun _ _ => ⟨rfl, rfl, rfl⟩) (fun _ _ => rfl) fun _ _ marked => marked
  exact moved.trans (redirectFormulas _ _ fun p listed away =>
    List.mem_filter.mpr ⟨listed, bne_iff_ne.mpr away⟩)

/-- Restructuring a sheet changes nothing on the others but formulas that are marked. -/
theorem restructure (sound : w.spills.Sound) {shifts : List Shift} (own : ∀ s ∈ shifts, s.sheet = id) :
    SameAway id w (w.restructure id shifts) := by
  have shifted : ∀ w₀ : Workbook, w₀.spills.Sound →
      SameAway id w₀ (shifts.foldl Workbook.applyShift (w₀.forgetResults id)) := fun w₀ sound =>
    List.foldlRecOn shifts Workbook.applyShift (motive := SameAway id w₀) (forgetResults sound id)
      fun w' same s listed => same.trans (by rw [← own s listed]; exact applyShift w' s)
  let w₀ := { w with clipboard := w.clipboard.filter fun c => !shifts.any fun s => c.isEndedBy s }
  have clipped : SameAway id w w₀ := (refl id w).congr rfl rfl rfl fun _ marked => marked
  exact (clipped.trans (shifted w₀ sound)).recorded _

/-- A formula on another sheet that is not marked is not disturbed, if its references lead to the same
sheets as before and not to the one that has changed. -/
theorem undisturbed (same : SameAway id w w') (grounded : w.Grounded) (grounded' : w'.Grounded)
    (sound : w.spills.Sound) (away : p.sheet ≠ id) (unmarked : p ∉ w'.dirty)
    (led : ∀ e, w.expr? p = some e → ∀ target ∈ e.references,
      w'.registry.resolve target.sheet p.sheet = w.registry.resolve target.sheet p.sheet ∧
        w.registry.resolve target.sheet p.sheet ≠ some id) : Undisturbed w w' p := by
  have formula := (same.formula p away).resolve_left unmarked
  have tree : w'.expr? p = w.expr? p := by rw [expr?_eq, expr?_eq, formula]
  have resolve : ∀ e, w.expr? p = some e → ∀ target ∈ e.references,
      w'.resolve target p.sheet = w.resolve target p.sheet := fun e found target listed => by
    obtain ⟨named, elsewhere⟩ := led e found target listed
    refine resolve_congr_of_sheet named fun other leads => same.extent other fun here => elsewhere ?_
    rw [leads, here]
  have zones : w'.dependencies.zonesOf p = w.dependencies.zonesOf p := by
    rw [grounded'.current.zonesOf, grounded.current.zonesOf, zonesNow, zonesNow, tree]
    cases found : w.expr? p with
    | none => rfl
    | some e =>
      refine congrArg sortedZones (List.filterMap_congr fun target listed => ?_)
      rw [resolve e found target listed]
  -- What the formula reads lies on other sheets too.
  have read : ∀ q, w.Reads p q → q.sheet ≠ id := by
    rintro q ⟨zone, listed, inside⟩ here
    rw [grounded.current.zonesOf, zonesNow] at listed
    cases found : w.expr? p with
    | none => simp [found] at listed
    | some e =>
      rw [found] at listed
      obtain ⟨target, member, leads⟩ := mem_zonesRead.mp (mem_sortedZones.mp listed)
      refine (led e found target member).2 ?_
      rw [resolve_registry_of_resolve leads, ← (Zone.contains_iff.mp inside).1, here]
  refine ⟨fun q => ?_, ?_, ?_, same.state p away, fun zone here _ held => ?_⟩
  · unfold Reads
    rw [zones]
  · exact compute_congr_of_resolve grounded.current grounded.registered grounded'.registered
      same.functions (by rw [formula]) resolve (fun q reads => same.value q (read q reads))
      fun q reads => same.format q (read q reads)
  · unfold result?
    rw [formula]
  · have within : ∀ q, zone.contains q = true → q.sheet ≠ id := fun q inside => by
      rwa [(Zone.contains_iff.mp inside).1, here]
    refine held.mono (same.extent _ (by rwa [here])) (fun q inside filled => ?_)
      fun b other q _ active inside' inside => ⟨other, ?_, inside'⟩
    · rw [same.hasContent q (within q inside), filled]
    · have sheets := (Zone.contains_iff.mp inside').1.trans (sound.sheet_eq active)
      rw [Spills.activeZone?_congr (same.state b (sheets ▸ within q inside)), active]

/-- Where nothing was marked, everything that is disturbed is alerted if the formulas that are not
marked are on other sheets and lead to the same sheets as before, and not to the one that has
changed. -/
theorem alerts (same : SameAway id w w') (grounded : w.Grounded) (grounded' : w'.Grounded)
    (sound : w.spills.Sound) (unmarked : w.Unmarked)
    (spared : ∀ p, w'.isFormula p = true → p ∉ w'.dirty → p.sheet ≠ id)
    (led : ∀ p e, w'.isFormula p = true → p ∉ w'.dirty → w'.expr? p = some e →
      w.expr? p = some e → ∀ target ∈ e.references,
        w'.registry.resolve target.sheet p.sheet = w.registry.resolve target.sheet p.sheet ∧
          w.registry.resolve target.sheet p.sheet ≠ some id) : Alerts w w' where
  alerted p _ alerted := by
    rcases alerted with dirty | ⟨q, changed, _⟩
    · rw [unmarked.1] at dirty
      exact absurd dirty Std.ExtTreeSet.not_mem_empty
    · rw [unmarked.2] at changed
      exact absurd changed Std.ExtTreeSet.not_mem_empty
  others p formula := by
    refine or_iff_not_imp_left.mpr fun quiet => ?_
    have clean : p ∉ w'.dirty := fun marked => quiet (.inl marked)
    have away := spared p formula clean
    have tree : w'.expr? p = w.expr? p := by
      rw [expr?_eq, expr?_eq, (same.formula p away).resolve_left clean]
    exact same.undisturbed grounded grounded' sound away clean fun e found =>
      led p e formula clean (tree.trans found) found

end SameAway

/-- A formula mentions a sheet if a reference of it names the sheet. -/
theorem mentionsSheet_iff :
    w.mentionsSheet p id = true ↔
      ∃ e, w.expr? p = some e ∧ ∃ target ∈ e.references,
        w.registry.resolve target.sheet p.sheet = some id := by
  unfold mentionsSheet
  rw [← expr?_eq]
  simp [Option.any_eq_true]

/-- Inserting or deleting lines of a sheet alerts the formulas on it and those with references to
it. -/
theorem alerts_restructure (grounded : w.Grounded) (sound : w.spills.Sound) (unmarked : w.Unmarked)
    {shifts : List Shift} (own : ∀ s ∈ shifts, s.sheet = id)
    (grounded' : (w.restructure id shifts).Grounded) : Alerts w (w.restructure id shifts) := by
  have registry : (w.restructure id shifts).registry = w.registry :=
    (SameNumbers.restructure w id shifts).registry
  -- A formula on the sheet, or one that mentions it, is marked at the end.
  have spared : ∀ p, (w.restructure id shifts).isFormula p = true →
      p ∉ (w.restructure id shifts).dirty →
        p.sheet ≠ id ∧ (w.restructure id shifts).mentionsSheet p id ≠ true := fun p formula clean => by
    refine not_or.mp fun reached => clean (PositionSet.mem_insertMany.mpr (.inr ?_))
    refine List.mem_filter.mpr ⟨mem_formulaPositions.mpr formula, ?_⟩
    rw [Bool.or_eq_true, beq_iff_eq]
    exact reached
  refine (SameAway.restructure sound own).alerts grounded grounded' sound unmarked
    (fun p formula clean => (spared p formula clean).1) fun p e formula clean tree _ target listed => ?_
  refine ⟨by rw [registry], fun leads => (spared p formula clean).2 ?_⟩
  rw [mentionsSheet_iff, registry]
  exact ⟨e, tree, target, listed, leads⟩

/-- Adding a sheet alerts the formulas with references to it. -/
theorem alerts_insertSheet (grounded : w.Grounded) (sound : w.spills.Sound) (unmarked : w.Unmarked)
    {name : String} {rows columns : Nat} (few : (w.registry.add name).names.length ≤ sheetIdBound)
    (grounded' : ((w.insertSheet name rows columns).rebuildDependencies.markMentions
      w.registry.nextId).Grounded) :
    Alerts w ((w.insertSheet name rows columns).rebuildDependencies.markMentions
      w.registry.nextId) := by
  have inserted : SameAway w.registry.nextId w (w.insertSheet name rows columns) := by
    refine .of_sheets rfl (fun other away => ?_) (fun _ _ => ⟨rfl, rfl, rfl⟩) (fun _ _ => rfl)
      fun _ _ marked => marked
    unfold sheet? insertSheet
    dsimp only
    rw [Std.ExtTreeMap.getElem?_insert,
      if_neg fun here => away (Std.LawfulEqOrd.eq_of_compare here).symm]
  have spared : ∀ p, (w.insertSheet name rows columns).isFormula p = true →
      p.sheet ≠ w.registry.nextId := fun p formula here => by
    rw [isFormula, formula?_eq, content_insertSheet, if_pos here] at formula
    contradiction
  refine (inserted.recorded _).alerts grounded grounded' sound unmarked
    (fun p formula _ => spared p formula) fun p e formula clean tree _ target listed => ?_
  have elsewhere : (w.registry.add name).resolve target.sheet p.sheet ≠ some w.registry.nextId := by
    refine fun leads => clean (PositionSet.mem_insertMany.mpr (.inr (List.mem_filter.mpr ⟨?_, ?_⟩)))
    · exact mem_formulaPositions.mpr formula
    · exact mentionsSheet_iff.mpr ⟨e, tree, target, listed, leads⟩
  have same := Registry.resolve_add few elsewhere
  exact ⟨same, same ▸ elsewhere⟩

/-- A formula that stays when references to a name are lost has no reference to that name. -/
theorem key_ne_of_not_mem_redirected {name : String} {e : Expr}
    (tree : w.expr? p = some e) (spared : p ∉ w.redirected fun _ e => e.invalidate? name)
    {target : Reference} (listed : target ∈ e.references) {own : String}
    (qualified : target.sheet = some own) : Registry.key own ≠ Registry.key name := by
  intro same
  rw [expr?_eq] at tree
  obtain ⟨f, formula, parsed⟩ := Option.bind_eq_some_iff.mp tree
  refine spared (List.mem_filterMap.mpr ⟨(p, f), mem_formulas.mpr formula, ?_⟩)
  have changes : (e.references.any fun target =>
      (if target.sheet.any (Text.sameIgnoringCase · name) then Fate.isLost else .stays).changes
        target) = true := by
    refine List.any_eq_true.mpr ⟨target, listed, ?_⟩
    have alike : Text.sameIgnoringCase own name = true := beq_iff_eq.mpr same
    rw [qualified, Option.any_some, if_pos alike]
    rfl
  simp only [parsed, Option.bind_some, Expr.invalidate?, Expr.redirect?, changes, if_true,
    Option.map_some]

/-- Deleting a sheet alerts the formulas with references to it. -/
theorem alerts_eraseSheet (grounded : w.Grounded) (sound : w.spills.Sound) (unmarked : w.Unmarked)
    (faithful : w.registry.Faithful) {name : String} (known : w.registry.id? name = some id)
    (grounded' : ((w.eraseSheet id).redirectAndMark fun _ e =>
      e.invalidate? ((w.registry.name? id).getD name)).Grounded) :
    Alerts w ((w.eraseSheet id).redirectAndMark fun _ e =>
      e.invalidate? ((w.registry.name? id).getD name)) := by
  obtain ⟨own, named, _⟩ := faithful.exists_name id name known
  rw [named, Option.getD_some] at grounded' ⊢
  have erased : SameAway id w (w.eraseSheet id) := by
    refine .of_sheets rfl (fun other away => ?_) (fun _ away => sound.showSame_clearSheet away)
      (fun a away => (Spills.state?_clearSheet w.spills id a).trans (if_neg away))
      fun _ away marked => PositionSet.mem_filter.mpr ⟨marked, bne_iff_ne.mpr away⟩
    unfold sheet? Workbook.eraseSheet Workbook.forgetResults
    dsimp only
    rw [Std.ExtTreeMap.getElem?_erase,
      if_neg fun here => away (Std.LawfulEqOrd.eq_of_compare here).symm]
  have redirected : SameAway id w ((w.eraseSheet id).redirectAndMark fun _ e => e.invalidate? own) :=
    (erased.trans (SameAway.redirectFormulas _ _ fun _ listed _ => listed)).congr rfl rfl rfl
      fun _ marked => marked
  have spared : ∀ p, ((w.eraseSheet id).redirectFormulas fun _ e => e.invalidate? own).isFormula p =
      true → p.sheet ≠ id := fun p formula here => by
    rw [isFormula, formula?_eq, content_redirectFormulas, content_eraseSheet, if_pos here] at formula
    contradiction
  refine redirected.alerts grounded grounded' sound unmarked
    (fun p formula _ => spared p formula) fun p e formula clean _ tree target listed => ?_
  have away := spared p formula
  refine faithful.resolve_remove named away fun other qualified => ?_
  have kept : (w.eraseSheet id).expr? p = some e := by
    rw [expr?, content_eraseSheet, if_neg away]
    exact tree
  refine key_ne_of_not_mem_redirected kept (fun changed => clean ?_) listed qualified
  exact PositionSet.mem_insertMany.mpr (.inr changed)

/-! ### Requests -/

/-- A request that pastes nothing alerts whom it disturbs. -/
theorem Prepares.alerts {request : Request} (prepares : w.Prepares request w')
    (inPlace : request.PastesNothing) (grounded : w.Grounded) (grounded' : w'.Grounded)
    (ready : w.Ready) (named : w.Named) (unmarked : w.Unmarked)
    (few : w'.registry.names.length ≤ sheetIdBound) : Alerts w w' := by
  have sound := ready.arranged.exclusive.toSound
  cases prepares with
  | addSheet => exact alerts_insertSheet grounded sound unmarked few grounded'
  | deleteSheet known =>
    exact alerts_eraseSheet grounded sound unmarked named.faithful known grounded'
  | setContent found =>
    exact alerts_replaceContent grounded sound (by rw [found]; rfl) _
  | deleteContent => exact alerts_emptied grounded ready _
  | setFormat => exact alerts_formatted grounded _ _
  | reevaluate => exact alerts_markDirty w _
  | flush => exact .refl w
  | insertLines =>
    exact alerts_restructure grounded sound unmarked
      (fun s listed => by rw [List.mem_singleton.mp listed]) grounded'
  | deleteLines =>
    refine alerts_restructure grounded sound unmarked (fun s listed => ?_) grounded'
    obtain ⟨_, _, rfl⟩ := List.mem_map.mp listed
    rfl
  | paste => exact inPlace.elim
  | move => exact inPlace.elim
  | pasteCells => exact inPlace.elim

end Workbook

end Spreadsheet
