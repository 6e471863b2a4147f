import Spreadsheet.Proofs.Workbook.ScheduledRounds
import Spreadsheet.Proofs.Workbook.SettledRuns

/-!
# Citations along runs

Typing and deleting content marks the anchors that are blocked around it and around the zones that are
given up, so a recalculation that ends in time leaves every blocked anchor with a right citation. What
an error names need not be the first position that is taken: nobody is told when an array is claimed,
and an array that is claimed later may cover an earlier position.
-/
namespace Spreadsheet

namespace Workbook

variable {w w' : Workbook} {a p q : Position} {zone : Zone} {request : Request}

/-- Replacing content marks the blocked anchors whose citations it might spoil. -/
theorem Citing.replaceContent (citing : w.Citing) (p : Position) (content : Content) :
    (w.replaceContent p content).Citing := by
  intro a zone blocked
  rw [spills_replaceContent, Spills.state?_release] at blocked
  split at blocked
  · contradiction
  rename_i other
  rcases citing a zone blocked with dirty | citation
  · exact .inl (mem_dirty_replaceContent.mpr
      (.inr ⟨other, .inl (mem_dirty_releaseArray.mpr (.inl dirty))⟩))
  refine or_iff_not_imp_left.mpr fun clean => ?_
  have apart := fun u inside => apart_of_blocked (u := u) other blocked inside clean
  have elsewhere : ∀ q, q ≠ p → (w.replaceContent p content).content q = w.content q :=
    fun q different => by rw [content_replaceContent, if_neg fun both => different both.1]
  have spares : Spares w (w.replaceContent p content) a zone := by
    refine .of_release (spills_replaceContent w p content) (journal_replaceContent w p content)
      (fun u inside => ?_) fun given u active inside => (apart u inside).2 given active
    rw [hasContent_eq, hasContent_eq, elsewhere u (apart u inside).1]
  refine spares.citation citation ?_
  unfold result?
  rw [formula?_eq, formula?_eq, elsewhere a other]

/-- A workbook between requests: its dependencies, names of sheets and arrays are in order, and every
blocked anchor rightly cites what its claim met. -/
structure Attested (w : Workbook) : Prop where
  grounded : w.Grounded
  arranged : w.Arranged fun _ => False
  cited : ∀ a zone, w.spills.state? a = some (.blocked zone) → w.Citation a zone

namespace Attested

/-- A workbook is ready for a recalculation when content has been typed or deleted in it. -/
theorem prepares (attested : w.Attested) (types : request.TypesContent)
    (prepares : w.Prepares request w') : w'.Grounded ∧ w'.Ready ∧ w'.Citing := by
  have start : w.Grounded ∧ w.Ready ∧ w.Citing :=
    ⟨attested.grounded, .of_arranged attested.arranged, fun a zone blocked =>
      .inr (attested.cited a zone blocked)⟩
  have replaced : ∀ (w : Workbook) p content, (w.sheet? p.sheet).isSome = true →
      w.Grounded ∧ w.Ready ∧ w.Citing → (w.replaceContent p content).Grounded ∧
        (w.replaceContent p content).Ready ∧ (w.replaceContent p content).Citing :=
    fun w p content exist kept => ⟨kept.1.replaceContent exist content,
      kept.2.1.replaceContent p content, kept.2.2.replaceContent p content⟩
  cases prepares with
  | @setContent sheet row column text s found inside =>
    exact replaced w ⟨sheet, row, column⟩ (.ofText text) (by rw [found]; rfl) start
  | @deleteContent zones held =>
    exact emptied_induction (P := fun w => w.Grounded ∧ w.Ready ∧ w.Citing) start
      (fun w p filled => replaced w p .empty (isSome_sheet?_of_hasContent filled)) _
  | _ => contradiction

/-- A request that types or deletes content leaves citations right if its recalculation ends. -/
theorem after (attested : w.Attested) (types : request.TypesContent)
    (ends : ∀ w', w.prepared request = some w' → w'.RecalculationEnds) :
    (w.after request).Attested := by
  rw [after_eq]
  cases change : w.prepared request with
  | none =>
    have same : w.clipped request = w := by
      cases request with
      | copy => exact types.elim
      | cut => exact types.elim
      | _ => rfl
    dsimp only
    rw [same]
    exact attested
  | some w' =>
    obtain ⟨grounded, ready, citing⟩ := attested.prepares types (prepares_of_prepared change)
    exact ⟨grounded.of_sources w'.sameSources_recalculate, arranged_recalculate ready.arranged,
      fun _ _ => citing.recalculateWithin _ grounded ready.arranged (ends w' change)⟩

end Attested

/-- In a new workbook no anchor is blocked. -/
theorem attested_new (settings : Settings) (functions : FunctionTable) :
    (new settings functions).Attested where
  grounded := (quiet_new settings functions).grounded
  arranged := (quiet_new settings functions).rest.arranged
  cited a zone blocked := by
    rw [show (new settings functions).spills = .empty from rfl, Spills.state?_empty] at blocked
    contradiction

/-- Every recalculation ends before its rounds run out when requests are made one after the other. -/
def RecalculationsEnd (w : Workbook) (requests : List Request) : Prop :=
  ∀ before request, before ++ [request] <+: requests →
    ∀ w', (w.afterAll before).prepared request = some w' → w'.RecalculationEnds

/-- Requests that type and delete content leave citations right if their recalculations end. -/
theorem Attested.afterAll (attested : w.Attested) {requests : List Request}
    (types : ∀ request ∈ requests, request.TypesContent) (ends : w.RecalculationsEnd requests) :
    (w.afterAll requests).Attested := by
  induction requests using List.reverseRecOn with
  | nil => exact attested
  | append_singleton before request ih =>
    rw [afterAll_concat]
    have earlier := ih (fun request' listed => types request' (List.mem_append_left _ listed))
      fun start next upTo => ends start next (upTo.trans (List.prefix_append _ _))
    exact earlier.after (types request (by simp)) (ends before request (List.prefix_refl _))

/-- In a run from a new workbook that types and deletes content, with recalculations that end before
their rounds run out, a position that the error of a blocked anchor names is rightly cited: it is
taken, and nothing is typed before it in the zone. It is the first position taken exactly if no
formula that has been evaluated since has claimed an array over an earlier one. -/
theorem firstOccupied_iff_along_run (settings : Settings) (functions : FunctionTable)
    {requests : List Request} (types : ∀ request ∈ requests, request.TypesContent)
    (ends : (new settings functions).RecalculationsEnd requests)
    (blocked : ((new settings functions).afterAll requests).spills.state? a = some (.blocked zone))
    (names : ((new settings functions).afterAll requests).ErrorNames a q) :
    ((new settings functions).afterAll requests).Cites a zone q ∧
      (((new settings functions).afterAll requests).FirstOccupied a zone q ↔
        ¬ ((new settings functions).afterAll requests).Overtaken a zone q) := by
  have attested := (attested_new settings functions).afterAll types ends
  have cites := (attested.cited a zone blocked).cites names
  exact ⟨cites, cites.firstOccupied_iff⟩

/-! ### A zone claimed later -/

/-- Content that is typed is settled by one round if that round leaves nothing marked. -/
theorem after_of_typed {sheet : SheetId} {row column : Nat} {text : String}
    (inside : (w.sheet? sheet).any (·.inBounds row column) = true)
    (once : (w.replaceContent ⟨sheet, row, column⟩ (.ofText text)).recalculateOnce = w')
    (unmarked : w'.Unmarked) :
    w.after (.setContent sheet row column text) = w' ∧
      ∀ v, w.prepared (.setContent sheet row column text) = some v → v.RecalculationEnds := by
  have prepared : w.prepared (.setContent sheet row column text) =
      some (w.replaceContent ⟨sheet, row, column⟩ (.ofText text)) := if_pos inside
  refine ⟨?_, fun v found => ?_⟩
  · rw [after_eq, prepared]
    exact (recalculate_eq_of_once (once.symm ▸ unmarked)).trans once
  · rw [← Option.some.inj (prepared.symm.trans found)]
    refine .inr ?_
    rw [once]
    exact unmarked.endsWithin _

/-- Text is typed on a sheet, and the round that follows is the turns of a chain and leaves nothing
marked. -/
def ChainSettles (w : Workbook) (p : Position) (text : String) (order : List Position) : Prop :=
  let typed := w.replaceContent p (.ofText text)
  (w.sheet? p.sheet).any (·.inBounds p.row p.column) = true ∧ typed.Chained order ∧
    typed.due.isEmpty = false ∧
    ((typed.inTurn order).dirty.isEmpty && (typed.inTurn order).changed.isEmpty) = true

instance (w : Workbook) (p : Position) (text : String) (order : List Position) :
    Decidable (w.ChainSettles p text order) :=
  inferInstanceAs (Decidable (_ ∧ _ ∧ _ ∧ _))

/-- After text has been typed that a chain settles, the workbook is what the turns of the chain
leave. -/
theorem ChainSettles.after {sheet : SheetId} {row column : Nat} {text : String}
    {order : List Position} (settles : w.ChainSettles ⟨sheet, row, column⟩ text order) :
    w.after (.setContent sheet row column text) =
      (w.replaceContent ⟨sheet, row, column⟩ (.ofText text)).inTurn order := by
  obtain ⟨inside, chained, busy, unmarked⟩ := settles
  exact (after_of_typed inside (chained.recalculateOnce busy) (unmarked_iff.mpr unmarked)).1

/-- The recalculations of a run end if that of its first request does and those of the others do. -/
theorem RecalculationsEnd.cons {requests : List Request}
    (first : ∀ w', w.prepared request = some w' → w'.RecalculationEnds)
    (rest : (w.after request).RecalculationsEnd requests) :
    w.RecalculationsEnd (request :: requests) := by
  intro before next upTo
  cases before with
  | nil =>
    obtain ⟨rfl, _⟩ := List.cons_prefix_cons.mp upTo
    exact first
  | cons head before =>
    obtain ⟨rfl, within⟩ := List.cons_prefix_cons.mp upTo
    exact rest before next within

/-- A text in `B3`, an array in `A2` that meets it, and an array in `B1` that takes `B2`. -/
def overtakingRun : List Request :=
  [.setContent 0 2 1 "x", .setContent 0 1 0 "=\x7b1,2;3,4\x7d", .setContent 0 0 1 "=\x7b5;6\x7d"]

/-- A formula names a position if it keeps an error of the wording, without a format. -/
theorem errorNames_of_same (rows columns : Nat) (here : q.sheet = a.sheet)
    (kept : (w.formula? a).any (fun f =>
      f.value.same (.error (.ofCollision (.content q) rows columns)) && f.format.isNone) = true) :
    w.ErrorNames a q := by
  cases found : w.formula? a with
  | none =>
    rw [found] at kept
    contradiction
  | some f =>
    rw [found, Option.any_some, Bool.and_eq_true, Option.isNone_iff_eq_none] at kept
    refine ⟨here, rows, columns, ?_⟩
    have value : f.value = .error (.ofCollision (.content q) rows columns) := by
      cases shown : f.value <;> simp_all [Value.same]
    simp [result?, found, value, kept.2, Outcome.failure]

/-- The error in `A2` goes on naming `B3` after `B2`, which comes before it, has been taken. -/
theorem not_firstOccupied_of_overtakingRun :
    ((new Settings.standard FunctionTable.empty).afterAll overtakingRun).ErrorNames
        ⟨0, 1, 0⟩ ⟨0, 2, 1⟩ ∧
      ((new Settings.standard FunctionTable.empty).afterAll overtakingRun).spills.state? ⟨0, 1, 0⟩ =
        some (.blocked (.fromAnchor ⟨0, 1, 0⟩ 2 2)) ∧
      ¬ ((new Settings.standard FunctionTable.empty).afterAll overtakingRun).FirstOccupied
        ⟨0, 1, 0⟩ (.fromAnchor ⟨0, 1, 0⟩ 2 2) ⟨0, 2, 1⟩ := by
  let w := new Settings.standard FunctionTable.empty
  let w₁ := (w.replaceContent ⟨0, 2, 1⟩ (.ofText "x")).unmarked
  let w₂ := w₁.replaceContent ⟨0, 1, 0⟩ (.ofText "=\x7b1,2;3,4\x7d")
  let v₂ := ((w₂.lone ⟨0, 1, 0⟩).turn ⟨0, 1, 0⟩).workbook
  let w₃ := v₂.replaceContent ⟨0, 0, 1⟩ (.ofText "=\x7b5;6\x7d")
  let v₃ := ((w₃.lone ⟨0, 0, 1⟩).turn ⟨0, 0, 1⟩).workbook
  have text : (w.replaceContent ⟨0, 2, 1⟩ (.ofText "x")).recalculateOnce = w₁ :=
    if_pos (by decide +kernel)
  have array : w₂.recalculateOnce = v₂ :=
    recalculateOnce_of_alone (not_reads_of_isEmpty (by decide +kernel)) (by decide +kernel)
      (Std.ExtTreeSet.contains_iff_mem.mp (by decide +kernel))
  have taking : w₃.recalculateOnce = v₃ :=
    recalculateOnce_of_alone (not_reads_of_isEmpty (by decide +kernel)) (by decide +kernel)
      (Std.ExtTreeSet.contains_iff_mem.mp (by decide +kernel))
  obtain ⟨first, ends₁⟩ := after_of_typed (w := w) (by decide +kernel) text ⟨rfl, rfl⟩
  obtain ⟨second, ends₂⟩ := after_of_typed (w := w₁) (by decide +kernel) array
    ⟨Std.ExtTreeSet.isEmpty_iff.mp (by decide +kernel),
      Std.ExtTreeSet.isEmpty_iff.mp (by decide +kernel)⟩
  obtain ⟨third, ends₃⟩ := after_of_typed (w := v₂) (by decide +kernel) taking
    ⟨Std.ExtTreeSet.isEmpty_iff.mp (by decide +kernel),
      Std.ExtTreeSet.isEmpty_iff.mp (by decide +kernel)⟩
  have after : w.afterAll overtakingRun = v₃ := by
    show ((w.after _).after _).after _ = v₃
    rw [first, second, third]
  have ends : w.RecalculationsEnd overtakingRun := by
    refine .cons ends₁ ?_
    rw [first]
    refine .cons ends₂ ?_
    rw [second]
    refine .cons ends₃ fun before request upTo => ?_
    exact absurd (List.prefix_nil.mp upTo) (List.append_ne_nil_of_right_ne_nil _ (List.cons_ne_nil _ _))
  have types : ∀ request ∈ overtakingRun, request.TypesContent := by
    simp [overtakingRun, Request.TypesContent]
  have blocked : v₃.spills.state? ⟨0, 1, 0⟩ = some (.blocked (.fromAnchor ⟨0, 1, 0⟩ 2 2)) :=
    Spills.state?_eq_blocked_iff.mpr (by decide +kernel)
  have names : v₃.ErrorNames ⟨0, 1, 0⟩ ⟨0, 2, 1⟩ :=
    errorNames_of_same 2 2 rfl (by decide +kernel)
  have overtaken : v₃.Overtaken ⟨0, 1, 0⟩ (.fromAnchor ⟨0, 1, 0⟩ 2 2) ⟨0, 2, 1⟩ :=
    ⟨⟨0, 0, 1⟩, by decide +kernel, .fromAnchor ⟨0, 0, 1⟩ 2 1, ⟨0, 1, 1⟩, by decide +kernel,
      by decide, by decide, by decide, .inl (by decide)⟩
  rw [← after] at blocked names overtaken
  obtain ⟨_, first⟩ := firstOccupied_iff_along_run Settings.standard FunctionTable.empty types ends
    blocked names
  exact ⟨names, blocked, fun holds => first.mp holds overtaken⟩

end Workbook

end Spreadsheet
