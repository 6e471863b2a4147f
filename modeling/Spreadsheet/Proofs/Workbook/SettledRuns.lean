import Spreadsheet.Proofs.Workbook.AlertedSheets

/-!
# Settled formulas along runs

Between requests nothing is marked, so a formula that is watched is settled. A request that pastes
nothing alerts whom it disturbs, and a steady recalculation settles whoever is alerted. A formula that
reads its own cell is the exception: it is not told of its own result, and while its cell lies in the
array of another anchor it is not found on a cycle either.
-/
namespace Spreadsheet

namespace Workbook

variable {w w' : Workbook} {p : Position}

/-- A workbook between requests: its arrays, names of sheets and dependencies are in order, nothing is
marked, and every formula is watched. -/
structure Quiet (w : Workbook) : Prop where
  rest : w.AtRest
  named : w.Named
  current : w.UpToDate
  unmarked : w.Unmarked
  watched : w.Watched

namespace Quiet

/-- The dependencies and the names of sheets are in order. -/
theorem grounded (quiet : w.Quiet) : w.Grounded := ⟨quiet.current, quiet.named.registered⟩

/-- Every formula is settled, unless it reads its own cell. -/
theorem settled (quiet : w.Quiet) (formula : w.isFormula p = true) (other : ¬ w.Reads p p) :
    w.Settled p :=
  (quiet.watched.settled quiet.unmarked formula).resolve_left other

/-- What waits to be pasted does not matter. -/
theorem clipboard (quiet : w.Quiet) (clipboard : Option Clipboard) :
    Quiet { w with clipboard := clipboard } where
  rest :=
    have arranged := quiet.rest.arranged
    ⟨⟨arranged.exclusive, arranged.formula, arranged.room⟩, quiet.rest.numbered⟩
  named := ⟨quiet.named.faithful, quiet.named.isSome_name?⟩
  current := quiet.current.clipboard clipboard
  unmarked := quiet.unmarked
  watched :=
    quiet.watched.of_alerts quiet.current (quiet.current.clipboard clipboard)
      ⟨fun _ _ => id, fun _ _ => .inr ⟨fun _ => .rfl, rfl, rfl, rfl, fun _ _ _ => id⟩⟩

/-- A request that pastes nothing leaves a workbook quiet if its recalculation is steady. -/
theorem after (quiet : w.Quiet) {request : Request} (inPlace : request.PastesNothing)
    (few : (w.after request).registry.names.length ≤ sheetIdBound)
    (steady : ∀ w', w.prepared request = some w' → w'.RecalculatesSteadily) :
    (w.after request).Quiet := by
  have rest := quiet.rest.after few
  rw [after_eq] at few rest ⊢
  cases change : w.prepared request with
  | none =>
    dsimp only
    rw [clipped_eq]
    exact quiet.clipboard _
  | some w' =>
    rw [change] at few rest
    dsimp only at few rest ⊢
    have same := w'.sameSources_recalculate
    rw [same.registry] at few
    have prepares := prepares_of_prepared change
    have pastes : w.pasteOf? request = none := by
      cases request with
      | paste => exact inPlace.elim
      | pasteCells => exact inPlace.elim
      | _ => rfl
    have named := quiet.named.prepares prepares few
    have current := quiet.current.prepares pastes prepares
    have ready := (Ready.of_arranged quiet.rest.arranged).prepares quiet.rest.numbered prepares few
    have grounded : w'.Grounded := ⟨current, named.registered⟩
    have alerts := prepares.alerts inPlace quiet.grounded grounded
      (Ready.of_arranged quiet.rest.arranged) quiet.named quiet.unmarked few
    have watched := quiet.watched.of_alerts quiet.current current alerts
    obtain ⟨unmarked, settled⟩ := watched.recalculate grounded ready.arranged (steady w' change)
    exact ⟨rest, named.of_sameNumbers (.of_sameSheets same.toSameSheets),
      current.of_sameSources same, unmarked, settled⟩

end Quiet

/-- A new workbook is quiet. -/
theorem quiet_new (settings : Settings) (functions : FunctionTable) :
    (new settings functions).Quiet where
  rest := atRest_new settings functions
  named := named_new settings functions
  current := upToDate_new settings functions
  unmarked := ⟨rfl, rfl⟩
  watched p formula := by
    rw [isFormula, formula?, cell?_new] at formula
    contradiction

/-- Every recalculation is steady when requests are made one after the other. -/
def RunsSteadily (w : Workbook) (requests : List Request) : Prop :=
  ∀ before request, before ++ [request] <+: requests →
    ∀ w', (w.afterAll before).prepared request = some w' → w'.RecalculatesSteadily

/-- No name is forgotten along a run. -/
theorem names_le_afterAll (w : Workbook) (requests : List Request) :
    w.registry.names.length ≤ (w.afterAll requests).registry.names.length :=
  List.foldlRecOn requests Workbook.after
    (motive := fun (w' : Workbook) => w.registry.names.length ≤ w'.registry.names.length) le_rfl
    fun w' known request _ => known.trans (w'.names_le_after request)

/-- A longer run knows no fewer names. -/
theorem names_le_of_longer (w : Workbook) {before requests : List Request}
    (upTo : before <+: requests) :
    (w.afterAll before).registry.names.length ≤ (w.afterAll requests).registry.names.length := by
  obtain ⟨rest, rfl⟩ := upTo
  rw [show w.afterAll (before ++ rest) = (w.afterAll before).afterAll rest from List.foldl_append]
  exact names_le_afterAll _ rest

/-- Requests that paste nothing leave a workbook quiet if their recalculations are steady. -/
theorem Quiet.afterAll (quiet : w.Quiet) {requests : List Request}
    (inPlace : ∀ request ∈ requests, request.PastesNothing)
    (few : (w.afterAll requests).registry.names.length ≤ sheetIdBound)
    (steady : w.RunsSteadily requests) : (w.afterAll requests).Quiet := by
  induction requests using List.reverseRecOn with
  | nil => exact quiet
  | append_singleton before request ih =>
    rw [afterAll_concat] at few ⊢
    have fewer := (names_le_after _ request).trans few
    have earlier := ih (fun request' listed => inPlace request' (List.mem_append_left _ listed)) fewer
      fun start next upTo => steady start next (upTo.trans (List.prefix_append _ _))
    exact earlier.after (inPlace request (by simp)) few (steady before request (List.prefix_refl _))

/-- In a run from a new workbook that pastes nothing, with no more sheets than there are numbers and
steady recalculations only, every formula that does not read its own cell is settled after every
request: a single value is its result and it has no array, and an array is spilled as it is or blocked
with an error by something that really is in its way. -/
theorem settled_along_run (settings : Settings) (functions : FunctionTable) {requests : List Request}
    (inPlace : ∀ request ∈ requests, request.PastesNothing)
    (few : ((new settings functions).afterAll requests).registry.names.length ≤ sheetIdBound)
    (steady : (new settings functions).RunsSteadily requests) :
    ∀ before, before <+: requests → ∀ p,
      ((new settings functions).afterAll before).isFormula p = true →
        ¬ ((new settings functions).afterAll before).Reads p p →
          ((new settings functions).afterAll before).Settled p := by
  rintro before ⟨rest, rfl⟩ p formula other
  have quiet : ((new settings functions).afterAll before).Quiet := by
    refine (quiet_new settings functions).afterAll
      (fun request listed => inPlace request (List.mem_append_left _ listed)) ?_
      fun start next upTo => steady start next (upTo.trans (List.prefix_append _ _))
    refine le_trans ?_ few
    rw [show ((new settings functions).afterAll (before ++ rest)) =
      ((new settings functions).afterAll before).afterAll rest from List.foldl_append]
    exact names_le_afterAll _ rest
  exact quiet.settled formula other

/-- A formula that reads its own cell is scheduled without being found on a cycle only while its cell
lies in the array of another anchor. -/
theorem exists_owner_of_reads_self (sound : w.spills.Sound) (reads : w.Reads p p)
    (scheduled : p ∈ w.plan.order) : ∃ a, a ≠ p ∧ w.spills.owner? p = some a := by
  have member := w.orders_plan.inside p scheduled
  have free : ¬ Schedule.ReadsFirmly w.dependencies w.spills p p := fun firmly => by
    refine w.orders_plan.apart p scheduled ((w.orders_plan.cyclic_iff p).mpr ⟨member, .single ?_⟩)
    exact ⟨(Schedule.mem_readers_firm_needs _ _ _).mpr ⟨member, member, firmly⟩, member⟩
  by_contra alone
  push Not at alone
  have own : (w.spills.owner? p).getD p = p := by
    cases leads : w.spills.owner? p with
    | none => rfl
    | some a => exact by_contra fun other => alone a other leads
  have output : (Schedule.outputZone w.spills p).contains p = true := by
    unfold Schedule.outputZone
    cases active : w.spills.activeZone? p with
    | none => exact Zone.contains_single.mpr rfl
    | some zone => exact sound.contains_anchor active
  obtain ⟨zone, listed, inside⟩ := reads
  exact free ⟨zone, listed, inside, fun _ => own, fun _ =>
    Zone.intersects_iff.mpr ⟨p, output, inside⟩⟩

/-! ### One formula alone -/

/-- The start of a round that evaluates one formula. -/
def lone (w : Workbook) (p : Position) : Round := ⟨w.unmarked, .ofList [p] compare, w.due⟩

/-- A formula that is scheduled alone is the only one of its round if formulas read nothing. -/
theorem opening_of_alone (unread : ∀ p q, ¬ w.Reads p q) (alone : ∀ q ∈ w.vertices, q = p)
    (due : p ∈ w.due) : w.opening w.plan = w.lone p := by
  unfold Workbook.opening
  rw [cyclic_plan_of_unread unread, order_plan_of_alone unread alone due]
  rfl

/-- A round of one formula alone is the turn of that formula. -/
theorem recalculateOnce_of_alone (unread : ∀ p q, ¬ w.Reads p q) (alone : ∀ q ∈ w.vertices, q = p)
    (due : p ∈ w.due) : w.recalculateOnce = ((w.lone p).turn p).workbook := by
  have busy : ¬ w.due.isEmpty = true := fun empty => by
    rw [Std.ExtTreeSet.isEmpty_iff.mp empty] at due
    exact Std.ExtTreeSet.not_mem_empty due
  unfold Workbook.recalculateOnce
  rw [if_neg busy]
  dsimp only
  rw [opening_of_alone unread alone due, order_plan_of_alone unread alone due]
  rfl

/-- The recalculation of a workbook whose only formula reads nothing is steady if the formula gets an
array it did not have and marks nothing. -/
theorem recalculatesSteadily_of_alone (unread : ∀ p q, ¬ w.Reads p q)
    (alone : ∀ q, w.isFormula q = true → q = p) (due : p ∈ w.due)
    (other : Round.sameState (((w.lone p).turn p).workbook.spills.state? p)
      (w.spills.state? p) = false)
    (ended : ((w.lone p).turn p).workbook.Unmarked) : w.RecalculatesSteadily := by
  have scheduled : ∀ q ∈ w.vertices, q = p := fun q listed => alone q (isFormula_of_mem_vertices listed)
  have order := order_plan_of_alone unread scheduled due
  have opening := opening_of_alone unread scheduled due
  have steady : w.Steady := by
    refine ⟨cyclic_plan_of_unread unread, fun before upTo p q zone reads => ?_, fun before q upTo => ?_⟩
    · exact absurd ((w.sameSources_turns w.plan before).reads_iff.mp reads) (unread p q)
    · rw [order] at upTo
      cases before with
      | cons first rest =>
        have short := upTo.length_le
        simp at short
      | nil =>
        obtain ⟨rfl, _⟩ := List.cons_prefix_cons.mp upTo
        rw [opening]
        intro _ same
        exact absurd (same.symm.trans other) Bool.true_eq_false.mp
  refine .inr ⟨steady, Unmarked.steadyWithin ?_ _⟩
  rw [recalculateOnce_of_alone unread scheduled due]
  exact ended

/-- A row of two numbers typed into a new workbook is settled. -/
theorem settled_of_typed_row :
    ((new Settings.standard FunctionTable.empty).after
      (.setContent 0 0 0 "=\x7b1,2\x7d")).Settled ⟨0, 0, 0⟩ := by
  let w := new Settings.standard FunctionTable.empty
  let w₁ := w.replaceContent ⟨0, 0, 0⟩ (.ofText "=\x7b1,2\x7d")
  have exist : (w.sheet? 0).isSome = true := by decide +kernel
  have found : w.prepared (.setContent 0 0 0 "=\x7b1,2\x7d") = some w₁ := by
    have inside : (w.sheet? 0).any (·.inBounds 0 0) = true := by decide +kernel
    simp only [prepared, inside, if_true]
    rfl
  have current : w₁.UpToDate := (upToDate_new _ _).replaceContent _ _ exist
  have unread : ∀ p q, ¬ w₁.Reads p q := by
    rintro p q ⟨zone, listed, _⟩
    have bare : (Content.ofText "=\x7b1,2\x7d").expr?.all (·.references.isEmpty) = true := by
      decide +kernel
    rw [current.zonesOf, zonesNow, expr?_replaceContent w _ p _ exist, expr?, content,
      cell?_new] at listed
    split at listed
    · rename_i e tree
      split at tree
      · rw [tree, Option.all_some, List.isEmpty_iff] at bare
        rw [mem_sortedZones, zonesRead, bare] at listed
        contradiction
      · contradiction
    · contradiction
  have alone : ∀ p, w₁.isFormula p = true → p = ⟨0, 0, 0⟩ := by
    intro p formula
    by_contra other
    rw [isFormula, formula?_eq, content_replaceContent, if_neg fun both => other both.1, content,
      cell?_new] at formula
    contradiction
  have steady : w₁.RecalculatesSteadily :=
    recalculatesSteadily_of_alone unread alone (Std.ExtTreeSet.contains_iff_mem.mp (by decide +kernel))
      (by decide +kernel) ⟨Std.ExtTreeSet.isEmpty_iff.mp (by decide +kernel),
        Std.ExtTreeSet.isEmpty_iff.mp (by decide +kernel)⟩
  have run : w.RunsSteadily [.setContent 0 0 0 "=\x7b1,2\x7d"] := by
    intro before request upTo w' prepared
    cases before with
    | nil =>
      obtain ⟨rfl, _⟩ := List.cons_prefix_cons.mp upTo
      rw [show w.afterAll [] = w from rfl, found] at prepared
      rw [← Option.some.inj prepared]
      exact steady
    | cons first rest =>
      have short := upTo.length_le
      simp at short
  have inPlace : ∀ request ∈ [Request.setContent 0 0 0 "=\x7b1,2\x7d"], request.PastesNothing := by
    simp [Request.PastesNothing]
  have after : w.afterAll [.setContent 0 0 0 "=\x7b1,2\x7d"] = w₁.recalculate := by
    show w.after _ = _
    rw [after_eq, found]
  have same := w₁.sameSources_recalculate
  refine settled_along_run Settings.standard FunctionTable.empty inPlace ?_ run _
    (List.prefix_refl _) ⟨0, 0, 0⟩ ?_ ?_
  · show (w.afterAll _).registry.names.length ≤ _
    rw [after, same.registry]
    decide +kernel
  · show (w.afterAll _).isFormula _ = true
    rw [after, same.isFormula]
    decide +kernel
  · show ¬ (w.afterAll _).Reads _ _
    rw [after, same.reads_iff]
    exact unread _ _

end Workbook

end Spreadsheet
