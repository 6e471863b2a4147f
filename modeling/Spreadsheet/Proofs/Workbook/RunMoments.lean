import Spreadsheet.Proofs.Recalculation.WritersFirst
import Spreadsheet.Proofs.Workbook.CitedRuns
import Spreadsheet.Proofs.Workbook.ClearedWays
import Spreadsheet.Proofs.Workbook.IdleWorkbooks
import Spreadsheet.Proofs.Workbook.LawfulFormulas

/-!
# Moments of runs

A run passes through workbooks between its requests, while the change of a request is under way, and
at the moments of the rounds that follow it. At each of them the arrays are what claims, releases and
cleared sheets have made of them, so that owners and records are in step and an array on its way to a
zone takes theirs from others only as often as there are zones.
-/
namespace Spreadsheet

namespace Round

variable {r r' : Round} {p : Position} {outcome : Outcome}

/-! ### Arrays of a round -/

/-- Zones that are taken away are released. -/
theorem Clears.built {anchor : Position} {rows columns : Nat} {owners : List Position}
    (clears : Clears anchor rows columns r owners r') (built : r.workbook.spills.Built) :
    r'.workbook.spills.Built := by
  induction clears with
  | nil r => exact built
  | @cons r _ owner _ _ _ ih =>
    refine ih ?_
    rw [spills_preempt]
    exact built.release owner

/-- Placing an array claims a zone or fails, after zones in its way have been released. -/
theorem built_place (built : r.workbook.spills.Built) (values : Grid Value)
    (formats : Grid (Option String)) : (r.place p values formats).1.workbook.spills.Built := by
  obtain ⟨owners, r', clears, _, result⟩ :=
    exists_clears built.sound p values.extent.1 values.extent.2
  have cleared := clears.built built
  unfold place
  dsimp only
  rw [result]
  dsimp only
  split
  · rename_i zone claimed
    obtain ⟨_, _, _, free⟩ := claim_eq_ok claimed
    obtain ⟨start, _⟩ := Spills.checkClaim_eq_ok_iff.mp free
    exact cleared.claim values formats (by rw [start]; rfl)
  · exact cleared.block p _

/-- Settling an outcome releases an array or places one. -/
theorem built_settle (built : r.workbook.spills.Built) (p : Position) (outcome : Outcome) :
    (r.settle p outcome).1.workbook.spills.Built := by
  cases outcome with
  | single value format => exact built.release p
  | array values formats => exact built_place built values formats

/-- Publishing an outcome leaves the arrays that settling it has left. -/
theorem built_publish (built : r.workbook.spills.Built) (p : Position) (outcome : Outcome) :
    (r.publish p outcome).workbook.spills.Built := by
  have settled := built_settle built p outcome
  unfold publish
  split
  · exact built
  · dsimp only
    split
    · exact settled
    · obtain ⟨_, marks⟩ := marks_announce ((r.settle p outcome).1.store p (r.settle p outcome).2.1
        (r.settle p outcome).2.2) p (r.workbook.spills.activeZone? p)
        ((r.settle p outcome).1.workbook.spills.activeZone? p)
      rw [marks.spills]
      exact settled

/-- The turn of a formula. -/
theorem built_turn (built : r.workbook.spills.Built) (p : Position) :
    (r.turn p).workbook.spills.Built := by
  unfold turn
  dsimp only
  split
  · rw [evaluate_eq]
    exact built_publish (r := (r.begin p).note p) built p _
  · exact built

end Round

namespace Workbook

variable {w w₁ w' v : Workbook} {r : Round} {request : Request}

/-- Some formulas on cycles have got their error. -/
theorem built_stamps {r : Round} (built : r.workbook.spills.Built) (cyclic : List Position) :
    (cyclic.foldl (fun r p => r.publish p .circular) r).workbook.spills.Built :=
  List.foldlRecOn cyclic _ (motive := fun (r : Round) => r.workbook.spills.Built) built
    fun _ built p _ => Round.built_publish built p .circular

/-- Some formulas have had their turns. -/
theorem built_turns {r : Round} (built : r.workbook.spills.Built) (order : List Position) :
    (order.foldl Round.turn r).workbook.spills.Built :=
  List.foldlRecOn order _ (motive := fun (r : Round) => r.workbook.spills.Built) built
    fun _ built p _ => Round.built_turn built p

/-- A round. -/
theorem built_recalculateOnce (built : w.spills.Built) : w.recalculateOnce.spills.Built := by
  unfold recalculateOnce
  split
  · exact built
  · exact built_turns (built_stamps built _) _

/-! ### Rounds of a recalculation -/

/-- The workbooks in which the rounds of a recalculation start. -/
def roundsWithin : Nat → Workbook → List Workbook
  | 0, _ => []
  | rounds + 1, w =>
    if w.dirty.isEmpty && w.changed.isEmpty then []
    else w :: roundsWithin rounds w.recalculateOnce

/-- The workbooks in which the rounds start that bring all results up to date. -/
def rounds (w : Workbook) : List Workbook := w.roundsWithin (w.settings.rounds + 1)

/-- A recalculation ends with what its last round has left, and forgets the marks if there is no
round left for them. -/
theorem recalculateWithin_eq (rounds : Nat) (w : Workbook) :
    w.recalculateWithin rounds =
      (((w.roundsWithin rounds).getLast?.map recalculateOnce).getD w).unmarked := by
  induction rounds generalizing w with
  | zero => rfl
  | succ rounds ih =>
    unfold recalculateWithin roundsWithin
    split
    · rename_i idle
      exact ((unmarked_iff.mpr idle).recalculateWithin 0).symm
    · rw [ih, List.getLast?_cons]
      cases (w.recalculateOnce.roundsWithin rounds).getLast? <;> rfl

/-- Every round starts with arrays that rounds have built. -/
theorem built_of_mem_roundsWithin {rounds : Nat} (built : w.spills.Built)
    (starts : v ∈ w.roundsWithin rounds) : v.spills.Built := by
  induction rounds generalizing w with
  | zero => contradiction
  | succ rounds ih =>
    unfold roundsWithin at starts
    split at starts
    · contradiction
    · rcases List.mem_cons.mp starts with rfl | later
      · exact built
      · exact ih (built_recalculateOnce built) later

/-- A recalculation. -/
theorem built_recalculateWithin (rounds : Nat) (built : w.spills.Built) :
    (w.recalculateWithin rounds).spills.Built := by
  rw [recalculateWithin_eq]
  show (((w.roundsWithin rounds).getLast?.map recalculateOnce).getD w).spills.Built
  cases last : (w.roundsWithin rounds).getLast? with
  | none => exact built
  | some v =>
    exact built_recalculateOnce (built_of_mem_roundsWithin built (List.mem_of_getLast? last))

/-! ### Moments of a round -/

/-- The start of a round, before any formula gets its error. -/
def start (w : Workbook) : Round := ⟨w.unmarked, .ofList w.plan.order compare, w.due⟩

/-- What the turns of a chain leave that settles typed text is attained. -/
theorem Attainable.typed {sheet : SheetId} {row column : Nat} {text : String} {order : List Position}
    (attained : w.Attainable) (settles : w.ChainSettles ⟨sheet, row, column⟩ text order) :
    ((w.replaceContent ⟨sheet, row, column⟩ (.ofText text)).inTurn order).Attainable := by
  rw [← settles.after]
  exact .after attained _ fun _ _ _ same => by contradiction

/-- In a round an outcome of a formula is about to be published: the error of one on a cycle, or
what one that is due has come to in its turn. -/
inductive Publishing (w : Workbook) : Round → Position → Outcome → Prop
  | stamp {before after : List Position} {p : Position}
    (split : w.plan.cyclic = before ++ p :: after) :
    Publishing w (before.foldl (fun r p => r.publish p .circular) w.start) p .circular
  | turn {before after : List Position} {p : Position} {r : Round}
    (split : w.plan.order = before ++ p :: after)
    (begun : r = (before.foldl Round.turn (w.opening w.plan)).begin p) (due : p ∈ r.due) :
    Publishing w (r.note p) p (r.workbook.compute p).outcome

/-- The moments of a round: after some formulas on cycles have got their error or others have had
their turns, and while an outcome is published, the way of an array being cleared and when the
outcome has been settled. -/
inductive Moment (w : Workbook) : Round → Prop
  | stamped {before after : List Position} (split : w.plan.cyclic = before ++ after) :
    Moment w (before.foldl (fun r p => r.publish p .circular) w.start)
  | turned {before after : List Position} (split : w.plan.order = before ++ after) :
    Moment w (before.foldl Round.turn (w.opening w.plan))
  | publishing {r : Round} {p : Position} {outcome : Outcome}
    (publishing : w.Publishing r p outcome) : Moment w r
  | clearing {r r' : Round} {p : Position} {values : Grid Value}
    {formats : Grid (Option String)} {owners : List Position}
    (publishing : w.Publishing r p (.array values formats))
    (clears : Round.Clears p values.extent.1 values.extent.2 r owners r') : Moment w r'
  | settled {r : Round} {p : Position} {outcome : Outcome}
    (publishing : w.Publishing r p outcome) : Moment w (r.settle p outcome).1

/-- Arrays when an outcome is about to be published. -/
theorem Publishing.built {p : Position} {outcome : Outcome} (publishing : w.Publishing r p outcome)
    (built : w.spills.Built) : r.workbook.spills.Built := by
  cases publishing with
  | stamp split => exact built_stamps (r := w.start) built _
  | turn split begun due =>
    subst begun
    exact built_turns (built_stamps (r := w.start) built _) _

/-- Arrays at the moments of a round. -/
theorem Moment.built (moment : w.Moment r) (built : w.spills.Built) : r.workbook.spills.Built := by
  cases moment with
  | stamped split => exact built_stamps (r := w.start) built _
  | turned split => exact built_turns (built_stamps (r := w.start) built _) _
  | publishing publishing => exact publishing.built built
  | clearing publishing clears => exact clears.built (publishing.built built)
  | settled publishing => exact Round.built_settle (publishing.built built) _ _

/-! ### Changes of requests -/

/-- Workbooks while the change of a request is under way: some of the cells have been emptied,
formatted, pasted, taken away or put down, or some of the shifts have been done. -/
inductive Underway (w : Workbook) (request : Request) : Workbook → Prop
  | emptied {before after : List Position}
    (change : w.prepared request = some (w.emptied (before ++ after))) :
    Underway w request (w.emptied before)
  | formatted {before after : List Position} {format : Option String}
    (change : w.prepared request = some (w.formatted (before ++ after) format)) :
    Underway w request (w.formatted before format)
  | pasted {before after : List (ClipCell × Position)} {clip : Clip} {mode : PasteMode}
    (change : w.prepared request = some ((before ++ after).foldl (Workbook.pasted clip mode) w)) :
    Underway w request (before.foldl (Workbook.pasted clip mode) w)
  | taken {clip : Clip} {before after : List ClipCell} {anchor : Position}
    (change : w.prepared request = some (w.moved clip anchor))
    (split : clip.cells = before ++ after) :
    Underway w request (w.taken { clip with cells := before })
  | putDown {clip : Clip} {before after : List ClipCell} {anchor : Position}
    (change : w.prepared request = some (w.moved clip anchor))
    (split : clip.cells = before ++ after) :
    Underway w request
      (((w.taken clip).redirectFormulas ((w.taken clip).follow clip anchor)).putDown
        { clip with cells := before } anchor)
  | shifted {sheet : SheetId} {before after : List Shift} {clipboard : Option Clipboard}
    (change : w.prepared request = some (w.restructure sheet (before ++ after))) :
    Underway w request
      (before.foldl applyShift (forgetResults { w with clipboard := clipboard } sheet))
  | prepared {w₁ : Workbook} (change : w.prepared request = some w₁) : Underway w request w₁

section Changes

/-- Replacing content releases an array. -/
theorem built_replaceContent (built : w.spills.Built) (p : Position) (content : Content) :
    (w.replaceContent p content).spills.Built := by
  rw [spills_replaceContent]
  exact built.release p

/-- Choosing a format leaves the arrays. -/
theorem built_chooseFormat (built : w.spills.Built) (p : Position) (format : Option String) :
    (w.chooseFormat p format).spills.Built := by
  rw [spills_chooseFormat]
  exact built

/-- Enlarging a sheet leaves the arrays. -/
theorem built_growTo (built : w.spills.Built) (p : Position) : (w.growTo p).spills.Built := by
  rw [spills_growTo]
  exact built

/-- Deleting content. -/
theorem built_emptied (built : w.spills.Built) (positions : List Position) :
    (w.emptied positions).spills.Built :=
  emptied_induction (P := fun w => w.spills.Built) built
    (fun _ p _ kept => built_replaceContent kept p .empty) positions

/-- Choosing formats. -/
theorem built_formatted (built : w.spills.Built) (positions : List Position)
    (format : Option String) : (w.formatted positions format).spills.Built :=
  formatted_induction (P := fun w => w.spills.Built) built
    fun _ p _ kept => built_chooseFormat kept p format

/-- Pasting a cell. -/
theorem built_pasted (built : w.spills.Built) (clip : Clip) (mode : PasteMode)
    (pasting : ClipCell × Position) : (Workbook.pasted clip mode w pasting).spills.Built := by
  have grown := built_growTo built pasting.2
  cases mode with
  | everything => exact built_chooseFormat (built_replaceContent grown _ _) _ _
  | value => exact built_replaceContent grown _ _
  | format => exact built_chooseFormat grown _ _

/-- Taking cells away. -/
theorem built_taken (built : w.spills.Built) (clip : Clip) : (w.taken clip).spills.Built :=
  List.foldlRecOn clip.cells _ (motive := fun (w : Workbook) => w.spills.Built) built
    fun w kept cell _ => by
      unfold clearCell
      split
      · exact built_chooseFormat (built_replaceContent kept _ _) _ _
      · exact kept

/-- Putting cells down. -/
theorem built_putDown (built : w.spills.Built) (clip : Clip) (anchor : Position) :
    (w.putDown clip anchor).spills.Built :=
  List.foldlRecOn clip.cells _ (motive := fun (w : Workbook) => w.spills.Built) built
    fun _ kept _ _ =>
      built_chooseFormat (built_replaceContent (built_growTo kept _) _ _) _ _

/-- Shifting a sheet after its results have been forgotten. -/
theorem built_shifted (built : w.spills.Built) (sheet : SheetId) (clipboard : Option Clipboard)
    (shifts : List Shift) :
    (shifts.foldl applyShift
      (forgetResults { w with clipboard := clipboard } sheet)).spills.Built :=
  List.foldlRecOn shifts _ (motive := fun (w : Workbook) => w.spills.Built)
    (built.clearSheet sheet) fun _ kept _ _ => kept

/-- What a request prepares. -/
theorem Prepares.built (prepares : w.Prepares request w') (built : w.spills.Built) :
    w'.spills.Built := by
  cases prepares with
  | addSheet => exact built
  | deleteSheet => exact built.clearSheet _
  | setContent => exact built_replaceContent built _ _
  | deleteContent => exact built_emptied built _
  | setFormat => exact built_formatted built _ _
  | reevaluate => exact built
  | flush => exact built
  | insertLines => exact built_shifted built _ _ _
  | deleteLines => exact built_shifted built _ _ _
  | paste =>
    exact pastedAll_induction (P := fun w => w.spills.Built) built
      (fun _ pasting _ kept => built_pasted kept _ _ pasting) _
  | @move _ target _ clip =>
    have redirected : ((w.taken clip).redirectFormulas
        ((w.taken clip).follow clip target.topLeft)).spills.Built := built_taken built clip
    exact built_putDown redirected clip target.topLeft
  | pasteCells =>
    exact pastedAll_induction (P := fun w => w.spills.Built) built
      (fun _ pasting _ kept => built_pasted kept _ _ pasting) _

/-- The change of a request under way. -/
theorem Underway.built (underway : w.Underway request w') (built : w.spills.Built) :
    w'.spills.Built := by
  cases underway with
  | emptied => exact built_emptied built _
  | formatted => exact built_formatted built _ _
  | @pasted before _ clip mode _ =>
    exact List.foldlRecOn before _ (motive := fun (w : Workbook) => w.spills.Built) built
      fun _ kept pasting _ => built_pasted kept clip mode pasting
  | taken => exact built_taken built _
  | @putDown clip _ _ anchor =>
    have redirected : ((w.taken clip).redirectFormulas
        ((w.taken clip).follow clip anchor)).spills.Built := built_taken built clip
    exact built_putDown redirected _ anchor
  | shifted => exact built_shifted built _ _ _
  | prepared change => exact (prepares_of_prepared change).built built

/-- A request. -/
theorem built_after (built : w.spills.Built) (request : Request) :
    (w.after request).spills.Built := by
  rw [after_eq]
  cases change : w.prepared request with
  | some w₁ =>
    exact built_recalculateWithin _ ((prepares_of_prepared change).built built)
  | none =>
    dsimp only
    rw [clipped_eq]
    exact built

end Changes

/-! ### Runs -/

/-- In every workbook that is attained the arrays are what claims and releases have made of them. -/
theorem Attainable.built (attained : w.Attainable) : w.spills.Built := by
  induction attained with
  | new settings functions => exact .empty
  | register _ f built => exact built
  | after _ request _ built => exact built_after built request
  | pasteCells _ _ _ targets mode built _ => exact built_after built _

/-- The workbooks that a run passes through: between requests, while the change of a request is under
way, and at every moment of the rounds that bring results up to date then. -/
inductive Occurs : Workbook → Prop
  | between {w : Workbook} (attained : w.Attainable) : Occurs w
  | underway {w w' : Workbook} {request : Request} (attained : w.Attainable)
    (underway : w.Underway request w') : Occurs w'
  | moment {w w₁ v : Workbook} {request : Request} {r : Round} (attained : w.Attainable)
    (change : w.prepared request = some w₁) (round : v ∈ w₁.rounds) (moment : v.Moment r) :
    Occurs r.workbook

/-- At every moment of every run the arrays are what claims and releases have made of them. -/
theorem Occurs.built (occurs : w.Occurs) : w.spills.Built := by
  cases occurs with
  | between attained => exact attained.built
  | underway attained underway => exact underway.built attained.built
  | moment attained change round moment =>
    exact moment.built
      (built_of_mem_roundsWithin ((prepares_of_prepared change).built attained.built) round)

/-- At every moment of every run a position leads to an anchor only if that has a record of a zone
around the position. So when an array takes zones from anchors in its way, each time a different
anchor loses a zone that it really had and one zone fewer is left, and after at most as many times as
there were zones at the start no anchor is left from which one could be taken. -/
theorem preemption_ends (occurs : r.workbook.Occurs) (anchor : Position) (rows columns : Nat) :
    (∀ q a, r.workbook.spills.owner? q = some a → ∃ zone values formats,
      r.workbook.spills.state? a = some (.spilled zone values formats) ∧ zone.contains q = true) ∧
    (∀ owners r' owner, Round.Clears anchor rows columns r owners r' →
      r'.Meets anchor rows columns owner →
        owner ∉ owners ∧ owner ≠ anchor ∧
        (∃ zone values formats,
          r'.workbook.spills.state? owner = some (.spilled zone values formats)) ∧
        (r'.preempt owner).workbook.spills.state? owner = none ∧
        (r'.preempt owner).workbook.spills.activeCount + 1 = r'.workbook.spills.activeCount) ∧
    ∃ owners r', Round.Clears anchor rows columns r owners r' ∧
      owners.length ≤ r.workbook.spills.activeCount ∧
      (∀ owner, ¬ r'.Meets anchor rows columns owner) ∧
      Round.clearWay anchor rows columns r.workbook.spills.activeCount r =
        (r', r'.claim anchor rows columns) := by
  have sound := occurs.built.sound
  refine ⟨fun q a leads => ?_, fun owners r' owner clears meets => ?_, ?_⟩
  · obtain ⟨zone, active, inside⟩ := sound.covered q a leads
    obtain ⟨values, formats, state⟩ := Spills.activeZone?_eq_some_iff.mp active
    exact ⟨zone, values, formats, state, inside⟩
  · have before := clears.cleared sound
    have step := meets.cleared_preempt before.sound
    obtain ⟨zone, values, formats, state⟩ := step.active owner (List.mem_singleton_self owner)
    refine ⟨fun earlier => ?_, (meets.active before.sound).1, ⟨zone, values, formats, state⟩, ?_,
      step.count⟩
    · rw [before.state, if_pos earlier] at state
      contradiction
    · rw [step.state, if_pos (List.mem_singleton_self owner)]
  · obtain ⟨owners, r', clears, free, result⟩ := Round.exists_clears sound anchor rows columns
    have left := (clears.cleared sound).count
    exact ⟨owners, r', clears, by omega, free, result⟩

/-- A new workbook into whose cell `B1` a reader of `A2` is being typed. -/
def readerTyped : Workbook :=
  (new Settings.standard FunctionTable.empty).replaceContent ⟨0, 0, 1⟩
    (.ofText "=A2&\x7bTRUE;TRUE\x7d")

/-- The workbook when the reader has spilled into `B2`. -/
def readerSpilled : Workbook := readerTyped.inTurn [⟨0, 0, 1⟩]

/-- The workbook into whose cell `A2` a row of two values is being typed then. -/
def rowTyped : Workbook := readerSpilled.replaceContent ⟨0, 1, 0⟩ (.ofText "=\x7bTRUE,TRUE\x7d")

/-- The turn of the row, that of the reader being still to come. -/
def rowTurn : Round :=
  ((Round.mk rowTyped.unmarked (.ofList [⟨0, 1, 0⟩, ⟨0, 0, 1⟩] compare) rowTyped.due).begin
    ⟨0, 1, 0⟩).note ⟨0, 1, 0⟩

/-- The turn of the row is a moment of a run. -/
theorem occurs_rowTurn : rowTurn.workbook.Occurs := by
  have attained : readerSpilled.Attainable :=
    (Attainable.new Settings.standard FunctionTable.empty).typed (by decide +kernel)
  have inside : (readerSpilled.sheet? 0).any (·.inBounds 1 0) = true := by decide +kernel
  have change : readerSpilled.prepared (.setContent 0 1 0 "=\x7bTRUE,TRUE\x7d") = some rowTyped :=
    if_pos inside
  have busy : ¬ (rowTyped.dirty.isEmpty && rowTyped.changed.isEmpty) = true := by decide +kernel
  have round : rowTyped ∈ rowTyped.rounds := by
    unfold rounds roundsWithin
    rw [if_neg busy]
    exact List.mem_cons_self
  have chained : rowTyped.Chained [⟨0, 1, 0⟩, ⟨0, 0, 1⟩] := by decide +kernel
  have split : rowTyped.plan.order = [] ++ ⟨0, 1, 0⟩ :: [⟨0, 0, 1⟩] := chained.plan.1
  refine .moment attained change round
    (.publishing (.turn split ?_ (Std.ExtTreeSet.contains_iff_mem.mp ?_)))
  · rw [List.foldl_nil, opening_of_plan chained.plan]
  · decide +kernel

/-- When the row claims `B2` it takes it from the reader, which has a record of the zone, and after
that no zone can be taken. -/
theorem preemption_ends_of_row :
    rowTurn.workbook.Occurs ∧ rowTurn.Meets ⟨0, 1, 0⟩ 1 2 ⟨0, 0, 1⟩ ∧
      (rowTurn.preempt ⟨0, 0, 1⟩).workbook.spills.activeCount + 1 =
        rowTurn.workbook.spills.activeCount ∧
      ∃ owners r', Round.Clears ⟨0, 1, 0⟩ 1 2 rowTurn owners r' ∧
        ∀ owner, ¬ r'.Meets ⟨0, 1, 0⟩ 1 2 owner := by
  have meets : rowTurn.Meets ⟨0, 1, 0⟩ 1 2 ⟨0, 0, 1⟩ :=
    ⟨Std.ExtTreeSet.contains_iff_mem.mp (by decide +kernel), ⟨0, 1, 1⟩, by decide +kernel⟩
  obtain ⟨_, step, owners, r', clears, _, free, _⟩ :=
    preemption_ends occurs_rowTurn ⟨0, 1, 0⟩ 1 2
  have fewer := (step [] rowTurn _ (.nil _) meets).2.2.2.2
  exact ⟨occurs_rowTurn, meets, fewer, owners, r', clears, free⟩

end Workbook

end Spreadsheet
