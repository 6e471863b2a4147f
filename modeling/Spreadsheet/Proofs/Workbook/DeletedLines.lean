import Spreadsheet.Proofs.Workbook.LawfulFormulas
import Spreadsheet.Proofs.Workbook.Relocations
import Spreadsheet.Proofs.Workbook.TypedContents

/-!
# Deleting rows and columns of a workbook

A deletion takes the runs of the given rows or columns away one by one. Taken together, the cells that
are left close up, and each reference to the sheet leads to what is left of the cells it led to.
-/
namespace Spreadsheet

namespace Position

/-- The position in another row or column. -/
def withLine (p : Position) (direction : Direction) (line : Nat) : Position :=
  match direction with
  | .rows => { p with row := line }
  | .columns => { p with column := line }

/-- Where a position ends up when the rows or columns of a sheet do. -/
def onLines (p : Position) (direction : Direction) (sheet : SheetId) (move : Nat → Option Nat) :
    Option Position :=
  if p.sheet = sheet then (move (p.line direction)).map (p.withLine direction) else some p

variable {p q : Position} {direction : Direction} {sheet : SheetId} {move move' : Nat → Option Nat}
  {line : Nat}

/-- The row or column of a position that was put into another one. -/
theorem line_withLine (p : Position) (direction : Direction) (line : Nat) :
    (p.withLine direction line).line = Function.update p.line direction line := by
  funext other
  cases direction <;> cases other <;> rfl

/-- Another row or column is on the same sheet. -/
@[simp] theorem sheet_withLine (p : Position) (direction : Direction) (line : Nat) :
    (p.withLine direction line).sheet = p.sheet := by
  cases direction <;> rfl

/-- The position in its own row or column. -/
theorem withLine_self (p : Position) (direction : Direction) :
    p.withLine direction (p.line direction) = p := by
  cases direction <;> rfl

/-- Only the last row or column counts. -/
theorem withLine_withLine (p : Position) (direction : Direction) (line : Nat) :
    (p.withLine direction line).withLine direction = p.withLine direction := by
  cases direction <;> rfl

/-- Positions are equal whose sheets, rows and columns are. -/
theorem ext_line (sheets : p.sheet = q.sheet) (lines : p.line = q.line) : p = q := by
  have rows : p.row = q.row := congrFun lines .rows
  have columns : p.column = q.column := congrFun lines .columns
  cases p
  cases q
  simp_all

/-- A position stays on its sheet. -/
theorem sheet_of_onLines (moved : p.onLines direction sheet move = some q) : q.sheet = p.sheet := by
  unfold onLines at moved
  split at moved
  · obtain ⟨line, _, rfl⟩ := Option.map_eq_some_iff.mp moved
    exact sheet_withLine p direction line
  · rw [Option.some.inj moved]

/-- Moves of lines one after the other. -/
theorem onLines_bind (p : Position) (direction : Direction) (sheet : SheetId)
    (move move' : Nat → Option Nat) :
    (p.onLines direction sheet move).bind (·.onLines direction sheet move') =
      p.onLines direction sheet fun line => (move line).bind move' := by
  unfold onLines
  by_cases here : p.sheet = sheet
  · simp only [here, if_true]
    cases move (p.line direction) with
    | none => rfl
    | some line =>
      simp [here, line_withLine, withLine_withLine]
  · simp [here]

/-- Lines that stay apart keep positions apart. -/
theorem onLines_injective (apart : ∀ i j line, move i = some line → move j = some line → i = j)
    {p' : Position} (moved : p.onLines direction sheet move = some q)
    (moved' : p'.onLines direction sheet move = some q) : p = p' := by
  have sheets : p.sheet = p'.sheet :=
    (sheet_of_onLines moved).symm.trans (sheet_of_onLines moved')
  unfold onLines at moved moved'
  rw [← sheets] at moved'
  split at moved
  · rename_i here
    rw [if_pos here] at moved'
    obtain ⟨line, closed, rfl⟩ := Option.map_eq_some_iff.mp moved
    obtain ⟨line', closed', same⟩ := Option.map_eq_some_iff.mp moved'
    have lines := congrArg Position.line same
    rw [line_withLine, line_withLine] at lines
    have own := congrFun lines direction
    simp only [Function.update_self] at own
    subst own
    have origin := apart _ _ _ closed closed'
    refine ext_line sheets ?_
    calc p.line = Function.update (Function.update p.line direction line') direction
            (p.line direction) := by simp
      _ = Function.update (Function.update p'.line direction line') direction
            (p'.line direction) := by rw [lines, origin]
      _ = p'.line := by simp
  · rename_i elsewhere
    rw [if_neg elsewhere] at moved'
    exact (Option.some.inj moved).trans (Option.some.inj moved').symm

end Position

/-! ### Runs of lines -/

variable {direction : Direction} {sheet : SheetId}

/-- A deletion within the numbering moves the lines of its sheet. -/
theorem Shift.move_ofRun {run : Nat × Nat} (bounded : run.1 + run.2 ≤ lastIndex) (p : Position) :
    (Shift.ofRun direction sheet run).move p = p.onLines direction sheet (closeRun run) := by
  have index : ∀ direction line, (Shift.ofRun direction sheet run).mapIndex line =
      closeRun run line := fun _ => mapIndex_ofRun bounded
  unfold move Position.onLines
  show (if p.sheet = sheet then _ else _) = _
  split
  · unfold mapPlace
    cases direction
    · show Option.map _ (Option.map _ ((Shift.ofRun .rows sheet run).mapIndex p.row)) = _
      rw [index, Option.map_map]
      rfl
    · show Option.map _ (Option.map _ ((Shift.ofRun .columns sheet run).mapIndex p.column)) = _
      rw [index, Option.map_map]
      rfl
  · rfl

/-- A deleted run keeps the lines apart that are left. -/
theorem closeRun_injective {run : Nat × Nat} {i j line : Nat} (first : closeRun run i = some line)
    (second : closeRun run j = some line) : i = j := by
  rw [closeRun_eq_some_iff] at first second
  omega

/-- Where several shifts of a sheet lead a reference in a formula on `home`. -/
def Registry.followAll (r : Registry) (sheet : SheetId) (shifts : List Shift) (home : SheetId)
    (target : Reference) : Option Reference :=
  if r.resolve target.sheet home = some sheet then target.followed shifts else some target

/-- Following one shift and then others. -/
theorem Registry.follow_bind_followAll (r : Registry) {s : Shift} (own : s.sheet = sheet)
    (shifts : List Shift) (home : SheetId) (target : Reference) :
    (r.follow s home target).bind (r.followAll sheet shifts home) =
      r.followAll sheet (s :: shifts) home target := by
  unfold follow followAll
  rw [own, Reference.followed_cons]
  split
  · rename_i here
    cases moved : target.shifted s with
    | none => rfl
    | some new =>
      rw [Option.bind_some, Option.bind_some, Reference.sheet_shifted moved, if_pos here]
  · rename_i elsewhere
    rw [Option.bind_some, if_neg elsewhere]

namespace Workbook

variable {w w' : Workbook} {indices : List Nat} {runs : List (Nat × Nat)}

/-- Deleting runs one after the other moves cells as the runs close up. -/
theorem relocated_deletions (bounded : ∀ run ∈ runs, run.1 + run.2 ≤ lastIndex) (w : Workbook) :
    Relocated (fun p => p.onLines direction sheet (closeRuns runs))
      (w.registry.followAll sheet (runs.map (Shift.ofRun direction sheet))) w
      ((runs.map (Shift.ofRun direction sheet)).foldl applyShift w) := by
  induction runs generalizing w with
  | nil =>
    have move : (fun p : Position => p.onLines direction sheet (closeRuns [])) = some := by
      funext p
      unfold Position.onLines closeRuns
      split
      · exact congrArg some (p.withLine_self direction)
      · rfl
    have lead : w.registry.followAll sheet ([].map (Shift.ofRun direction sheet)) = fun _ => some := by
      funext home target
      unfold Registry.followAll
      split <;> rfl
    rw [move, lead]
    exact .refl w
  | cons run rest ih =>
    have first : Relocated (fun p => p.onLines direction sheet (closeRun run)) _ w _ :=
      w.relocated_applyShift (Shift.ofRun direction sheet run)
      (fun p q moved => by rwa [Shift.move_ofRun (bounded run List.mem_cons_self)])
      (fun p _ => (Shift.move_ofRun (bounded run List.mem_cons_self) p).symm)
      (fun p p' q moved moved' =>
        Position.onLines_injective (fun _ _ _ => closeRun_injective) moved moved')
    have others := ih (fun run listed => bounded run (List.mem_cons_of_mem _ listed))
      (w.applyShift (Shift.ofRun direction sheet run))
    have both := first.trans others fun p q => Position.sheet_of_onLines
    have move : (fun p : Position => (p.onLines direction sheet (closeRun run)).bind fun p =>
        p.onLines direction sheet (closeRuns rest)) =
          fun p => p.onLines direction sheet (closeRuns (run :: rest)) := by
      funext p
      rw [Position.onLines_bind]
      exact congrArg _ (funext fun line => (closeRuns_cons run rest line).symm)
    rw [move, first.registry] at both
    have own : (Shift.ofRun direction sheet run).sheet = sheet := rfl
    simpa only [List.map_cons, List.foldl_cons, w.registry.follow_bind_followAll own] using both

/-- Deleting runs one after the other leaves the other lines. -/
theorem lines?_deletions (runs : List (Nat × Nat)) (w : Workbook) (id : SheetId) :
    ((runs.map (Shift.ofRun direction sheet)).foldl applyShift w).lines? id =
      if id = sheet then (w.lines? id).map fun lines =>
        Function.update lines direction (lines direction - runsLength runs)
      else w.lines? id := by
  induction runs generalizing w with
  | nil => simp [runsLength]
  | cons run rest ih =>
    rw [List.map_cons, List.foldl_cons, ih, lines?_applyShift]
    split
    · rename_i here
      rw [if_pos (show id = (Shift.ofRun direction sheet run).sheet from here), Option.map_map]
      refine congrArg (Option.map · _) (funext fun lines => ?_)
      simp [Shift.ofRun, runsLength, Nat.sub_sub]
    · rename_i elsewhere
      rw [if_neg (show ¬id = (Shift.ofRun direction sheet run).sheet from elsewhere)]

/-! ### References -/

/-- The zone that a reference leads to, if it is not lost and leads anywhere. -/
def zone? (w : Workbook) (home : SheetId) (target : Option Reference) : Option Zone :=
  target.bind fun target => (w.resolve target home).toOption

/-- A reference in order leads to the positions it covers, on a sheet of so many rows and columns. -/
theorem exists_zone?_iff {target : Reference} {home : SheetId} {lines : Direction → Nat}
    (ordered : target.Ordered) (led : w.registry.resolve target.sheet home = some sheet)
    (known : w.lines? sheet = some lines) (q : Position) :
    (∃ zone, w.zone? home (some target) = some zone ∧ zone.contains q = true) ↔
      q.sheet = sheet ∧ target.Covers lines q.line := by
  obtain ⟨s, found, rfl⟩ := Option.map_eq_some_iff.mp known
  rw [Reference.covers_iff_contains ordered]
  unfold zone? resolve
  simp only [Option.bind_some, led, found]
  split
  · rename_i room
    simp [Except.toOption, room]
  · rename_i room
    simp [Except.toOption, room]

/-- What is left of what a reference led to before cells were moved: it leads there now, and it is
lost or leads nowhere exactly if nothing is left. -/
structure LeadsToRest (move : Position → Option Position) (w' : Workbook) (home : SheetId)
    (zone : Zone) (new : Option Reference) : Prop where
  covers : ∀ zone', w'.zone? home new = some zone' → ∀ q,
    zone'.contains q = true ↔ ∃ p, zone.contains p = true ∧ move p = some q
  gone_iff : w'.zone? home new = none ↔ ∀ p, zone.contains p = true → move p = none

/-- A reference leads to what is left if the positions it leads to are those that are left. -/
theorem LeadsToRest.of_contains {move : Position → Option Position} {home : SheetId} {zone : Zone}
    {new : Option Reference}
    (rest : ∀ q, (∃ zone', w'.zone? home new = some zone' ∧ zone'.contains q = true) ↔
      ∃ p, zone.contains p = true ∧ move p = some q) : LeadsToRest move w' home zone new where
  covers zone' found q := by
    rw [← rest q, found]
    simp
  gone_iff := by
    constructor
    · intro gone p inside
      cases moved : move p with
      | none => rfl
      | some q =>
        obtain ⟨zone', found, _⟩ := (rest q).mpr ⟨p, inside, moved⟩
        rw [gone] at found
        contradiction
    · intro all
      cases found : w'.zone? home new with
      | none => rfl
      | some zone' =>
        -- A zone has at least its first position, which must come from somewhere.
        obtain ⟨p, inside, moved⟩ := (rest zone'.topLeft).mp
          ⟨zone', found, zone'.contains_topLeft⟩
        rw [all p inside] at moved
        contradiction

/-- When runs of lines are deleted, a reference to the sheet leads to the rest of its zone. -/
theorem leadsToRest_followed {target : Reference} {home : SheetId} {zone : Zone}
    {lines : Direction → Nat} (ordered : target.Ordered)
    (led : w.registry.resolve target.sheet home = some sheet)
    (known : w.lines? sheet = some lines) (fit : RunsFit (lines direction) runs)
    (bounded : lines direction ≤ lastIndex) (names : w'.registry = w.registry)
    (left : w'.lines? sheet =
      some (Function.update lines direction (lines direction - runsLength runs)))
    (resolved : w.resolve target home = .ok zone) :
    LeadsToRest (fun p => p.onLines direction sheet (closeRuns runs)) w' home zone
      (target.followed (runs.map (Shift.ofRun direction sheet))) := by
  refine .of_contains fun q => ?_
  have before : ∀ p : Position, zone.contains p = true ↔
      p.sheet = sheet ∧ target.Covers lines p.line := by
    intro p
    rw [← exists_zone?_iff ordered led known]
    simp [zone?, resolved, Except.toOption]
  have after : ∀ new, target.followed (runs.map (Shift.ofRun direction sheet)) = some new →
      ((∃ zone', w'.zone? home (some new) = some zone' ∧ zone'.contains q = true) ↔
        q.sheet = sheet ∧ new.Covers
          (Function.update lines direction (lines direction - runsLength runs)) q.line) := by
    intro new follows
    refine exists_zone?_iff (Reference.ordered_followed ordered follows) ?_ left q
    rw [names, Reference.sheet_followed follows, led]
  have closed : (∃ new, target.followed (runs.map (Shift.ofRun direction sheet)) = some new ∧
      new.Covers (Function.update lines direction (lines direction - runsLength runs)) q.line) ↔ _ :=
    Reference.covers_followed ordered fit bounded
  constructor
  · rintro ⟨zone', found, inside⟩
    obtain ⟨new, follows, _⟩ := Option.bind_eq_some_iff.mp found
    rw [follows] at found
    obtain ⟨here, covers⟩ := (after new follows).mp ⟨zone', found, inside⟩
    obtain ⟨i, covered, moves⟩ := closed.mp ⟨new, follows, covers⟩
    refine ⟨q.withLine direction i, (before _).mpr ⟨?_, ?_⟩, ?_⟩
    · rw [Position.sheet_withLine, here]
    · rwa [Position.line_withLine]
    · unfold Position.onLines
      rw [Position.sheet_withLine, if_pos here, Position.line_withLine, Function.update_self, moves,
        Option.map_some, Position.withLine_withLine, Position.withLine_self]
  · rintro ⟨p, inside, moved⟩
    obtain ⟨here, covered⟩ := (before p).mp inside
    have home' : q.sheet = sheet := (Position.sheet_of_onLines moved).trans here
    unfold Position.onLines at moved
    rw [if_pos here] at moved
    obtain ⟨line, moves, rfl⟩ := Option.map_eq_some_iff.mp moved
    obtain ⟨new, follows, covers⟩ := closed.mpr ⟨p.line direction, by
      rw [Position.line_withLine, Function.update_idem, Function.update_eq_self]
      exact covered, by rw [Position.line_withLine, Function.update_self, moves]⟩
    rw [follows]
    exact (after new follows).mpr ⟨home', covers⟩

/-! ### Requests -/

/-- Where a position ends up when rows or columns of a sheet are deleted, unless it lies in one of
them: it moves up by the number of deleted ones before it. -/
def afterDeletion (direction : Direction) (sheet : SheetId) (indices : List Nat) (p : Position) :
    Option Position :=
  p.onLines direction sheet (closeUp indices.toFinset)

/-- Rows or columns of a sheet have been deleted. What was typed into a position that is left and the
format chosen for it have moved with it, and nothing else is on the sheet. A reference to the sheet
that led to a zone leads to the rest of it, and references to other sheets are what they were. -/
structure LinesDeleted (direction : Direction) (sheet : SheetId) (indices : List Nat)
    (w w' : Workbook) : Prop where
  names : w'.registry = w.registry
  lines : ∀ id, w'.lines? id =
    if id = sheet then (w.lines? id).map fun lines =>
      Function.update lines direction (lines direction - indices.toFinset.card)
    else w.lines? id
  content : ∀ p q, afterDeletion direction sheet indices p = some q →
    ∃ lead, (w.content p).Follows lead (w'.content q) ∧
      ∀ e, w.expr? p = some e → ∀ target ∈ e.references,
        if w.registry.resolve target.sheet p.sheet = some sheet then
          ∀ zone, w.resolve target p.sheet = .ok zone →
            LeadsToRest (afterDeletion direction sheet indices) w' p.sheet zone (lead target)
        else lead target = some target
  chosen : ∀ p q, afterDeletion direction sheet indices p = some q → w'.chosen q = w.chosen p
  empty : ∀ q, (∀ p, afterDeletion direction sheet indices p ≠ some q) → w'.content q = .empty
  unchosen : ∀ q, (∀ p, afterDeletion direction sheet indices p ≠ some q) → w'.chosen q = none

/-- A deletion is accepted of rows or columns of a sheet that is there, if some are left. -/
theorem accepted_deletion_iff :
    ((Request.deleteLines direction sheet indices).edit.perform w).1 = .ok () ↔
      ∃ lines, w.lines? sheet = some lines ∧ (∀ i ∈ indices, i < lines direction) ∧
        indices.toFinset.card < lines direction := by
  rw [← length_distinctIndices]
  simp only [Request.edit, Edit.deleteLines, Edit.perform_bind, Edit.perform_check,
    Workbook.sheet, lines?]
  cases found : w.sheet? sheet with
  | none => simp
  | some s =>
    simp only [Option.map_some, Option.some.injEq, exists_eq_left']
    cases beyond : indices.find? fun i => decide (s.lines direction ≤ i) with
    | some i =>
      have outside := List.find?_some beyond
      rw [decide_eq_true_eq] at outside
      have excess : ¬ ∀ i ∈ indices, i < s.lines direction := fun all =>
        absurd (all i (List.mem_of_find?_eq_some beyond)) (Nat.not_lt.mpr outside)
      simp [excess]
    | none =>
      have inside : ∀ i ∈ indices, i < s.lines direction := fun i listed => by
        simpa using List.find?_eq_none.mp beyond i listed
      by_cases every : s.lines direction ≤ (distinctIndices indices).length
      · simp [every, Nat.not_lt.mpr every]
      · simp only [every, ↓reduceIte, Nat.lt_of_not_le every, and_true]
        by_cases nothing : (descendingRuns indices).isEmpty = true
        · simpa [nothing] using inside
        · simpa [nothing] using inside

/-- A deletion of no lines changes nothing. -/
theorem after_deleteLines_of_runs_eq_nil (none' : descendingRuns indices = []) :
    w.after (.deleteLines direction sheet indices) = w := by
  rw [after_eq]
  cases found : w.sheet? sheet with
  | none => simp [prepared, found, clipped]
  | some s => simp [prepared, found, none', clipped]

/-- An accepted deletion deletes the runs of the given lines one after the other, the highest first,
and makes no other difference to what was typed, to chosen formats and to extents. -/
theorem relocated_deleteLines {lines : Direction → Nat} (known : w.lines? sheet = some lines)
    (inside : ∀ i ∈ indices, i < lines direction)
    (left : indices.toFinset.card < lines direction) (bounded : lines direction ≤ lastIndex) :
    Relocated (fun p => p.onLines direction sheet (closeRuns (descendingRuns indices)))
        (w.registry.followAll sheet ((descendingRuns indices).map (Shift.ofRun direction sheet))) w
        (w.after (.deleteLines direction sheet indices)) ∧
      ∀ id, (w.after (.deleteLines direction sheet indices)).lines? id =
        if id = sheet then (w.lines? id).map fun lines =>
          Function.update lines direction (lines direction - runsLength (descendingRuns indices))
        else w.lines? id := by
  obtain ⟨s, found, rfl⟩ := Option.map_eq_some_iff.mp known
  have within : ∀ run ∈ descendingRuns indices, run.1 + run.2 ≤ lastIndex := fun run listed =>
    ((runsFit_descendingRuns inside).le run listed).trans bounded
  by_cases none' : descendingRuns indices = []
  · rw [after_deleteLines_of_runs_eq_nil none', none']
    exact ⟨relocated_deletions (fun _ none => absurd none List.not_mem_nil) w,
      lines?_deletions [] w⟩
  · have prepared : w.prepared (.deleteLines direction sheet indices) =
        some (w.restructure sheet
          ((descendingRuns indices).map (Shift.ofRun direction sheet))) := by
      rw [← length_distinctIndices] at left
      simp only [prepared, found, Option.bind_some]
      exact if_pos ⟨inside, left, none'⟩
    obtain ⟨w₀, names, sheets, names', sheets'⟩ := w.exists_restructured sheet
      ((descendingRuns indices).map (Shift.ofRun direction sheet))
    have same := (w.restructure sheet
      ((descendingRuns indices).map (Shift.ofRun direction sheet))).sameSources_recalculate
    have relocated : Relocated _ _ w₀ (((descendingRuns indices).map
        (Shift.ofRun direction sheet)).foldl applyShift w₀) := relocated_deletions within w₀
    rw [names] at relocated
    rw [after_eq, prepared]
    refine ⟨(relocated.congr names.symm sheets.symm names' sheets').of_sameSources same,
      fun id => ?_⟩
    rw [lines?_of_sameSheets same.toSameSheets, lines?_congr sheets', lines?_deletions,
      lines?_congr sheets]

/-- An accepted deletion of rows or columns, given in any order and more than once, lets every cell
that is left keep its content and its format and every reference lead to what is left of what it led
to, in every workbook that can be attained and whose rows and columns are within the numbering. -/
theorem linesDeleted_of_accepted (attained : w.Attainable)
    (numbered : ∀ lines, w.lines? sheet = some lines → lines direction < indexBound)
    (accepted : ((Request.deleteLines direction sheet indices).edit.perform w).1 = .ok ()) :
    LinesDeleted direction sheet indices w (w.after (.deleteLines direction sheet indices)) := by
  obtain ⟨lines, known, inside, left⟩ := accepted_deletion_iff.mp accepted
  have bounded : lines direction ≤ lastIndex := Nat.le_sub_one_of_lt (numbered lines known)
  obtain ⟨relocated, extents⟩ := relocated_deleteLines known inside left bounded
  have move : (fun p : Position => p.onLines direction sheet (closeRuns (descendingRuns indices))) =
      afterDeletion direction sheet indices := by
    funext p
    exact congrArg _ (funext (closeRuns_descendingRuns indices))
  rw [move] at relocated
  simp only [runsLength_descendingRuns] at extents
  refine ⟨relocated.registry, extents, fun p q moved => ⟨_, relocated.follows p q moved, ?_⟩,
    relocated.chosen, relocated.empty, relocated.unchosen⟩
  intro e typed target listed
  have ordered := attained.allReferences Reference.law_ordered typed target listed
  unfold Registry.followAll
  split
  · rename_i led
    intro zone resolved
    rw [← move]
    refine leadsToRest_followed ordered led known (runsFit_descendingRuns inside) bounded
      relocated.registry ?_ resolved
    rw [extents, if_pos rfl, known, runsLength_descendingRuns]
    rfl
  · rfl

/-- Two of a hundred rows are deleted after a sum over three rows has been typed. -/
theorem linesDeleted_of_typed_sum :
    LinesDeleted .rows 0 [2, 1, 2]
      ((new Settings.standard FunctionTable.empty).after (.setContent 0 9 0 "=SUM(A2:A4)"))
      (((new Settings.standard FunctionTable.empty).after (.setContent 0 9 0 "=SUM(A2:A4)")).after
        (.deleteLines .rows 0 [2, 1, 2])) := by
  have typed : ((new Settings.standard FunctionTable.empty).after
      (.setContent 0 9 0 "=SUM(A2:A4)")).lines? 0 = some (Sheet.blank 100 26).lines :=
    (lines?_of_sameSheets (sameSheets_after_setContent _ ⟨0, 9, 0⟩ _) 0).trans (lines?_new ..)
  refine linesDeleted_of_accepted (.after (.new _ _) _ fun _ _ _ same => by contradiction) ?_
    (accepted_deletion_iff.mpr ⟨_, typed, by decide, by decide⟩)
  intro lines known
  rw [typed] at known
  obtain rfl := Option.some.inj known
  decide

end Workbook

end Spreadsheet
