import Mathlib.Algebra.GroupWithZero.Nat
import Mathlib.Data.Finset.Card
import Mathlib.Order.Interval.Finset.Nat
import Mathlib.Tactic.Tauto
import Spreadsheet.Workbook.Structure

/-!
# Deleting lines

Lines are deleted run by run, the highest run first. Together the runs do what a deletion of all
lines at once does: each line that is left moves up by the number of deleted lines before it.
-/
namespace Spreadsheet

/-! ### One run -/

/-- Where a line ends up when a run of lines is deleted, if it is not one of them. -/
def closeRun (run : Nat × Nat) (line : Nat) : Option Nat :=
  if line < run.1 then some line
  else if run.1 + run.2 ≤ line then some (line - run.2)
  else none

/-- A line in front of a deleted run stays. -/
theorem closeRun_of_lt {run : Nat × Nat} {line : Nat} (before : line < run.1) :
    closeRun run line = some line :=
  if_pos before

/-- A line behind a deleted run moves up. -/
theorem closeRun_of_le {run : Nat × Nat} {line : Nat} (behind : run.1 + run.2 ≤ line) :
    closeRun run line = some (line - run.2) := by
  unfold closeRun
  rw [if_neg (by omega), if_pos behind]

/-- A line of the run is gone. -/
theorem closeRun_of_mem {run : Nat × Nat} {line : Nat} (first : run.1 ≤ line)
    (last : line < run.1 + run.2) : closeRun run line = none := by
  unfold closeRun
  rw [if_neg (by omega), if_neg (by omega)]

/-- Where the lines come from that are left. -/
theorem closeRun_eq_some_iff {run : Nat × Nat} {line new : Nat} :
    closeRun run line = some new ↔
      line < run.1 ∧ new = line ∨ run.1 + run.2 ≤ line ∧ new = line - run.2 := by
  unfold closeRun
  split
  · simp only [Option.some.injEq]
    omega
  · split
    · simp only [Option.some.injEq]
      omega
    · simp only [reduceCtorEq, false_iff]
      omega

/-- A line that is left moves up if it moves at all. -/
theorem closeRun_le {run : Nat × Nat} {line new : Nat} (kept : closeRun run line = some new) :
    new ≤ line := by
  rcases closeRun_eq_some_iff.mp kept with ⟨_, rfl⟩ | ⟨_, rfl⟩
  · exact Nat.le_refl _
  · exact Nat.sub_le _ _

/-- Deleting a run is deleting all of it but the first line, and then that line. -/
theorem closeRun_succ (start count line : Nat) :
    closeRun (start, count + 1) line =
      (closeRun (start + 1, count) line).bind (closeRun (start, 1)) := by
  rcases Nat.lt_trichotomy line start with before | rfl | behind
  · rw [closeRun_of_lt before, closeRun_of_lt (Nat.lt_succ_of_lt before), Option.bind_some,
      closeRun_of_lt before]
  · rw [closeRun_of_mem (Nat.le_refl _) (by dsimp only; omega), closeRun_of_lt (Nat.lt_succ_self _),
      Option.bind_some, closeRun_of_mem (Nat.le_refl _) (Nat.lt_succ_self _)]
  · by_cases inside : line < start + 1 + count
    · rw [closeRun_of_mem (by dsimp only; omega) (by dsimp only; omega),
        closeRun_of_mem behind inside]
      rfl
    · rw [closeRun_of_le (by dsimp only; omega), closeRun_of_le (by dsimp only; omega),
        Option.bind_some, closeRun_of_le (by dsimp only; omega)]
      rfl

/-! ### Several runs -/

/-- Where a line ends up when runs of lines are deleted one after the other. -/
def closeRuns (runs : List (Nat × Nat)) (line : Nat) : Option Nat :=
  runs.foldlM (fun line run => closeRun run line) line

/-- Runs that are deleted one after the other from so many lines lie within what is left. -/
def RunsFit : Nat → List (Nat × Nat) → Prop
  | _, [] => True
  | lines, run :: rest => run.1 + run.2 ≤ lines ∧ RunsFit (lines - run.2) rest

/-- The number of lines in runs. -/
def runsLength (runs : List (Nat × Nat)) : Nat := (runs.map Prod.snd).sum

/-- One run is deleted before the others. -/
theorem closeRuns_cons (run : Nat × Nat) (rest : List (Nat × Nat)) (line : Nat) :
    closeRuns (run :: rest) line = (closeRun run line).bind (closeRuns rest) :=
  List.foldlM_cons

/-- One run is deleted after the others. -/
theorem closeRuns_concat (runs : List (Nat × Nat)) (run : Nat × Nat) (line : Nat) :
    closeRuns (runs ++ [run]) line = (closeRuns runs line).bind (closeRun run) := by
  unfold closeRuns
  rw [List.foldlM_append]
  cases runs.foldlM (fun line run => closeRun run line) line with
  | none => rfl
  | some line => simp

/-- One more run fits if it lies within what the others leave. -/
theorem runsFit_concat {lines : Nat} {runs : List (Nat × Nat)} {run : Nat × Nat} :
    RunsFit lines (runs ++ [run]) ↔
      RunsFit lines runs ∧ run.1 + run.2 ≤ lines - runsLength runs := by
  induction runs generalizing lines with
  | nil => simp [RunsFit, runsLength]
  | cons first rest ih =>
    simp only [List.cons_append, RunsFit, ih, runsLength, List.map_cons, List.sum_cons,
      Nat.sub_sub, and_assoc]

/-- Runs that fit lie within the lines. -/
theorem RunsFit.le {lines : Nat} {runs : List (Nat × Nat)} (fit : RunsFit lines runs) :
    ∀ run ∈ runs, run.1 + run.2 ≤ lines := by
  induction runs generalizing lines with
  | nil => exact fun _ none => absurd none List.not_mem_nil
  | cons first rest ih =>
    refine List.forall_mem_cons.mpr ⟨fit.1, fun run listed => ?_⟩
    exact (ih fit.2 run listed).trans (Nat.sub_le _ _)

/-! ### Runs of consecutive numbers -/

variable {a : Nat} {rest list : List Nat} {lines line : Nat}

/-- A number in front of others starts a run of its own or makes the first run longer. -/
theorem ascendingRuns_cons (a : Nat) (rest : List Nat) :
    (∃ count runs, ascendingRuns rest = (a + 1, count) :: runs ∧
      ascendingRuns (a :: rest) = (a, count + 1) :: runs) ∨
    ascendingRuns (a :: rest) = (a, 1) :: ascendingRuns rest := by
  rw [ascendingRuns]
  cases found : ascendingRuns rest with
  | nil => exact .inr rfl
  | cons run runs =>
    obtain ⟨start, count⟩ := run
    dsimp only
    split
    · rename_i next
      exact .inl ⟨count, runs, by rw [← next], rfl⟩
    · exact .inr rfl

/-- The runs of some numbers have as many lines as there are numbers. -/
theorem runsLength_reverse_ascendingRuns (list : List Nat) :
    runsLength (ascendingRuns list).reverse = list.length := by
  have forward : runsLength (ascendingRuns list) = list.length := by
    induction list with
    | nil => rfl
    | cons a rest ih =>
      rcases ascendingRuns_cons a rest with ⟨count, runs, found, longer⟩ | own
      · rw [found] at ih
        simp only [runsLength, List.map_cons, List.sum_cons] at ih
        simp only [longer, runsLength, List.map_cons, List.sum_cons, List.length_cons]
        omega
      · simp only [own, runsLength, List.map_cons, List.sum_cons, List.length_cons] at ih ⊢
        omega
  rw [← forward]
  simp [runsLength, List.sum_reverse]

/-- Deleting the runs of some numbers is deleting the lowest number last. -/
theorem closeRuns_reverse_cons (a : Nat) (rest : List Nat) (line : Nat) :
    closeRuns (ascendingRuns (a :: rest)).reverse line =
      (closeRuns (ascendingRuns rest).reverse line).bind (closeRun (a, 1)) := by
  rcases ascendingRuns_cons a rest with ⟨count, runs, found, longer⟩ | own
  · rw [longer, found, List.reverse_cons, closeRuns_concat, List.reverse_cons, closeRuns_concat,
      Option.bind_assoc]
    exact congrArg _ (funext fun line => closeRun_succ a count line)
  · rw [own, List.reverse_cons, closeRuns_concat]

/-- The number of deleted lines before a line. -/
def deletedBefore (deleted : Finset Nat) (line : Nat) : Nat := (deleted.filter (· < line)).card

/-- Where a line ends up when all lines of a set are deleted at once, if it is not one of them. -/
def closeUp (deleted : Finset Nat) (line : Nat) : Option Nat :=
  if line ∈ deleted then none else some (line - deletedBefore deleted line)

/-- No line before the first deleted one is deleted. -/
theorem deletedBefore_of_le {deleted : Finset Nat} (above : ∀ b ∈ deleted, line ≤ b) :
    deletedBefore deleted line = 0 := by
  rw [deletedBefore, Finset.card_eq_zero, Finset.filter_eq_empty_iff]
  exact fun b listed => Nat.not_lt.mpr (above b listed)

/-- Between two lines there is room for the deleted ones only. -/
theorem deletedBefore_add_lt {deleted : Finset Nat} (above : ∀ b ∈ deleted, a < b)
    (behind : a < line) : a + deletedBefore deleted line < line := by
  have within : deleted.filter (· < line) ⊆ Finset.Ioo a line := by
    intro b listed
    obtain ⟨member, below⟩ := Finset.mem_filter.mp listed
    exact Finset.mem_Ioo.mpr ⟨above b member, below⟩
  have count := Finset.card_le_card within
  rw [Nat.card_Ioo] at count
  unfold deletedBefore
  omega

/-- One more deleted line counts for the lines behind it. -/
theorem deletedBefore_insert {deleted : Finset Nat} (new : a ∉ deleted) :
    deletedBefore (insert a deleted) line =
      if a < line then deletedBefore deleted line + 1 else deletedBefore deleted line := by
  unfold deletedBefore
  rw [Finset.filter_insert]
  split
  · exact Finset.card_insert_of_notMem fun listed => new (Finset.mem_filter.mp listed).1
  · rfl

/-- Deleting one more line, the lowest of all, closes up once more. -/
theorem closeUp_insert {deleted : Finset Nat} (above : ∀ b ∈ deleted, a < b) :
    (closeUp deleted line).bind (closeRun (a, 1)) = closeUp (insert a deleted) line := by
  have new : a ∉ deleted := fun listed => Nat.lt_irrefl a (above a listed)
  unfold closeUp
  by_cases gone : line ∈ deleted
  · rw [if_pos gone, if_pos (Finset.mem_insert_of_mem gone)]
    rfl
  · rw [if_neg gone, Option.bind_some, deletedBefore_insert new]
    simp only [Finset.mem_insert, gone, or_false]
    rcases Nat.lt_trichotomy line a with before | rfl | behind
    · have none := deletedBefore_of_le fun b listed => Nat.le_of_lt (before.trans (above b listed))
      rw [none, closeRun_of_lt (by dsimp only; omega), if_neg (by omega), if_neg (by omega)]
    · have none := deletedBefore_of_le fun b listed => Nat.le_of_lt (above b listed)
      rw [none, Nat.sub_zero, closeRun_of_mem (Nat.le_refl _) (Nat.lt_succ_self _), if_pos rfl]
    · have room := deletedBefore_add_lt above behind
      rw [closeRun_of_le (by dsimp only; omega), if_neg (by omega), if_pos behind]
      rfl

/-- Deleting the runs of ascending numbers is deleting all of them at once. -/
theorem closeRuns_reverse_ascendingRuns (ascending : list.Pairwise (· < ·)) (line : Nat) :
    closeRuns (ascendingRuns list).reverse line = closeUp list.toFinset line := by
  induction list with
  | nil => simp [ascendingRuns, closeRuns, closeUp, deletedBefore]
  | cons a rest ih =>
    obtain ⟨above, others⟩ := List.pairwise_cons.mp ascending
    rw [closeRuns_reverse_cons, ih others, List.toFinset_cons]
    exact closeUp_insert fun b listed => above b (List.mem_toFinset.mp listed)

/-- Ascending numbers below a bound leave room below the first of them. -/
theorem add_length_lt (ascending : (a :: rest).Pairwise (· < ·)) (below : ∀ b ∈ a :: rest, b < lines) :
    a + rest.length < lines := by
  induction rest generalizing a with
  | nil => exact below a List.mem_cons_self
  | cons b rest ih =>
    obtain ⟨above, others⟩ := List.pairwise_cons.mp ascending
    have next := ih others fun c listed => below c (List.mem_cons_of_mem a listed)
    have step := above b List.mem_cons_self
    rw [List.length_cons]
    omega

/-- The runs of ascending numbers below a bound fit into so many lines, the highest first. -/
theorem runsFit_reverse_ascendingRuns (ascending : list.Pairwise (· < ·))
    (below : ∀ b ∈ list, b < lines) : RunsFit lines (ascendingRuns list).reverse := by
  induction list with
  | nil => trivial
  | cons a rest ih =>
    have others := ih (List.pairwise_cons.mp ascending).2 fun b listed =>
      below b (List.mem_cons_of_mem a listed)
    have room := add_length_lt ascending below
    have total := runsLength_reverse_ascendingRuns rest
    rcases ascendingRuns_cons a rest with ⟨count, runs, found, longer⟩ | own
    · rw [found, List.reverse_cons, runsFit_concat] at others
      rw [longer, List.reverse_cons, runsFit_concat]
      obtain ⟨fit, last⟩ := others
      refine ⟨fit, ?_⟩
      dsimp only at last ⊢
      omega
    · rw [own, List.reverse_cons, runsFit_concat]
      refine ⟨others, ?_⟩
      dsimp only
      omega

/-! ### Given indices -/

/-- The given numbers are put in ascending order. -/
theorem pairwise_distinctIndices (indices : List Nat) : (distinctIndices indices).Pairwise (· < ·) :=
  (Std.ExtTreeSet.ordered_toList (t := Std.ExtTreeSet.ofList indices compare)).imp
    Nat.compare_eq_lt.mp

/-- The distinct numbers are those given. -/
theorem toFinset_distinctIndices (indices : List Nat) :
    (distinctIndices indices).toFinset = indices.toFinset := by
  ext i
  simp [distinctIndices, Std.ExtTreeSet.mem_toList]

/-- There are as many distinct numbers as the given ones make up. -/
theorem length_distinctIndices (indices : List Nat) :
    (distinctIndices indices).length = indices.toFinset.card := by
  rw [← toFinset_distinctIndices, List.toFinset_card_of_nodup]
  exact (pairwise_distinctIndices indices).imp Nat.ne_of_lt

/-- Deleting the runs of given numbers, the highest first, is deleting all of them at once. -/
theorem closeRuns_descendingRuns (indices : List Nat) (line : Nat) :
    closeRuns (descendingRuns indices) line = closeUp indices.toFinset line := by
  rw [descendingRuns, closeRuns_reverse_ascendingRuns (pairwise_distinctIndices indices),
    toFinset_distinctIndices]

/-- The runs of given numbers fit into so many lines if each number does. -/
theorem runsFit_descendingRuns {indices : List Nat} (below : ∀ i ∈ indices, i < lines) :
    RunsFit lines (descendingRuns indices) := by
  refine runsFit_reverse_ascendingRuns (pairwise_distinctIndices indices) fun i listed => ?_
  refine below i (List.mem_toFinset.mp ?_)
  rw [← toFinset_distinctIndices]
  exact List.mem_toFinset.mpr listed

/-- The runs of given numbers have as many lines as there are distinct numbers. -/
theorem runsLength_descendingRuns (indices : List Nat) :
    runsLength (descendingRuns indices) = indices.toFinset.card := by
  rw [descendingRuns, runsLength_reverse_ascendingRuns, length_distinctIndices]

/-- Numbers that are given in ascending order are the distinct ones. -/
theorem distinctIndices_of_pairwise {indices : List Nat} (ascending : indices.Pairwise (· < ·)) :
    distinctIndices indices = indices := by
  have once : indices.Nodup := ascending.imp Nat.ne_of_lt
  have onceDistinct : (distinctIndices indices).Nodup :=
    (pairwise_distinctIndices indices).imp Nat.ne_of_lt
  refine List.Perm.eq_of_pairwise' (pairwise_distinctIndices indices) ascending ?_
  exact List.perm_of_nodup_nodup_toFinset_eq onceDistinct once (toFinset_distinctIndices indices)

/-- Consecutive numbers are one run. -/
theorem ascendingRuns_range' (start count : Nat) :
    ascendingRuns (List.range' start (count + 1)) = [(start, count + 1)] := by
  induction count generalizing start with
  | zero => rfl
  | succ count ih =>
    rw [List.range'_succ, ascendingRuns, ih]
    exact if_pos rfl

/-- Consecutive numbers are one run, in whichever order runs are taken. -/
theorem descendingRuns_range' (start : Nat) {count : Nat} (any : 0 < count) :
    descendingRuns (List.range' start count) = [(start, count)] := by
  obtain ⟨count, rfl⟩ := Nat.exists_eq_add_one.mpr any
  rw [descendingRuns, distinctIndices_of_pairwise List.pairwise_lt_range', ascendingRuns_range']
  rfl

end Spreadsheet
