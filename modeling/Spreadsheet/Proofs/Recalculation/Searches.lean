import Spreadsheet.Proofs.Recalculation.Reachability

/-!
# Searches for groups

A search for groups visits formulas in depth. While some visits are open, a formula on the stack gets
back to one of those, and what is met later on the stack can be reached from each of them. When a
visit ends and its formula has not got back to anything below it, what it has put on the stack is a
group. A plain search in depth beside it tells when formulas are left, and groups come in the order
in which the last formula of each is left.
-/
namespace Spreadsheet

namespace Schedule

variable {next : Position → List Position} {ground path : List Position} {p q : Position}

/-- A position can be reached from another one in any number of steps. -/
abbrev Reaches (next : Position → List Position) : Position → Position → Prop :=
  Relation.ReflTransGen (Steps next)

/-! ### Searching in depth -/

/-- A plain search in depth: the positions seen, and those it has left, the latest first. -/
structure Walk where
  seen : PositionSet
  left : List Position

/-- Search in depth from a position, unless it has been seen. -/
def Walk.visit (next : Position → List Position) : Nat → Walk → Position → Walk
  | 0, w, _ => w
  | depth + 1, w, p =>
    if w.seen.contains p then w
    else
      let below := (next p).foldl (Walk.visit next depth) { w with seen := w.seen.insert p }
      { below with left := p :: below.left }

/-- A position that has been seen is not searched again. -/
theorem Walk.visit_of_mem {w : Walk} (depth : Nat) (known : p ∈ w.seen) :
    w.visit next depth p = w := by
  cases depth with
  | zero => rfl
  | succ depth =>
    rw [visit]
    exact if_pos (Std.ExtTreeSet.contains_iff_mem.mpr known)

/-- A position that has not been seen is left when all that comes next has been searched. -/
theorem Walk.visit_of_not_mem {w : Walk} (depth : Nat) (fresh : p ∉ w.seen) :
    w.visit next (depth + 1) p =
      ⟨((next p).foldl (Walk.visit next depth) ⟨w.seen.insert p, w.left⟩).seen,
        p :: ((next p).foldl (Walk.visit next depth) ⟨w.seen.insert p, w.left⟩).left⟩ := by
  rw [visit]
  exact if_neg fun known => fresh (Std.ExtTreeSet.contains_iff_mem.mp known)

/-- A search has left the formulas of the first group, and later a formula of the second one. -/
def LeftBefore (left first second : List Position) : Prop :=
  ∃ p ∈ second, ∃ later earlier, left = later ++ p :: earlier ∧ ∀ q ∈ first, q ∈ earlier

/-- What has been left before stays so when more is left. -/
theorem LeftBefore.cons {left first second : List Position} (before : LeftBefore left first second)
    (p : Position) : LeftBefore (p :: left) first second := by
  obtain ⟨q, listed, later, earlier, rfl, all⟩ := before
  exact ⟨q, listed, p :: later, earlier, rfl, all⟩

/-! ### The parts of a state -/

namespace Search

variable {s : Search}

/-- A number inserted for a position is found there, and no other changes. -/
theorem number_insert (numbers : PositionMap Nat) (n : Nat) :
    ((numbers.insert p n)[q]?).getD 0 = if q = p then n else (numbers[q]?).getD 0 := by
  rw [Std.ExtTreeMap.getElem?_insert]
  simp only [Std.LawfulEqOrd.compare_eq_iff_eq]
  by_cases same : q = p
  · rw [if_pos same.symm, if_pos same, Option.getD_some]
  · rw [if_neg (Ne.symm same), if_neg same]

/-- Entering a formula numbers it. -/
theorem mem_indices_enter : q ∈ (s.enter p).indices ↔ q = p ∨ q ∈ s.indices := by
  rw [enter, Std.ExtTreeMap.mem_insert, Std.LawfulEqOrd.compare_eq_iff_eq, eq_comm]

/-- The formula entered gets the next number. -/
theorem index_enter : (s.enter p).index q = if q = p then s.count else s.index q :=
  number_insert s.indices s.count

/-- The formula entered gets back to itself so far. -/
theorem low_enter : (s.enter p).low q = if q = p then s.count else s.low q :=
  number_insert s.lows s.count

/-- Lowering concerns the low number of one formula. -/
theorem low_lower (n : Nat) : (s.lower p n).low q = if q = p then min (s.low p) n else s.low q :=
  number_insert s.lows (min (s.low p) n)

/-- What is taken from a stack down to a formula is what stands above it, and the formula. -/
theorem popThrough_append {above below : List Position} (fresh : p ∉ above) :
    popThrough p (above ++ p :: below) = (above ++ [p], below) := by
  induction above with
  | nil => simp [popThrough]
  | cons q above ih =>
    obtain ⟨differ, fresh⟩ := not_or.mp (mt List.mem_cons.mpr fresh)
    rw [List.cons_append, popThrough, if_neg (Ne.symm differ), ih fresh]
    rfl

/-- Positions erased one after the other are gone. -/
theorem mem_foldl_erase {positions : PositionSet} (taken : List Position) :
    q ∈ taken.foldl (fun waiting q => waiting.erase q) positions ↔ q ∈ positions ∧ q ∉ taken := by
  induction taken generalizing positions with
  | nil => simp
  | cons p taken ih =>
    rw [List.foldl_cons, ih, PositionSet.mem_erase, List.mem_cons, not_or, and_comm (a := q ≠ p),
      and_assoc]

/-- A formula that gets back to none below it takes what stands above it from the stack. -/
theorem leave_of_root {above below : List Position} (root : s.low p = s.index p)
    (split : s.stack = above ++ p :: below) (fresh : p ∉ above) :
    s.leave p =
      { s with
        stack := below
        onStack := (above ++ [p]).foldl (fun waiting q => waiting.erase q) s.onStack
        groups := s.groups ++ [(above ++ [p]).mergeSort fun a b => (compare a b).isLE] } := by
  rw [leave, if_pos root, split, popThrough_append fresh]

/-- A formula that gets back to one below it stays on the stack. -/
theorem leave_of_joined (joined : s.low p ≠ s.index p) : s.leave p = s := by
  rw [leave, if_neg joined]

end Search

/-- A list without repetitions ascends strictly when it is sorted. -/
theorem ascending_mergeSort {positions : List Position} (once : positions.Nodup) :
    (positions.mergeSort fun a b => (compare a b).isLE).Pairwise fun a b => compare a b = .lt := by
  have sorted : (positions.mergeSort fun a b => (compare a b).isLE).Pairwise fun a b =>
      (compare a b).isLE = true := by
    refine List.pairwise_mergeSort ?_ ?_ positions
    · exact fun a b c first second => Std.TransOrd.isLE_trans first second
    · intro a b
      rw [Std.OrientedOrd.eq_swap (a := b)]
      cases compare a b <;> rfl
  have distinct := (List.mergeSort_perm positions fun a b => (compare a b).isLE).nodup_iff.mpr once
  refine (sorted.and distinct).imp fun {a b} both => ?_
  rcases Ordering.isLE_iff_eq_lt_or_eq_eq.mp both.1 with less | same
  · exact less
  · exact absurd (Std.LawfulEqOrd.eq_of_compare same) both.2

/-! ### States beside a plain search -/

/-- A group of positions that can be reached from each other, in ascending order, with all positions
that can be reached from it and from which it can be reached. -/
structure Mutual (next : Position → List Position) (group : List Position) : Prop where
  ascending : group.Pairwise fun a b => compare a b = .lt
  whole : ∃ p ∈ group, ∀ q, q ∈ group ↔ Reaches next p q ∧ Reaches next q p

/-- The state of a search for groups of a list while the visits of a path are open, the latest first,
beside a plain search that has seen the same. -/
structure Sound (next : Position → List Position) (ground path : List Position) (w : Walk)
    (s : Search) : Prop where
  seen : ∀ p, p ∈ w.seen ↔ p ∈ s.indices
  listed : ∀ p ∈ s.indices, p ∈ ground
  numbered : ∀ p ∈ s.indices, s.index p < s.count
  onStack : ∀ p, p ∈ s.onStack ↔ p ∈ s.stack
  descending : s.stack.Pairwise fun p q => s.index q < s.index p
  /-- What has been met is on the stack or in a group. -/
  met : ∀ p, p ∈ s.indices ↔ p ∈ s.stack ∨ p ∈ s.groups.flatten
  apart : ∀ p ∈ s.stack, p ∉ s.groups.flatten
  inside : ∀ p ∈ path, p ∈ s.stack
  nested : path.Pairwise fun p q => s.index q < s.index p
  /-- From an open visit all that was put on the stack later can be reached. -/
  forth : ∀ p ∈ path, ∀ q ∈ s.stack, s.index p ≤ s.index q → Reaches next p q
  /-- What is on the stack gets back to an open visit. -/
  back : ∀ q ∈ s.stack, ∃ p ∈ path, s.index p ≤ s.index q ∧ Reaches next q p
  left : ∀ p, p ∈ w.left ↔ p ∈ s.indices ∧ p ∉ path
  leftOnce : w.left.Nodup
  /-- What comes after a position that has been left has been met. -/
  closed : ∀ p ∈ w.left, ∀ q ∈ next p, q ∈ s.indices
  /-- What comes after a member of a group is in a group. -/
  settled : ∀ p ∈ s.groups.flatten, ∀ q ∈ next p, q ∈ s.groups.flatten
  groups : ∀ group ∈ s.groups, Mutual next group
  ordered : s.groups.Pairwise (LeftBefore w.left)

namespace Sound

variable {w : Walk} {s : Search} {above below : List Position}

/-- Before anything is met. -/
theorem start : Sound next ground [] ⟨∅, []⟩ .start := by
  constructor <;> simp [Search.start]

/-- What is on the stack has been met. -/
theorem met_of_stack (sound : Sound next ground path w s) (listed : p ∈ s.stack) : p ∈ s.indices :=
  (sound.met p).mpr (.inl listed)

/-- The stack holds every formula once. -/
theorem nodup_stack (sound : Sound next ground path w s) : s.stack.Nodup :=
  sound.descending.imp fun less same => by
    subst same
    exact lt_irrefl _ less

/-- What has got into a group has been left. -/
theorem left_of_group (sound : Sound next ground path w s) (listed : p ∈ s.groups.flatten) : p ∈ w.left :=
  (sound.left p).mpr ⟨(sound.met p).mpr (.inr listed), fun underway =>
    sound.apart p (sound.inside p underway) listed⟩

/-- All that can be reached from a member of a group is in groups. -/
theorem settled_of_reaches (sound : Sound next ground path w s) (listed : p ∈ s.groups.flatten)
    (path : Reaches next p q) : q ∈ s.groups.flatten := by
  induction path with
  | refl => exact listed
  | tail _ step ih => exact sound.settled _ ih _ step

/-- A low number plays no part in what is on the stack and in groups. -/
theorem lower (sound : Sound next ground path w s) (n : Nat) : Sound next ground path w (s.lower p n) where
  seen := sound.seen
  listed := sound.listed
  numbered := sound.numbered
  onStack := sound.onStack
  descending := sound.descending
  met := sound.met
  apart := sound.apart
  inside := sound.inside
  nested := sound.nested
  forth := sound.forth
  back := sound.back
  left := sound.left
  leftOnce := sound.leftOnce
  closed := sound.closed
  settled := sound.settled
  groups := sound.groups
  ordered := sound.ordered

/-- A formula is entered that can be reached from all open visits. -/
theorem enter (sound : Sound next ground path w s) (fresh : p ∉ s.indices) (known : p ∈ ground)
    (reached : ∀ q ∈ path, Reaches next q p) :
    Sound next ground (p :: path) ⟨w.seen.insert p, w.left⟩ (s.enter p) := by
  have own : (s.enter p).index p = s.count := by rw [Search.index_enter, if_pos rfl]
  have old : ∀ q ∈ s.indices, (s.enter p).index q = s.index q := fun q known => by
    rw [Search.index_enter, if_neg fun same : q = p => fresh (same ▸ known)]
  have stacked : ∀ q ∈ s.stack, (s.enter p).index q = s.index q := fun q listed =>
    old q (sound.met_of_stack listed)
  have below : ∀ q ∈ s.stack, (s.enter p).index q < (s.enter p).index p := fun q listed => by
    rw [stacked q listed, own]
    exact sound.numbered q (sound.met_of_stack listed)
  exact
    { seen := fun q => by rw [PositionSet.mem_insert, Search.mem_indices_enter, sound.seen]
      listed := fun q met => by
        rcases Search.mem_indices_enter.mp met with rfl | before
        · exact known
        · exact sound.listed q before
      numbered := fun q met => by
        rcases Search.mem_indices_enter.mp met with rfl | before
        · rw [own]
          exact Nat.lt_succ_self _
        · rw [old q before]
          exact Nat.lt_succ_of_lt (sound.numbered q before)
      onStack := fun q =>
        PositionSet.mem_insert.trans ((or_congr_right (sound.onStack q)).trans List.mem_cons.symm)
      descending := by
        refine List.pairwise_cons.mpr ⟨below, sound.descending.imp_of_mem fun one other less => ?_⟩
        rwa [stacked _ one, stacked _ other]
      met := fun q => by
        rw [Search.mem_indices_enter, sound.met, ← or_assoc]
        exact or_congr_left List.mem_cons.symm
      apart := fun q listed => by
        rcases List.mem_cons.mp listed with rfl | listed
        · exact fun old => fresh ((sound.met q).mpr (.inr old))
        · exact sound.apart q listed
      inside := fun q underway => by
        rcases List.mem_cons.mp underway with rfl | underway
        · exact List.mem_cons_self
        · exact List.mem_cons_of_mem p (sound.inside q underway)
      nested := by
        refine List.pairwise_cons.mpr ⟨fun q underway => below q (sound.inside q underway),
          sound.nested.imp_of_mem fun one other less => ?_⟩
        rwa [stacked _ (sound.inside _ one), stacked _ (sound.inside _ other)]
      forth := fun x underway y listed later => by
        rcases List.mem_cons.mp underway with rfl | earlier <;>
          rcases List.mem_cons.mp listed with rfl | old
        · exact .refl
        · exact absurd later (Nat.not_le.mpr (below y old))
        · exact reached x earlier
        · rw [stacked x (sound.inside x earlier), stacked y old] at later
          exact sound.forth x earlier y old later
      back := fun y listed => by
        rcases List.mem_cons.mp listed with rfl | listed
        · exact ⟨y, List.mem_cons_self, le_rfl, .refl⟩
        · obtain ⟨x, underway, earlier, path⟩ := sound.back y listed
          refine ⟨x, List.mem_cons_of_mem p underway, ?_, path⟩
          rwa [stacked x (sound.inside x underway), stacked y listed]
      left := fun q => by
        rw [sound.left, Search.mem_indices_enter, List.mem_cons]
        by_cases same : q = p
        · simp [same, fresh]
        · simp [same]
      leftOnce := sound.leftOnce
      closed := fun q listed u step =>
        Search.mem_indices_enter.mpr (.inr (sound.closed q listed u step))
      settled := sound.settled
      groups := sound.groups
      ordered := sound.ordered }

/-- The latest open visit has not been left. -/
theorem nodup_leave (sound : Sound next ground (p :: path) w s) : (p :: w.left).Nodup :=
  List.nodup_cons.mpr ⟨fun listed => ((sound.left p).mp listed).2 List.mem_cons_self,
    sound.leftOnce⟩

/-- The latest visit lies above all others that are open. -/
theorem index_lt_of_path (sound : Sound next ground (p :: path) w s) (underway : q ∈ path) :
    s.index q < s.index p :=
  (List.pairwise_cons.mp sound.nested).1 q underway

/-- When the latest visit ends, its formula is left. -/
theorem left_leave (sound : Sound next ground (p :: path) w s) :
    q ∈ p :: w.left ↔ q ∈ s.indices ∧ q ∉ path := by
  rw [List.mem_cons, sound.left, List.mem_cons, not_or]
  by_cases same : q = p
  · subst same
    have known := sound.met_of_stack (sound.inside q List.mem_cons_self)
    have alone : q ∉ path := fun underway => lt_irrefl _ (sound.index_lt_of_path underway)
    simp [known, alone]
  · simp [same]

/-- When the latest visit ends, what comes after its formula has been met. -/
theorem closed_leave (sound : Sound next ground (p :: path) w s) (followed : ∀ q ∈ next p, q ∈ s.indices) :
    ∀ q ∈ p :: w.left, ∀ u ∈ next q, u ∈ s.indices := fun q listed => by
  rcases List.mem_cons.mp listed with rfl | listed
  · exact followed
  · exact sound.closed q listed

/-- The latest visit ends, and its formula gets back to one below it on the stack. -/
theorem leave_joined (sound : Sound next ground (p :: path) w s) (followed : ∀ q ∈ next p, q ∈ s.indices)
    (joined : ∃ q ∈ s.stack, s.index q < s.index p ∧ Reaches next p q) :
    Sound next ground path ⟨w.seen, p :: w.left⟩ s where
  seen := sound.seen
  listed := sound.listed
  numbered := sound.numbered
  onStack := sound.onStack
  descending := sound.descending
  met := sound.met
  apart := sound.apart
  inside q underway := sound.inside q (List.mem_cons_of_mem p underway)
  nested := (List.pairwise_cons.mp sound.nested).2
  forth q underway := sound.forth q (List.mem_cons_of_mem p underway)
  back q listed := by
    obtain ⟨x, underway, earlier, way⟩ := sound.back q listed
    rcases List.mem_cons.mp underway with rfl | underway
    · -- What got back to the formula gets back to the open visit that the formula gets back to.
      obtain ⟨z, stacked, less, on⟩ := joined
      obtain ⟨y, open', before, rest⟩ := sound.back z stacked
      rcases List.mem_cons.mp open' with rfl | open'
      · exact absurd less (Nat.not_lt.mpr before)
      · exact ⟨y, open', (before.trans less.le).trans earlier, (way.trans on).trans rest⟩
    · exact ⟨x, underway, earlier, way⟩
  left q := sound.left_leave
  leftOnce := sound.nodup_leave
  closed := sound.closed_leave followed
  settled := sound.settled
  groups := sound.groups
  ordered := sound.ordered.imp fun before => before.cons p

/-! ### Groups -/

section Root

variable (sound : Sound next ground (p :: path) w s) (split : s.stack = above ++ p :: below)

include sound split

/-- What stands above the formula of the latest visit has a greater number, and what stands below it
a lesser one. -/
theorem index_split : (∀ q ∈ above, s.index p < s.index q) ∧ ∀ q ∈ below, s.index q < s.index p := by
  have descending := sound.descending
  rw [split] at descending
  obtain ⟨_, lower, apart⟩ := List.pairwise_append.mp descending
  exact ⟨fun q listed => apart q listed p List.mem_cons_self, (List.pairwise_cons.mp lower).1⟩

/-- Open visits other than the latest lie below it. -/
theorem below_of_path (underway : q ∈ path) : q ∈ below := by
  have less := sound.index_lt_of_path underway
  have stacked := sound.inside q (List.mem_cons_of_mem p underway)
  rw [split] at stacked
  rcases List.mem_append.mp stacked with high | low
  · exact absurd less (Nat.not_lt.mpr ((sound.index_split split).1 q high).le)
  · rcases List.mem_cons.mp low with rfl | low
    · exact absurd less (lt_irrefl _)
    · exact low

/-- What stands on the stack down to the formula can be reached from it and gets back to it. -/
theorem mutual_of_above (listed : q ∈ above ++ [p]) : Reaches next p q ∧ Reaches next q p := by
  have here : p ∈ s.stack := sound.inside p List.mem_cons_self
  have stacked : q ∈ s.stack ∧ s.index p ≤ s.index q := by
    rcases List.mem_append.mp listed with high | own
    · exact ⟨split ▸ List.mem_append_left _ high, ((sound.index_split split).1 q high).le⟩
    · rw [List.mem_singleton.mp own]
      exact ⟨here, le_rfl⟩
  refine ⟨sound.forth p List.mem_cons_self q stacked.1 stacked.2, ?_⟩
  obtain ⟨x, underway, _, way⟩ := sound.back q stacked.1
  rcases List.mem_cons.mp underway with rfl | lower
  · exact way
  · exact way.trans (sound.forth x underway p here (sound.index_lt_of_path lower).le)

variable (followed : ∀ q ∈ next p, q ∈ s.indices)
  (bounded : ∀ q ∈ above ++ [p], ∀ u ∈ next q, u ∉ below)

include followed bounded

/-- What comes after what stands on the stack down to the formula is there too, or in a group. -/
theorem step_above {u : Position} (listed : q ∈ above ++ [p]) (step : u ∈ next q) :
    u ∈ above ++ [p] ∨ u ∈ s.groups.flatten := by
  have known : u ∈ s.indices := by
    rcases List.mem_append.mp listed with high | own
    · have later := (sound.index_split split).1 q high
      have stacked : q ∈ s.stack := split ▸ List.mem_append_left _ high
      refine sound.closed q ((sound.left q).mpr ⟨sound.met_of_stack stacked, fun underway => ?_⟩)
        u step
      rcases List.mem_cons.mp underway with rfl | lower
      · exact lt_irrefl _ later
      · exact lt_asymm later (sound.index_lt_of_path lower)
    · rw [List.mem_singleton.mp own] at step
      exact followed u step
  rcases (sound.met u).mp known with stacked | grouped
  · rw [split, List.append_cons] at stacked
    exact .inl ((List.mem_append.mp stacked).resolve_right (bounded q listed u step))
  · exact .inr grouped

/-- What stands on the stack down to the formula is a group. -/
theorem group_of_root :
    Mutual next ((above ++ [p]).mergeSort fun a b => (compare a b).isLE) where
  ascending := by
    refine ascending_mergeSort ?_
    have once := sound.nodup_stack
    rw [split, List.append_cons] at once
    exact (List.nodup_append.mp once).1
  whole := by
    have reached : ∀ q, Reaches next p q → q ∈ above ++ [p] ∨ q ∈ s.groups.flatten := by
      intro q way
      induction way with
      | refl => exact .inl (List.mem_append_right _ (List.mem_singleton.mpr rfl))
      | tail _ step ih =>
        rcases ih with high | grouped
        · exact sound.step_above split followed bounded high step
        · exact .inr (sound.settled _ grouped _ step)
    refine ⟨p, List.mem_mergeSort.mpr (by simp), fun q => ?_⟩
    rw [List.mem_mergeSort]
    refine ⟨sound.mutual_of_above split, fun ⟨forth, back⟩ => (reached q forth).resolve_right ?_⟩
    exact fun grouped => sound.apart p (sound.inside p List.mem_cons_self)
      (sound.settled_of_reaches grouped back)

/-- The latest visit ends, and its formula gets back to none below it: its group is taken from the
stack. -/
theorem leave_root (root : s.low p = s.index p) :
    Sound next ground path ⟨w.seen, p :: w.left⟩ (s.leave p) := by
  have once := sound.nodup_stack
  rw [split, List.append_cons] at once
  obtain ⟨aboveOnce, belowOnce, apart⟩ := List.nodup_append.mp once
  have fresh : p ∉ above := fun high =>
    lt_irrefl _ ((sound.index_split split).1 p high)
  have stacked : ∀ q, q ∈ s.stack ↔ q ∈ above ++ [p] ∨ q ∈ below := fun q => by
    rw [split, List.append_cons, List.mem_append]
  have grouped : ∀ q, q ∈ (s.groups ++ [(above ++ [p]).mergeSort fun a b =>
      (compare a b).isLE]).flatten ↔ q ∈ s.groups.flatten ∨ q ∈ above ++ [p] := fun q => by
    rw [List.flatten_append, List.flatten_singleton, List.mem_append, List.mem_mergeSort]
  have descending := sound.descending
  rw [split, List.append_cons] at descending
  rw [Search.leave_of_root root split fresh]
  exact
    { seen := sound.seen
      listed := sound.listed
      numbered := sound.numbered
      onStack := fun q => by
        rw [Search.mem_foldl_erase, sound.onStack, stacked]
        exact ⟨fun both => both.1.resolve_left both.2, fun low =>
          ⟨.inr low, fun high => apart q high q low rfl⟩⟩
      descending := (List.pairwise_append.mp descending).2.1
      met := fun q => by
        rw [grouped, sound.met, stacked, or_comm (a := q ∈ above ++ [p]), or_assoc,
          or_comm (a := q ∈ s.groups.flatten)]
      apart := fun q low grouped' => by
        rcases (grouped q).mp grouped' with old | high
        · exact sound.apart q ((stacked q).mpr (.inr low)) old
        · exact apart q high q low rfl
      inside := fun q underway => sound.below_of_path split underway
      nested := (List.pairwise_cons.mp sound.nested).2
      forth := fun x underway y low => sound.forth x (List.mem_cons_of_mem p underway) y
        ((stacked y).mpr (.inr low))
      back := fun y low => by
        obtain ⟨x, underway, earlier, way⟩ := sound.back y ((stacked y).mpr (.inr low))
        rcases List.mem_cons.mp underway with rfl | underway
        · exact absurd earlier (Nat.not_le.mpr ((sound.index_split split).2 y low))
        · exact ⟨x, underway, earlier, way⟩
      left := fun q => sound.left_leave
      leftOnce := sound.nodup_leave
      closed := sound.closed_leave followed
      settled := fun q listed u step => (grouped u).mpr <| by
        rcases (grouped q).mp listed with old | high
        · exact .inl (sound.settled q old u step)
        · exact (sound.step_above split followed bounded high step).symm
      groups := fun group listed => by
        rcases List.mem_append.mp listed with old | new
        · exact sound.groups group old
        · rw [List.mem_singleton.mp new]
          exact sound.group_of_root split followed bounded
      ordered := by
        refine List.pairwise_append.mpr ⟨sound.ordered.imp fun before => before.cons p,
          List.pairwise_singleton _ _, fun group old new listed => ?_⟩
        rw [List.mem_singleton.mp listed]
        exact ⟨p, List.mem_mergeSort.mpr (by simp), [], w.left, rfl, fun q member =>
          sound.left_of_group (List.mem_flatten.mpr ⟨group, old, member⟩)⟩ }

end Root

end Sound

end Schedule

end Spreadsheet
