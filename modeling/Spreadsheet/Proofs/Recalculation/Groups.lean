import Spreadsheet.Proofs.Recalculation.Components
import Spreadsheet.Proofs.Recalculation.Visits

/-!
# Groups

The groups that a search finds among formulas are their components, each once. Which formulas need
each other can also be told by following needs from every formula anew. The cycles that the search
finds are the groups told in that way, in the order in which a plain search in depth leaves the last
formula of each.
-/
namespace Spreadsheet

namespace Schedule

variable {edges : PositionMap PositionSet} {vertices group : List Position} {p q : Position}

/-! ### The groups found by a search -/

/-- The plain search in depth through a list of formulas. -/
def walkThrough (edges : PositionMap PositionSet) (vertices : List Position) : Walk :=
  vertices.foldl (Walk.visit (readersWithin edges (.ofList vertices compare))
    (Std.ExtTreeSet.ofList vertices compare).size) ⟨∅, []⟩

/-- The search for groups ends soundly, beside the plain search, when it has met all formulas. -/
theorem exists_sound (edges : PositionMap PositionSet) (vertices : List Position) :
    ∃ s, groupsAmong edges vertices = s.groups ∧ (∀ p ∈ vertices, p ∈ s.indices) ∧
      Sound (readersWithin edges (.ofList vertices compare))
        (Std.ExtTreeSet.ofList vertices compare).toList [] (walkThrough edges vertices) s := by
  have members : ∀ p, p ∈ (Std.ExtTreeSet.ofList vertices compare).toList ↔ p ∈ vertices :=
    fun p => by rw [Std.ExtTreeSet.mem_toList, PositionSet.mem_ofList]
  have few : (unseen (Std.ExtTreeSet.ofList vertices compare).toList ∅).length ≤
      (Std.ExtTreeSet.ofList vertices compare).size := by
    have fewer := List.length_filter_le (fun q => !(∅ : PositionSet).contains q)
      (Std.ExtTreeSet.ofList vertices compare).toList
    rwa [Std.ExtTreeSet.length_toList] at fewer
  obtain ⟨sound, met, _⟩ := sound_visitAll (PositionSet.nodup_toList _)
    (fun p q listed => (members q).mpr ((mem_readersWithin_iff edges vertices).mp listed).2)
    vertices (fun p known => (members p).mpr known) Sound.start few
  exact ⟨_, rfl, met, sound⟩

/-- A search through a list of formulas puts exactly those into groups. -/
theorem mem_flatten_groupsAmong_iff : p ∈ (groupsAmong edges vertices).flatten ↔ p ∈ vertices := by
  obtain ⟨s, groups, met, sound⟩ := exists_sound edges vertices
  rw [groups]
  constructor
  · intro grouped
    have known := sound.listed p ((sound.met p).mpr (.inr grouped))
    rwa [Std.ExtTreeSet.mem_toList, PositionSet.mem_ofList] at known
  · intro known
    rcases (sound.met p).mp (met p known) with stacked | grouped
    · -- With no visit open, nothing on the stack could get back to one.
      obtain ⟨_, none, _⟩ := sound.back p stacked
      contradiction
    · exact grouped

/-- The groups found are components. -/
theorem component_of_mem_groupsAmong (found : group ∈ groupsAmong edges vertices) :
    Component edges vertices group := by
  obtain ⟨s, groups, _, sound⟩ := exists_sound edges vertices
  obtain ⟨ascending, p, member, whole⟩ := sound.groups group (groups ▸ found)
  unfold Reaches at whole
  rw [steps_readersWithin] at whole
  exact ⟨ascending, p, mem_flatten_groupsAmong_iff.mp (List.mem_flatten.mpr ⟨group, found, member⟩),
    whole⟩

/-- The groups found among formulas are their components. -/
theorem mem_groupsAmong_iff : group ∈ groupsAmong edges vertices ↔ Component edges vertices group := by
  refine ⟨component_of_mem_groupsAmong, fun component => ?_⟩
  obtain ⟨p, known, whole⟩ := component.whole
  obtain ⟨other, found, member⟩ := List.mem_flatten.mp (mem_flatten_groupsAmong_iff.mpr known)
  rw [component.eq_of_mem (component_of_mem_groupsAmong found) ((whole p).mpr ⟨.refl, .refl⟩) member]
  exact found

/-- The plain search leaves each formula of the list, once. -/
theorem left_walkThrough (edges : PositionMap PositionSet) (vertices : List Position) :
    (walkThrough edges vertices).left.Nodup ∧
      ∀ p, p ∈ (walkThrough edges vertices).left ↔ p ∈ vertices := by
  obtain ⟨s, _, met, sound⟩ := exists_sound edges vertices
  refine ⟨sound.leftOnce, fun p => ⟨fun left => ?_, fun known => ?_⟩⟩
  · have known := sound.listed p ((sound.left p).mp left).1
    rwa [Std.ExtTreeSet.mem_toList, PositionSet.mem_ofList] at known
  · exact (sound.left p).mpr ⟨met p known, List.not_mem_nil⟩

/-- The groups found come in the order in which the plain search leaves the last formula of each. -/
theorem ordered_groupsAmong (edges : PositionMap PositionSet) (vertices : List Position) :
    (groupsAmong edges vertices).Pairwise (LeftBefore (walkThrough edges vertices).left) := by
  obtain ⟨s, groups, _, sound⟩ := exists_sound edges vertices
  exact groups ▸ sound.ordered

/-! ### The order of groups -/

section Order

variable {left first second : List Position}

/-- What has been left earlier stands later in the list of what has been left. -/
theorem leftBefore_iff (once : left.Nodup) (all : ∀ q ∈ first ++ second, q ∈ left) :
    LeftBefore left first second ↔
      ∃ p ∈ second, ∀ q ∈ first, left.idxOf p < left.idxOf q := by
  constructor
  · rintro ⟨p, listed, later, earlier, rfl, before⟩
    refine ⟨p, listed, fun q member => ?_⟩
    obtain ⟨_, low, apart⟩ := List.nodup_append.mp once
    have old := before q member
    have fresh : ∀ u ∈ p :: earlier, u ∉ later := fun u low high => apart u high u low rfl
    have other : p ≠ q := fun same => (List.nodup_cons.mp low).1 (same ▸ old)
    rw [List.idxOf_append_of_notMem (fresh p List.mem_cons_self),
      List.idxOf_append_of_notMem (fresh q (List.mem_cons_of_mem p old)), List.idxOf_cons_self,
      List.idxOf_cons_ne _ other]
    omega
  · rintro ⟨p, listed, before⟩
    obtain ⟨later, earlier, split⟩ := List.append_of_mem (all p (List.mem_append_right _ listed))
    refine ⟨p, listed, later, earlier, split, fun q member => ?_⟩
    have less := before q member
    have held := all q (List.mem_append_left _ member)
    rw [split] at held less once
    have fresh : p ∉ later := fun high =>
      (List.nodup_append.mp once).2.2 p high p List.mem_cons_self rfl
    rw [List.idxOf_append_of_notMem fresh, List.idxOf_cons_self, Nat.add_zero] at less
    rcases List.mem_append.mp held with high | low
    · rw [List.idxOf_append_of_mem high] at less
      exact absurd less (lt_asymm (List.idxOf_lt_length_of_mem high))
    · rcases List.mem_cons.mp low with rfl | low
      · rw [List.idxOf_append_of_notMem fresh, List.idxOf_cons_self, Nat.add_zero] at less
        exact absurd less (lt_irrefl _)
      · exact low

/-- Of a group, the formula that stands first in a list stands before all others. -/
theorem idxOf_le_of_find? {group : List Position} (found : left.find? group.contains = some p)
    (member : q ∈ group) : left.idxOf p ≤ left.idxOf q := by
  obtain ⟨inside, before, after, rfl, others⟩ := List.find?_eq_some_iff_append.mp found
  have beyond : ∀ u ∈ group, u ∉ before := fun u listed early => by
    have outside := others u early
    rw [List.contains_iff_mem.mpr listed] at outside
    contradiction
  rw [List.idxOf_append_of_notMem (beyond p (List.contains_iff_mem.mp inside)),
    List.idxOf_append_of_notMem (beyond q member), List.idxOf_cons_self]
  omega

/-- Of two groups not each can be left before the other. -/
theorem LeftBefore.asymm (once : left.Nodup) (all : ∀ q ∈ first ++ second, q ∈ left)
    (before : LeftBefore left first second) : ¬ LeftBefore left second first := by
  intro after
  have turned : ∀ q ∈ second ++ first, q ∈ left := fun q listed =>
    all q (List.mem_append.mpr (List.mem_append.mp listed).symm)
  obtain ⟨p, inSecond, earlier⟩ := (leftBefore_iff once all).mp before
  obtain ⟨q, inFirst, later⟩ := (leftBefore_iff once turned).mp after
  exact lt_asymm (earlier q inFirst) (later p inSecond)

end Order

/-- Of two components not each can be left before the other by the plain search. -/
theorem Component.leftBefore_asymm {other : List Position} (component : Component edges vertices group)
    (another : Component edges vertices other)
    (before : LeftBefore (walkThrough edges vertices).left group other) :
    ¬ LeftBefore (walkThrough edges vertices).left other group := by
  obtain ⟨once, all⟩ := left_walkThrough edges vertices
  refine before.asymm once fun q listed => (all q).mpr ?_
  rcases List.mem_append.mp listed with first | second
  · exact component.inside first
  · exact another.inside second

/-- No formula is in two groups, and none is listed twice in one. -/
theorem nodup_flatten_groupsAmong (edges : PositionMap PositionSet) (vertices : List Position) :
    (groupsAmong edges vertices).flatten.Nodup := by
  refine List.nodup_flatten.mpr
    ⟨fun group found => (component_of_mem_groupsAmong found).nodup, ?_⟩
  refine (ordered_groupsAmong edges vertices).imp_of_mem fun {first second} found alsoFound before =>
    fun p member alsoMember => ?_
  have component := component_of_mem_groupsAmong found
  obtain rfl := component.eq_of_mem (component_of_mem_groupsAmong alsoFound) member alsoMember
  exact component.leftBefore_asymm component before before

/-! ### The cycles found by a search -/

/-- A group is tested for a cycle by its length and by its first formula. -/
theorem cyclic_iff_of_component (component : Component edges vertices group) :
    (decide (1 < group.length) || group.head?.any fun p => (Needs.readers edges p).contains p) =
      true ↔ Cyclic edges group := by
  obtain ⟨p, _, whole⟩ := component.whole
  have member : p ∈ group := (whole p).mpr ⟨.refl, .refl⟩
  rw [Bool.or_eq_true, decide_eq_true_eq, Cyclic]
  cases group with
  | nil => contradiction
  | cons first rest =>
    cases rest with
    | nil => simp
    | cons second rest => simp

/-- The cycles among a list of formulas are its cyclic components. -/
theorem mem_cyclesAmong_iff :
    group ∈ cyclesAmong edges vertices ↔
      Component edges vertices group ∧ Cyclic edges group := by
  rw [cyclesAmong, List.mem_filter, mem_groupsAmong_iff]
  exact and_congr_right cyclic_iff_of_component

/-- No formula is on two cycles, and none is listed twice on one. -/
theorem nodup_flatten_cyclesAmong (edges : PositionMap PositionSet) (vertices : List Position) :
    (cyclesAmong edges vertices).flatten.Nodup :=
  (nodup_flatten_groupsAmong edges vertices).sublist List.filter_sublist.flatten

/-- The cycles among a list hold exactly the formulas of the list that need themselves, directly or
through others of the list. -/
theorem mem_flatten_cyclesAmong_iff (edges : PositionMap PositionSet) (vertices : List Position) :
    q ∈ (cyclesAmong edges vertices).flatten ↔
      q ∈ vertices ∧ Relation.TransGen (Needed edges vertices) q q := by
  constructor
  · intro listed
    obtain ⟨group, found, member⟩ := List.mem_flatten.mp listed
    obtain ⟨component, cyclic⟩ := mem_cyclesAmong_iff.mp found
    exact ⟨component.inside member, (component.cyclic_iff member).mp cyclic⟩
  · rintro ⟨known, around⟩
    obtain ⟨group, found, member⟩ := List.mem_flatten.mp (mem_flatten_groupsAmong_iff.mpr known)
    have component := component_of_mem_groupsAmong found
    exact List.mem_flatten.mpr ⟨group,
      mem_cyclesAmong_iff.mpr ⟨component, (component.cyclic_iff member).mpr around⟩, member⟩

/-! ### Groups told without a search for them -/

/-- For each formula of a set all that need it, directly or through others of the set. -/
def needing (edges : PositionMap PositionSet) (members : PositionSet) : PositionMap PositionSet :=
  .ofList (members.toList.map fun p =>
    (p, reach (readersWithin edges members) (members.size + 1)
      (.ofList (readersWithin edges members p) compare) (readersWithin edges members p))) compare

/-- The second formula needs the first, by a map of all that need each. -/
def isNeeded (needing : PositionMap PositionSet) (p q : Position) : Bool :=
  ((needing[p]?).getD ∅).contains q

/-- The formulas of a set that need a formula and that it needs. -/
def groupOf (needing : PositionMap PositionSet) (members : PositionSet) (p : Position) :
    List Position :=
  members.toList.filter fun q => isNeeded needing p q && isNeeded needing q p

/-- The largest groups of a list of formulas in which each needs each other, and formulas that need
themselves, in the order in which a search in depth leaves the last formula of each. -/
def mutualGroups (edges : PositionMap PositionSet) (vertices : List Position) :
    List (List Position) :=
  let members : PositionSet := .ofList vertices compare
  let needing := needing edges members
  let left := (walkThrough edges vertices).left
  let groups := left.filterMap fun p =>
    let group := groupOf needing members p
    -- Of a group, the formula that the search left last stands for it.
    if isNeeded needing p p && (left.find? group.contains == some p) then some group else none
  groups.reverse

/-- What is found to need a formula of a list needs it, directly or through others. -/
theorem isNeeded_iff (edges : PositionMap PositionSet) (vertices : List Position) :
    isNeeded (needing edges (.ofList vertices compare)) p q = true ↔
      p ∈ vertices ∧ Relation.TransGen (Needed edges vertices) p q := by
  have once : ∀ p, (readersWithin edges (.ofList vertices compare) p).Nodup := fun p =>
    (nodup_readers edges p).filter _
  have members : ∀ p, p ∈ (Std.ExtTreeSet.ofList vertices compare).toList ↔ p ∈ vertices :=
    fun p => by rw [Std.ExtTreeSet.mem_toList, PositionSet.mem_ofList]
  have inside : ∀ p, ∀ q ∈ readersWithin edges (.ofList vertices compare) p,
      q ∈ (Std.ExtTreeSet.ofList vertices compare).toList := fun p q listed =>
    (members q).mpr ((mem_readersWithin_iff edges vertices).mp listed).2
  have distinct : (Std.ExtTreeSet.ofList vertices compare).toList.Nodup :=
    PositionSet.nodup_toList _
  rw [isNeeded, needing, getElem?_ofList_map _ distinct, Std.ExtTreeSet.contains_iff_mem]
  by_cases known : p ∈ vertices
  · have enough : (readersWithin edges (.ofList vertices compare) p).length +
        (unseen (Std.ExtTreeSet.ofList vertices compare).toList
          (.ofList (readersWithin edges (.ofList vertices compare) p) compare)).length ≤
            (Std.ExtTreeSet.ofList vertices compare).size + 1 := by
      have fewer := length_unseen_insertMany ∅ distinct (once p) (inside p) (by simp)
      have whole := List.length_filter_le (fun q => !(∅ : PositionSet).contains q)
        (Std.ExtTreeSet.ofList vertices compare).toList
      have same : (∅ : PositionSet).insertMany (readersWithin edges (.ofList vertices compare) p) =
          .ofList (readersWithin edges (.ofList vertices compare) p) compare :=
        PositionSet.ext fun q => by
          rw [PositionSet.mem_insertMany, PositionSet.mem_ofList]
          simp
      rw [same] at fewer
      rw [Std.ExtTreeSet.length_toList] at whole
      unfold unseen at fewer ⊢
      omega
    rw [if_pos ((members p).mpr known), Option.getD_some, mem_reach_iff distinct once inside enough,
      Relation.TransGen.head'_iff]
    have steps : Steps (readersWithin edges (.ofList vertices compare)) = Needed edges vertices :=
      funext fun a => funext fun b => propext (mem_readersWithin_iff edges vertices)
    simp only [known, true_and, mem_readersWithin_iff, steps]
  · rw [if_neg fun listed => known ((members p).mp listed)]
    simp [known]

/-- The group of a formula holds those that need it and that it needs. -/
theorem mem_groupOf_iff (edges : PositionMap PositionSet) (vertices : List Position) :
    q ∈ groupOf (needing edges (.ofList vertices compare)) (.ofList vertices compare) p ↔
      (p ∈ vertices ∧ Relation.TransGen (Needed edges vertices) p q) ∧
        q ∈ vertices ∧ Relation.TransGen (Needed edges vertices) q p := by
  rw [groupOf, List.mem_filter, Std.ExtTreeSet.mem_toList, PositionSet.mem_ofList,
    Bool.and_eq_true, isNeeded_iff, isNeeded_iff]
  constructor
  · exact fun both => both.2
  · exact fun both => ⟨both.2.1, both⟩

/-- The group of a formula that needs itself is a component. -/
theorem component_groupOf (around : Relation.TransGen (Needed edges vertices) p p)
    (known : p ∈ vertices) :
    Component edges vertices
      (groupOf (needing edges (.ofList vertices compare)) (.ofList vertices compare) p) where
  ascending := Std.ExtTreeSet.ordered_toList.filter _
  whole := by
    refine ⟨p, known, fun q => ?_⟩
    rw [mem_groupOf_iff]
    constructor
    · rintro ⟨⟨_, forth⟩, _, back⟩
      exact ⟨forth.to_reflTransGen, back.to_reflTransGen⟩
    · rintro ⟨forth, back⟩
      have path := around.trans_left forth
      obtain ⟨_, _, last⟩ := Relation.TransGen.tail'_iff.mp path
      exact ⟨⟨known, path⟩, last.2, Relation.TransGen.trans_right back around⟩

/-- A group is told if a formula left by the search that needs itself stands for it. -/
theorem mem_mutualGroups :
    group ∈ mutualGroups edges vertices ↔
      ∃ p ∈ (walkThrough edges vertices).left,
        isNeeded (needing edges (.ofList vertices compare)) p p = true ∧
          (walkThrough edges vertices).left.find? (groupOf
            (needing edges (.ofList vertices compare)) (.ofList vertices compare) p).contains =
              some p ∧
            groupOf (needing edges (.ofList vertices compare)) (.ofList vertices compare) p =
              group := by
  simp only [mutualGroups, List.mem_reverse, List.mem_filterMap]
  refine exists_congr fun p => and_congr_right fun _ => ?_
  split
  · rename_i chosen
    rw [Bool.and_eq_true, beq_iff_eq] at chosen
    simp only [Option.some.injEq, chosen.1, chosen.2, true_and]
  · rename_i rejected
    rw [Bool.and_eq_true, beq_iff_eq] at rejected
    simp only [reduceCtorEq, false_iff]
    rintro ⟨own, first, _⟩
    exact rejected ⟨own, first⟩

/-- The groups told without a search for them are the cyclic components. -/
theorem mem_mutualGroups_iff :
    group ∈ mutualGroups edges vertices ↔
      Component edges vertices group ∧ Cyclic edges group := by
  constructor
  · intro listed
    obtain ⟨p, _, own, _, rfl⟩ := mem_mutualGroups.mp listed
    obtain ⟨known, around⟩ := (isNeeded_iff edges vertices).mp own
    have component := component_groupOf around known
    refine ⟨component, (component.cyclic_iff ?_).mpr around⟩
    exact (mem_groupOf_iff edges vertices).mpr ⟨⟨known, around⟩, known, around⟩
  · rintro ⟨component, cyclic⟩
    obtain ⟨p, known, whole⟩ := component.whole
    have member : p ∈ group := (whole p).mpr ⟨.refl, .refl⟩
    -- The formula of the group that the search left last stands for it.
    obtain ⟨u, found⟩ := Option.isSome_iff_exists.mp (List.find?_isSome.mpr
      ⟨p, ((left_walkThrough edges vertices).2 p).mpr known, List.contains_iff_mem.mpr member⟩)
    have alsoMember : u ∈ group := List.contains_iff_mem.mp (List.find?_some found)
    have around := (component.cyclic_iff alsoMember).mp cyclic
    have alsoKnown := component.inside alsoMember
    have same := component.eq_of_mem (component_groupOf around alsoKnown) alsoMember
      ((mem_groupOf_iff edges vertices).mpr ⟨⟨alsoKnown, around⟩, alsoKnown, around⟩)
    refine mem_mutualGroups.mpr ⟨u, List.mem_of_find?_eq_some found,
      (isNeeded_iff edges vertices).mpr ⟨alsoKnown, around⟩, ?_, same.symm⟩
    rw [← same]
    exact found

/-- The groups told without a search for them come in the order in which the search leaves the last
formula of each. -/
theorem ordered_mutualGroups (edges : PositionMap PositionSet) (vertices : List Position) :
    (mutualGroups edges vertices).Pairwise (LeftBefore (walkThrough edges vertices).left) := by
  obtain ⟨once, all⟩ := left_walkThrough edges vertices
  have later : (walkThrough edges vertices).left.Pairwise fun p q =>
      (walkThrough edges vertices).left.idxOf p < (walkThrough edges vertices).left.idxOf q :=
    List.pairwise_iff_getElem.mpr fun i j first second less => by
      rwa [once.idxOf_getElem, once.idxOf_getElem]
  unfold mutualGroups
  dsimp only
  rw [List.pairwise_reverse, List.pairwise_filterMap]
  refine later.imp fun {p q} less => ?_
  intro second chosen first alsoChosen
  split at chosen
  · rename_i own
    split at alsoChosen
    · rename_i alsoOwn
      rw [Bool.and_eq_true, beq_iff_eq] at own alsoOwn
      obtain ⟨known, around⟩ := (isNeeded_iff edges vertices).mp own.1
      obtain ⟨alsoKnown, alsoAround⟩ := (isNeeded_iff edges vertices).mp alsoOwn.1
      obtain rfl := Option.some.inj chosen
      obtain rfl := Option.some.inj alsoChosen
      refine (leftBefore_iff once fun u listed => (all u).mpr ?_).mpr
        ⟨p, (mem_groupOf_iff edges vertices).mpr ⟨⟨known, around⟩, known, around⟩,
          fun u member => ?_⟩
      · rcases List.mem_append.mp listed with one | other
        · exact (component_groupOf alsoAround alsoKnown).inside one
        · exact (component_groupOf around known).inside other
      · exact less.trans_le (idxOf_le_of_find? alsoOwn.2 member)
    · contradiction
  · contradiction

/-- Components that come in the order in which they are left are listed once. -/
theorem nodup_of_leftBefore {groups : List (List Position)}
    (components : ∀ group ∈ groups, Component edges vertices group)
    (ordered : groups.Pairwise (LeftBefore (walkThrough edges vertices).left)) : groups.Nodup :=
  ordered.imp_of_mem fun {first second} listed _ before same => by
    subst same
    exact (components first listed).leftBefore_asymm (components first listed) before before

/-- The cycles that the search finds are the groups told without it, in the same order. -/
theorem cyclesAmong_eq_mutualGroups (edges : PositionMap PositionSet) (vertices : List Position) :
    cyclesAmong edges vertices = mutualGroups edges vertices := by
  have ordered : (cyclesAmong edges vertices).Pairwise
      (LeftBefore (walkThrough edges vertices).left) := (ordered_groupsAmong edges vertices).filter _
  have alsoOrdered := ordered_mutualGroups edges vertices
  have components : ∀ group ∈ cyclesAmong edges vertices, Component edges vertices group :=
    fun group found => (mem_cyclesAmong_iff.mp found).1
  have alsoComponents : ∀ group ∈ mutualGroups edges vertices, Component edges vertices group :=
    fun group told => (mem_mutualGroups_iff.mp told).1
  refine List.Perm.eq_of_pairwise (fun first second found told before after => ?_) ordered alsoOrdered
    ((List.perm_ext_iff_of_nodup (nodup_of_leftBefore components ordered)
      (nodup_of_leftBefore alsoComponents alsoOrdered)).mpr fun group =>
        mem_cyclesAmong_iff.trans mem_mutualGroups_iff.symm)
  exact absurd after
    ((components first found).leftBefore_asymm (alsoComponents second told) before)

end Schedule

end Spreadsheet
