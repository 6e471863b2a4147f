import Spreadsheet.Proofs.Recalculation.Cycles

/-!
# Components

Formulas that need each other, directly or through others, form a component. The cycles among a
list of formulas are its components of more than one formula and those of a formula that needs
itself. Each of them is listed once, so that no formula is on two cycles.
-/
namespace Spreadsheet

namespace Schedule

variable {edges : PositionMap PositionSet} {vertices group : List Position}
  {next : Position → List Position} {p q : Position}

/-- A group of formulas is a component of a list: in ascending order, all formulas of the list that
need one of them and that it needs, in any number of steps. -/
structure Component (edges : PositionMap PositionSet) (vertices group : List Position) : Prop where
  ascending : group.Pairwise fun a b => compare a b = .lt
  whole : ∃ p ∈ vertices, ∀ q, q ∈ group ↔
    Relation.ReflTransGen (Needed edges vertices) p q ∧
      Relation.ReflTransGen (Needed edges vertices) q p

/-- A component has more than one formula, or a formula that needs itself. -/
def Cyclic (edges : PositionMap PositionSet) (group : List Position) : Prop :=
  1 < group.length ∨ ∃ p ∈ group, p ∈ Needs.readers edges p

/-! ### Components -/

/-- The formulas of a component belong to the list. -/
theorem Component.inside (component : Component edges vertices group) (member : q ∈ group) :
    q ∈ vertices := by
  obtain ⟨p, known, whole⟩ := component.whole
  rcases Relation.ReflTransGen.cases_tail ((whole q).mp member).1 with same | ⟨u, _, need⟩
  · rw [same]
    exact known
  · exact need.2

/-- The formulas of a component are those that need any one of them and that it needs. -/
theorem Component.mem_iff (component : Component edges vertices group) (member : p ∈ group) :
    q ∈ group ↔ Relation.ReflTransGen (Needed edges vertices) p q ∧
      Relation.ReflTransGen (Needed edges vertices) q p := by
  obtain ⟨first, _, whole⟩ := component.whole
  obtain ⟨down, up⟩ := (whole p).mp member
  rw [whole q]
  constructor
  · rintro ⟨forth, back⟩
    exact ⟨up.trans forth, back.trans down⟩
  · rintro ⟨forth, back⟩
    exact ⟨down.trans forth, back.trans up⟩

/-- A component lists each of its formulas once. -/
theorem Component.nodup (component : Component edges vertices group) : group.Nodup :=
  component.ascending.imp fun {a b} ahead same => by
    subst same
    simp at ahead

/-- Components with a formula in common are the same. -/
theorem Component.eq_of_mem {other : List Position} (component : Component edges vertices group)
    (another : Component edges vertices other) (member : p ∈ group) (alsoMember : p ∈ other) :
    group = other := by
  have same : ∀ q, q ∈ group ↔ q ∈ other := fun q => by
    rw [component.mem_iff member, another.mem_iff alsoMember]
  refine List.Perm.eq_of_pairwise (fun a b _ _ ahead behind => ?_) component.ascending
    another.ascending ((List.perm_ext_iff_of_nodup component.nodup another.nodup).mpr same)
  exact absurd behind (Std.OrientedCmp.not_lt_of_lt ahead)

/-- The formulas of a component need themselves, directly or through others, if there are several
or one that needs itself. -/
theorem Component.cyclic_iff (component : Component edges vertices group) (member : p ∈ group) :
    Cyclic edges group ↔ Relation.TransGen (Needed edges vertices) p p := by
  constructor
  · rintro (several | ⟨q, listed, own⟩)
    · obtain ⟨q, listed, different⟩ : ∃ q ∈ group, q ≠ p := by
        by_contra none
        push Not at none
        have alone := List.subperm_of_subset component.nodup fun q listed =>
          List.mem_singleton.mpr (none q listed)
        exact absurd alone.length_le (Nat.not_le.mpr several)
      obtain ⟨forth, back⟩ := (component.mem_iff member).mp listed
      rcases Relation.reflTransGen_iff_eq_or_transGen.mp forth with same | path
      · exact absurd same different
      · exact path.trans_left back
    · obtain ⟨forth, back⟩ := (component.mem_iff member).mp listed
      exact Relation.TransGen.trans_left
        (Relation.TransGen.tail' forth ⟨own, component.inside listed⟩) back
  · intro around
    obtain ⟨q, need, back⟩ := Relation.TransGen.head'_iff.mp around
    by_cases same : q = p
    · subst same
      exact .inr ⟨q, member, need.1⟩
    · have listed : q ∈ group := (component.mem_iff member).mpr ⟨.single need, back⟩
      left
      by_contra few
      have length : group.length = 1 := by
        have some := List.length_pos_of_mem member
        omega
      obtain ⟨only, rfl⟩ := List.length_eq_one_iff.mp length
      rw [List.mem_singleton.mp listed, List.mem_singleton.mp member] at same
      exact same rfl

/-! ### Components of fewer formulas -/

/-- Formulas that need each other do so by way of formulas that need themselves. -/
theorem mutual_iff_of_cyclic {others : List Position} (fewer : ∀ p ∈ others, p ∈ vertices)
    (cyclic : ∀ p ∈ vertices, Relation.TransGen (Needed edges vertices) p p → p ∈ others) :
    (Relation.ReflTransGen (Needed edges others) p q ∧
        Relation.ReflTransGen (Needed edges others) q p) ↔
      Relation.ReflTransGen (Needed edges vertices) p q ∧
        Relation.ReflTransGen (Needed edges vertices) q p := by
  have wider : ∀ a b, Needed edges others a b → Needed edges vertices a b := fun a b need =>
    ⟨need.1, fewer b need.2⟩
  constructor
  · rintro ⟨forth, back⟩
    exact ⟨Relation.ReflTransGen.mono wider _ _ forth, Relation.ReflTransGen.mono wider _ _ back⟩
  · rintro ⟨forth, back⟩
    rcases Relation.reflTransGen_iff_eq_or_transGen.mp forth with rfl | path
    · exact ⟨.refl, .refl⟩
    · rcases Relation.reflTransGen_iff_eq_or_transGen.mp back with rfl | way
      · exact ⟨.refl, .refl⟩
      · exact ⟨(transGen_needed_of_cyclic cyclic path back).to_reflTransGen,
          (transGen_needed_of_cyclic cyclic way forth).to_reflTransGen⟩

/-- The cyclic components of a list are those of any part of it that holds every formula that needs
itself. -/
theorem cyclicComponent_iff {others : List Position} (fewer : ∀ p ∈ others, p ∈ vertices)
    (cyclic : ∀ p ∈ vertices, Relation.TransGen (Needed edges vertices) p p → p ∈ others) :
    Component edges others group ∧ Cyclic edges group ↔
      Component edges vertices group ∧ Cyclic edges group := by
  refine and_congr_left fun circular => ?_
  constructor
  · rintro ⟨ascending, p, known, whole⟩
    exact ⟨ascending, p, fewer p known, fun q => (whole q).trans (mutual_iff_of_cyclic fewer cyclic)⟩
  · intro component
    obtain ⟨p, known, whole⟩ := component.whole
    have around := (component.cyclic_iff ((whole p).mpr ⟨.refl, .refl⟩)).mp circular
    exact ⟨component.ascending, p, cyclic p known around, fun q =>
      (whole q).trans (mutual_iff_of_cyclic fewer cyclic).symm⟩

end Schedule

end Spreadsheet
