import Spreadsheet.Proofs.Recalculation.Groups
import Spreadsheet.Proofs.Recalculation.Orders
import Spreadsheet.Proofs.Recalculation.Spills

/-!
# What a schedule promises

A schedule orders each of its formulas once or puts it on a cycle. The formulas on cycles are those
that need themselves firmly, directly or through others; every other formula comes after all
formulas of the order that it needs firmly.
-/
namespace Spreadsheet

namespace Needs

variable {list : List Need} {u q : Position}

/-- Who reads a writer after a need has been added. -/
theorem mem_readers_connect (edges : PositionMap PositionSet) (writer reader : Position) :
    q ∈ readers (connect edges writer reader) u ↔
      q ∈ readers edges u ∨ writer = u ∧ reader = q := by
  unfold readers connect
  rw [Std.ExtTreeSet.mem_toList, Std.ExtTreeSet.mem_toList, Std.ExtTreeMap.getElem?_insert]
  by_cases here : writer = u
  · subst here
    rw [if_pos Std.ReflCmp.compare_self, Option.getD_some, PositionSet.mem_insert, or_comm,
      eq_comm (a := q)]
    simp
  · rw [if_neg fun same => here (Std.LawfulEqOrd.eq_of_compare same)]
    simp [here]

/-- Who reads a writer after several needs have been added. -/
theorem mem_readers_foldl_connect (list : List Need) (edges : PositionMap PositionSet) :
    q ∈ readers (list.foldl (fun edges n => connect edges n.writer n.reader) edges) u ↔
      q ∈ readers edges u ∨ ∃ n ∈ list, n.writer = u ∧ n.reader = q := by
  induction list generalizing edges with
  | nil => simp
  | cons n rest ih =>
    rw [List.foldl_cons, ih, mem_readers_connect, or_assoc]
    simp only [List.mem_cons, exists_eq_or_imp]

/-- The readers of a writer are those of the needs of a list. -/
theorem mem_readers_all : q ∈ readers (ofList list).all u ↔ ∃ n ∈ list, n.writer = u ∧ n.reader = q := by
  rw [ofList, mem_readers_foldl_connect]
  simp [readers]

/-- The firm readers of a writer are those of the firm needs of a list. -/
theorem mem_readers_firm :
    q ∈ readers (ofList list).firm u ↔
      ∃ n ∈ list, n.firm = true ∧ n.writer = u ∧ n.reader = q := by
  rw [ofList, mem_readers_foldl_connect]
  simp [readers, and_assoc]

/-- Who reads firmly reads. -/
theorem mem_readers_all_of_firm (firm : q ∈ readers (ofList list).firm u) :
    q ∈ readers (ofList list).all u := by
  obtain ⟨n, listed, _, need⟩ := mem_readers_firm.mp firm
  exact mem_readers_all.mpr ⟨n, listed, need⟩

end Needs

namespace Schedule

variable {edges : PositionMap PositionSet} {vertices done : List Position} {d : Dependencies}
  {spills : Spills} {priority : Position → Nat} {p q u : Position} {read : Zone}

/-! ### Firm needs -/

/-- A formula reads the cell of another one, and what stands there is the output of that one. -/
def ReadsFirmly (d : Dependencies) (spills : Spills) (writer reader : Position) : Prop :=
  ∃ read ∈ d.zonesOf reader, read.contains writer = true ∧
    (read.isSingle = true → (spills.owner? writer).getD writer = writer) ∧
    (read.isSingle = false → (outputZone spills writer).intersects read = true)

/-- The firm needs of a formula from one zone it reads. -/
theorem firm_mem_needsOf (spills : Spills) (vertices : List Position) (reader : Position)
    (read : Zone) :
    (∃ n ∈ needsOf spills (.ofList vertices compare)
        (vertices.map fun p => (p, outputZone spills p)) reader read,
        n.firm = true ∧ n.writer = u ∧ n.reader = q) ↔
      q = reader ∧ u ∈ vertices ∧ read.contains u = true ∧
        (read.isSingle = true → (spills.owner? u).getD u = u) ∧
        (read.isSingle = false → (outputZone spills u).intersects read = true) := by
  unfold needsOf
  by_cases alone : read.isSingle = true
  · simp only [alone, ↓reduceIte, Zone.contains_of_isSingle alone, Bool.true_eq_false, false_implies,
      and_true, true_implies]
    constructor
    · rintro ⟨n, listed, firm, rfl, rfl⟩
      split at listed
      · rename_i member
        obtain rfl := List.mem_singleton.mp listed
        have here : read.topLeft = (spills.owner? read.topLeft).getD read.topLeft :=
          beq_iff_eq.mp firm
        rw [Bool.and_eq_true, Std.ExtTreeSet.contains_iff_mem, PositionSet.mem_ofList] at member
        dsimp only
        rw [← here] at member ⊢
        exact ⟨rfl, member.1, rfl, here.symm⟩
      · contradiction
    · rintro ⟨rfl, member, rfl, here⟩
      refine ⟨⟨read.topLeft, q, true⟩, ?_, rfl, rfl, rfl⟩
      rw [here, if_pos]
      · simp
      · rw [Bool.and_eq_true, Std.ExtTreeSet.contains_iff_mem, PositionSet.mem_ofList]
        refine ⟨member, ?_⟩
        by_cases own : read.topLeft = q
        · simp [own]
        · simp [own]
  · simp only [alone, Bool.false_eq_true, ↓reduceIte, false_implies, true_and, true_implies]
    simp only [List.mem_filterMap, List.mem_map, Prod.exists, Prod.mk.injEq]
    constructor
    · rintro ⟨n, ⟨_, _, ⟨writer, member, rfl, rfl⟩, listed⟩, firm, rfl, rfl⟩
      split at listed
      · rename_i meets
        obtain rfl := Option.some.inj listed
        rw [Bool.and_eq_true] at meets
        exact ⟨rfl, member, firm, meets.1⟩
      · contradiction
    · rintro ⟨rfl, member, reads, meets⟩
      refine ⟨⟨u, q, true⟩, ⟨u, outputZone spills u, ⟨u, member, rfl, rfl⟩, ?_⟩, rfl, rfl, rfl⟩
      simp [reads, meets]

/-- Firm needs among formulas are firm readings. -/
theorem mem_readers_firm_needs (d : Dependencies) (spills : Spills) (vertices : List Position) :
    q ∈ Needs.readers (needs d spills vertices).firm u ↔
      u ∈ vertices ∧ q ∈ vertices ∧ ReadsFirmly d spills u q := by
  unfold needs
  dsimp only
  rw [Needs.mem_readers_firm]
  simp only [List.mem_flatMap]
  constructor
  · rintro ⟨n, ⟨reader, member, read, reads, listed⟩, need⟩
    obtain ⟨rfl, writer, around, conditions⟩ :=
      (firm_mem_needsOf spills vertices reader read).mp ⟨n, listed, need⟩
    exact ⟨writer, member, read, reads, around, conditions⟩
  · rintro ⟨writer, member, read, reads, around, conditions⟩
    obtain ⟨n, listed, need⟩ := (firm_mem_needsOf spills vertices q read).mpr
      ⟨rfl, writer, around, conditions⟩
    exact ⟨n, ⟨q, member, read, reads, listed⟩, need⟩

/-- A formula that another one needs firmly is needed. -/
theorem readers_firm_subset (d : Dependencies) (spills : Spills) (vertices : List Position)
    (u q : Position) (firm : q ∈ Needs.readers (needs d spills vertices).firm u) :
    q ∈ Needs.readers (needs d spills vertices).all u :=
  Needs.mem_readers_all_of_firm firm

/-! ### The whole schedule -/

/-- What a schedule of formulas promises. -/
structure Orders (firm : PositionMap PositionSet) (vertices : List Position) (plan : Schedule) :
    Prop where
  nodup : plan.order.Nodup
  inside : ∀ p ∈ plan.order, p ∈ vertices
  covers : ∀ p ∈ vertices, p ∈ plan.order ∨ p ∈ plan.cyclic
  cyclic_iff : ∀ p, p ∈ plan.cyclic ↔
    p ∈ vertices ∧ Relation.TransGen (Needed firm vertices) p p
  apart : ∀ p ∈ plan.order, p ∉ plan.cyclic
  precedes : ∀ before p after, plan.order = before ++ p :: after →
    ∀ u ∈ plan.order, p ∈ Needs.readers firm u → u ∈ before

/-- What a formula that has run in the strict order needs, directly or through others, has run
before it. -/
theorem Respects.mem_of_transGen {later earlier : List Position}
    (respects : Respects edges vertices (later ++ p :: earlier))
    (known : u ∈ vertices) (path : Relation.TransGen (Needed edges vertices) u p) :
    u ∈ earlier := by
  induction path generalizing later earlier with
  | single need => exact respects.mem_earlier known need.1
  | @tail between p path need ih =>
    have member : between ∈ vertices := by
      obtain ⟨_, _, last⟩ := Relation.TransGen.tail'_iff.mp path
      exact last.2
    have first := respects.mem_earlier member need.1
    obtain ⟨middle, rest, rfl⟩ := List.append_of_mem first
    have respected : Respects edges vertices ((later ++ p :: middle) ++ between :: rest) := by
      simpa using respects
    have inner := ih respected
    exact List.mem_append_right _ (List.mem_cons_of_mem _ inner)

/-- No formula that has run in the strict order needs itself. -/
theorem Respects.acyclic (respects : Respects edges vertices done) (once : done.Nodup)
    (inside : ∀ p ∈ done, p ∈ vertices) (ran : p ∈ done) :
    ¬ Relation.TransGen (Needed edges vertices) p p := by
  intro around
  obtain ⟨later, earlier, rfl⟩ := List.append_of_mem ran
  have again := respects.mem_of_transGen (inside p ran) around
  have apart := (List.nodup_append.mp once).2.1
  exact (List.nodup_cons.mp apart).1 again

/-- The formulas that the strict order leaves out, by turn. -/
theorem mem_rest_iff {first : List Position} (priority : Position → Nat) :
    p ∈ (vertices.filter fun p => !first.contains p).mergeSort (fun p q =>
        (compare (Turn.mk (priority p) p) (Turn.mk (priority q) q)).isLE) ↔
      p ∈ vertices ∧ p ∉ first := by
  rw [(List.mergeSort_perm _ _).mem_iff, List.mem_filter]
  simp

/-- In the order of their runs formulas come after those they need. -/
theorem Orderly.precedes {needs : Needs} {s : Progress} {before after : List Position}
    (orderly : Orderly needs priority edges vertices s)
    (split : s.done.reverse = before ++ p :: after) (known : u ∈ vertices)
    (need : p ∈ Needs.readers edges u) : u ∈ before := by
  have respects := orderly.respects
  rw [List.reverse_eq_iff.mp split, List.reverse_append, List.reverse_cons, List.append_assoc,
    List.singleton_append] at respects
  exact List.mem_reverse.mp (respects.mem_earlier known need)

/-- The orders of two lists of formulas one after the other: formulas come after those they need
firmly if that is so in each, and the first needs nothing of the second. -/
theorem precedes_append {first second before after : List Position}
    (inFirst : ∀ before after, first = before ++ p :: after → ∀ u ∈ first ++ second,
      p ∈ Needs.readers edges u → u ∈ before)
    (inSecond : ∀ before after, second = before ++ p :: after → ∀ u ∈ second,
      p ∈ Needs.readers edges u → u ∈ before)
    (split : first ++ second = before ++ p :: after) (listed : u ∈ first ++ second)
    (need : p ∈ Needs.readers edges u) : u ∈ before := by
  rcases List.append_eq_append_iff.mp split with ⟨middle, rfl, rest⟩ | ⟨middle, rfl, rest⟩
  · rcases List.mem_append.mp listed with early | late
    · exact List.mem_append_left _ early
    · exact List.mem_append_right _ (inSecond middle after rest u late need)
  · cases middle with
    | nil =>
      rw [List.append_nil] at listed
      rcases List.mem_append.mp listed with early | late
      · exact early
      · have none := inSecond [] after rest.symm u late need
        contradiction
    | cons q middle =>
      obtain ⟨rfl, rfl⟩ := List.cons.inj rest
      exact inFirst before middle rfl u listed need

/-- Formulas of the strict order are on no cycle, not even one of firm needs. -/
theorem not_mem_strictOrder_of_cyclic {needs : Needs} (distinct : vertices.Nodup)
    (weaker : ∀ u v, v ∈ Needs.readers needs.firm u → v ∈ Needs.readers needs.all u)
    (around : Relation.TransGen (Needed needs.firm vertices) p p) :
    p ∉ strictOrder needs priority vertices := by
  intro listed
  have strict := orderly_strict needs priority distinct
  refine strict.respects.acyclic strict.distinct strict.inside (List.mem_reverse.mp listed) ?_
  exact Relation.TransGen.mono (fun a b need => ⟨weaker a b need.1, need.2⟩) _ _ around

/-- All cycles are found among what the strict order leaves out. -/
theorem mem_flatten_cyclesAmong_rest_iff {needs : Needs} {rest : List Position}
    (distinct : vertices.Nodup)
    (weaker : ∀ u v, v ∈ Needs.readers needs.firm u → v ∈ Needs.readers needs.all u)
    (left : ∀ p, p ∈ rest ↔ p ∈ vertices ∧ p ∉ strictOrder needs priority vertices) :
    p ∈ (cyclesAmong needs.firm rest).flatten ↔
      p ∈ vertices ∧ Relation.TransGen (Needed needs.firm vertices) p p := by
  have waits : ∀ q ∈ vertices, Relation.TransGen (Needed needs.firm vertices) q q → q ∈ rest :=
    fun q member around =>
      (left q).mpr ⟨member, not_mem_strictOrder_of_cyclic distinct weaker around⟩
  rw [mem_flatten_cyclesAmong_iff]
  constructor
  · rintro ⟨known, around⟩
    refine ⟨((left p).mp known).1,
      Relation.TransGen.mono (fun a b need => ⟨need.1, ?_⟩) _ _ around⟩
    exact ((left b).mp need.2).1
  · rintro ⟨known, around⟩
    exact ⟨waits p known around, transGen_needed_of_cyclic waits around .refl⟩

/-- The schedule of formulas given once each keeps what schedules promise. -/
theorem orders_ofVertices (d : Dependencies) (spills : Spills) (priority : Position → Nat)
    (distinct : vertices.Nodup) :
    Orders (needs d spills vertices).firm vertices (ofVertices d spills priority vertices) := by
  have weaker := readers_firm_subset d spills vertices
  simp only [ofVertices]
  generalize needs d spills vertices = needs at weaker
  have strict := orderly_strict needs priority distinct
  have firstInside : ∀ p ∈ strictOrder needs priority vertices, p ∈ vertices := fun p listed =>
    strict.inside p (List.mem_reverse.mp listed)
  have restIff : ∀ p, p ∈ _ ↔ p ∈ vertices ∧ p ∉ strictOrder needs priority vertices :=
    fun p => mem_rest_iff priority
  generalize hRest : (vertices.filter fun p => !(strictOrder needs priority vertices).contains
    p).mergeSort (fun p q => (compare (Turn.mk (priority p) p) (Turn.mk (priority q) q)).isLE) = rest
      at restIff ⊢
  have restOnce : rest.Nodup := by
    rw [← hRest, (List.mergeSort_perm _ _).nodup_iff]
    exact distinct.filter _
  have cyclicIff : ∀ p, p ∈ (cyclesAmong needs.firm rest).flatten ↔
      p ∈ vertices ∧ Relation.TransGen (Needed needs.firm vertices) p p :=
    fun p => mem_flatten_cyclesAmong_rest_iff distinct weaker restIff
  have freeOnce : (rest.filter fun p => !(cyclesAmong needs.firm rest).flatten.contains p).Nodup :=
    restOnce.filter _
  have freeIff : ∀ p, p ∈ (rest.filter fun p =>
      !(cyclesAmong needs.firm rest).flatten.contains p) ↔
        (p ∈ vertices ∧ p ∉ strictOrder needs priority vertices) ∧
          p ∉ (cyclesAmong needs.firm rest).flatten := fun p => by
    rw [List.mem_filter, restIff]
    simp only [Bool.not_eq_true', ← Bool.not_eq_true, List.contains_iff_mem]
  generalize (rest.filter fun p => !(cyclesAmong needs.firm rest).flatten.contains p) = free
    at freeOnce freeIff ⊢
  have relaxed := orderly_relaxed needs priority freeOnce weaker
  have secondInside : ∀ p ∈ relaxedOrder needs priority free, p ∈ free := fun p listed =>
    relaxed.inside p (List.mem_reverse.mp listed)
  have secondCovers : ∀ p ∈ free, p ∈ relaxedOrder needs priority free := fun p known =>
    mem_relaxedOrder needs priority freeOnce weaker (fun q member around => by
      refine ((freeIff q).mp member).2 ((cyclicIff q).mpr ⟨((freeIff q).mp member).1.1, ?_⟩)
      exact Relation.TransGen.mono
        (fun a b need => ⟨need.1, ((freeIff b).mp need.2).1.1⟩) _ _ around) known
  refine ⟨?_, ?_, ?_, cyclicIff, ?_, ?_⟩
  · refine List.nodup_append.mpr ⟨List.nodup_reverse.mpr strict.distinct,
      List.nodup_reverse.mpr relaxed.distinct, fun p early q late same => ?_⟩
    subst same
    exact ((freeIff p).mp (secondInside p late)).1.2 early
  · intro p listed
    rcases List.mem_append.mp listed with early | late
    · exact firstInside p early
    · exact ((freeIff p).mp (secondInside p late)).1.1
  · intro p known
    by_cases early : p ∈ strictOrder needs priority vertices
    · exact .inl (List.mem_append_left _ early)
    · by_cases cyclic : p ∈ (cyclesAmong needs.firm rest).flatten
      · exact .inr cyclic
      · exact .inl (List.mem_append_right _
          (secondCovers p ((freeIff p).mpr ⟨⟨known, early⟩, cyclic⟩)))
  · intro p listed cyclic
    rcases List.mem_append.mp listed with early | late
    · exact not_mem_strictOrder_of_cyclic distinct weaker ((cyclicIff p).mp cyclic).2 early
    · exact ((freeIff p).mp (secondInside p late)).2 cyclic
  · intro before p after split u listed need
    refine precedes_append (fun before after split u listed need => ?_)
      (fun before after split u listed need => ?_) split listed need
    · refine strict.precedes split ?_ (weaker u p need)
      rcases List.mem_append.mp listed with early | late
      · exact firstInside u early
      · exact ((freeIff u).mp (secondInside u late)).1.1
    · exact relaxed.precedes split (secondInside u listed) need

end Schedule

end Spreadsheet
