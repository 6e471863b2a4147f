import Spreadsheet.Proofs.Recalculation.CorrectSchedules

/-!
# Writers before readers

A read of a larger zone is linked to every formula whose output it meets. A read of a single cell
is linked to one formula only: the anchor that the cell leads to, or the formula in the cell. Where
zones of arrays overlap, or a formula stands within the array of another one, a cell has several
writers, and its reader is sure to run after those only to which a chain of links leads back.
-/
namespace Spreadsheet

namespace Spills

/-- The states that claims of zones at their anchors, failed claims, releases and cleared sheets
lead to. -/
inductive Built : Spills → Prop
  | empty : Built .empty
  | claim {s : Spills} {a : Position} {zone : Zone} (values : Grid Value)
    (formats : Grid (Option String)) (built : Built s) (starts : zone.topLeft = a) :
    Built (s.claim a zone values formats)
  | block {s : Spills} (a : Position) (candidate : Zone) (built : Built s) :
    Built (s.block a candidate)
  | release {s : Spills} (a : Position) (built : Built s) : Built (s.release a)
  | clearSheet {s : Spills} (id : SheetId) (built : Built s) : Built (s.clearSheet id)

/-- In all of these states owners and records are in step. -/
theorem Built.sound {s : Spills} (built : s.Built) : s.Sound := by
  induction built with
  | empty => exact sound_empty
  | claim values formats _ starts ih => exact ih.claim starts
  | block a candidate _ ih => exact ih.block a candidate
  | release a _ ih => exact ih.release a
  | clearSheet id _ ih => exact ih.clearSheet id

end Spills

namespace Schedule

variable {d : Dependencies} {spills : Spills} {vertices order : List Position} {read : Zone}
  {p q u v : Position}

/-! ### Links -/

/-- A formula reads a position of what another one writes. -/
def ReadsOutput (d : Dependencies) (spills : Spills) (writer reader : Position) : Prop :=
  ∃ read ∈ d.zonesOf reader, (outputZone spills writer).intersects read = true

/-- A read is linked to a formula: of a single cell to the one it leads to, of a larger zone to all
whose output it meets. -/
def LeadsTo (spills : Spills) (read : Zone) (writer : Position) : Prop :=
  if read.isSingle = true then (spills.owner? read.topLeft).getD read.topLeft = writer
  else (outputZone spills writer).intersects read = true

/-- A formula has a read that is linked to another one. -/
def Linked (d : Dependencies) (spills : Spills) (writer reader : Position) : Prop :=
  ∃ read ∈ d.zonesOf reader, LeadsTo spills read writer

/-- A step between different formulas of a list. -/
def Among (vertices : List Position) (related : Position → Position → Prop) (u v : Position) :
    Prop :=
  u ∈ vertices ∧ v ∈ vertices ∧ u ≠ v ∧ related u v

/-- A formula stands in an order before another one. -/
def RunsBefore (order : List Position) (u v : Position) : Prop :=
  ∃ before after, order = before ++ v :: after ∧ u ∈ before

/-- The cell that a read leads back from lies in the output of the formula it leads to. -/
theorem contains_outputZone (sound : spills.Sound) (p : Position) :
    (outputZone spills ((spills.owner? p).getD p)).contains p = true := by
  cases owned : spills.owner? p with
  | some a =>
    obtain ⟨zone, active, inside⟩ := sound.covered p a owned
    simpa [outputZone, active] using inside
  | none =>
    cases active : spills.activeZone? p with
    | some zone => simpa [outputZone, active] using sound.contains_anchor active
    | none => simp [outputZone, active]

/-- A linked read meets the output of its formula. -/
theorem intersects_of_leadsTo (sound : spills.Sound) (leads : LeadsTo spills read u) :
    (outputZone spills u).intersects read = true := by
  unfold LeadsTo at leads
  split at leads
  · rw [← leads]
    exact Zone.intersects_iff.mpr
      ⟨read.topLeft, contains_outputZone sound read.topLeft, read.contains_topLeft⟩
  · exact leads

/-- The needs of a formula from one zone it reads. -/
theorem mem_needsOf (spills : Spills) (vertices : List Position) (reader : Position) (read : Zone) :
    (∃ n ∈ needsOf spills (.ofList vertices compare)
        (vertices.map fun p => (p, outputZone spills p)) reader read,
        n.writer = u ∧ n.reader = q) ↔
      q = reader ∧ u ∈ vertices ∧ LeadsTo spills read u ∧ (u ≠ q ∨ read.contains q = true) := by
  unfold needsOf LeadsTo
  by_cases alone : read.isSingle = true
  · simp only [alone, ↓reduceIte, Zone.contains_of_isSingle alone]
    constructor
    · rintro ⟨n, listed, rfl, rfl⟩
      split at listed
      · rename_i member
        obtain rfl := List.mem_singleton.mp listed
        rw [Bool.and_eq_true, Std.ExtTreeSet.contains_iff_mem, PositionSet.mem_ofList] at member
        rw [Bool.or_eq_true, bne_iff_ne, beq_iff_eq] at member
        exact ⟨rfl, member.1, rfl, member.2.imp_right Eq.symm⟩
      · contradiction
    · rintro ⟨rfl, member, rfl, other⟩
      refine ⟨⟨(spills.owner? read.topLeft).getD read.topLeft, q,
        read.topLeft == (spills.owner? read.topLeft).getD read.topLeft⟩, ?_, rfl, rfl⟩
      have needed : ((Std.ExtTreeSet.ofList vertices compare).contains
          ((spills.owner? read.topLeft).getD read.topLeft) &&
            ((spills.owner? read.topLeft).getD read.topLeft != q || read.topLeft == q)) = true := by
        rw [Bool.and_eq_true, Std.ExtTreeSet.contains_iff_mem, PositionSet.mem_ofList,
          Bool.or_eq_true, bne_iff_ne, beq_iff_eq]
        exact ⟨member, other.imp_right Eq.symm⟩
      rw [if_pos needed]
      exact List.mem_singleton_self _
  · simp only [alone, Bool.false_eq_true, ↓reduceIte]
    simp only [List.mem_filterMap, List.mem_map, Prod.exists, Prod.mk.injEq]
    constructor
    · rintro ⟨n, ⟨_, _, ⟨writer, member, rfl, rfl⟩, listed⟩, rfl, rfl⟩
      split at listed
      · rename_i meets
        obtain rfl := Option.some.inj listed
        simp only [Bool.and_eq_true, Bool.or_eq_true, bne_iff_ne, ne_eq] at meets
        refine ⟨rfl, member, meets.1, ?_⟩
        by_cases own : writer = reader
        · rw [own] at meets
          exact .inr (meets.2.resolve_left (by simp))
        · exact .inl own
      · contradiction
    · rintro ⟨rfl, member, meets, other⟩
      refine ⟨⟨u, q, read.contains u⟩, ⟨u, outputZone spills u, ⟨u, member, rfl, rfl⟩, ?_⟩, rfl, rfl⟩
      rw [if_pos]
      simp only [Bool.and_eq_true, Bool.or_eq_true, bne_iff_ne, ne_eq]
      refine ⟨meets, ?_⟩
      by_cases own : u = q
      · rw [own] at other ⊢
        exact .inr (other.resolve_left (by simp))
      · exact .inl own

/-- The needs among formulas that do not read their own cells are their links to each other. -/
theorem mem_readers_all_needs_iff
    (foreign : ∀ p ∈ vertices, ∀ read ∈ d.zonesOf p, read.contains p = false) :
    q ∈ Needs.readers (needs d spills vertices).all u ↔
      Among vertices (Linked d spills) u q := by
  unfold needs
  dsimp only
  rw [Needs.mem_readers_all]
  simp only [List.mem_flatMap]
  constructor
  · rintro ⟨n, ⟨reader, member, read, reads, listed⟩, need⟩
    obtain ⟨rfl, writer, leads, other⟩ :=
      (mem_needsOf spills vertices reader read).mp ⟨n, listed, need⟩
    refine ⟨writer, member, other.resolve_right fun own => ?_, read, reads, leads⟩
    rw [foreign q member read reads] at own
    contradiction
  · rintro ⟨writer, member, other, read, reads, leads⟩
    obtain ⟨n, listed, need⟩ :=
      (mem_needsOf spills vertices q read).mpr ⟨rfl, writer, leads, .inl other⟩
    exact ⟨n, ⟨q, member, read, reads, listed⟩, need⟩

/-! ### Formulas that every order keeps apart -/

section Orders

variable {edges : PositionMap PositionSet} {needs : Needs} {priority : Position → Nat}
  {done : List Position} {s : Progress}

/-- In the strict order a formula stands behind those of the list that it needs, directly or through
others. -/
theorem runsBefore_strictOrder (needs : Needs) (priority : Position → Nat)
    (distinct : vertices.Nodup) (known : u ∈ vertices)
    (path : Relation.TransGen (Needed needs.all vertices) u v)
    (listed : v ∈ strictOrder needs priority vertices) :
    RunsBefore (strictOrder needs priority vertices) u v := by
  have orderly := orderly_strict needs priority distinct
  obtain ⟨later, earlier, split⟩ := List.append_of_mem (List.mem_reverse.mp listed)
  have respects := orderly.respects
  rw [split] at respects
  refine ⟨earlier.reverse, later.reverse, ?_, List.mem_reverse.mpr ?_⟩
  · rw [strictOrder, split]
    simp
  · exact respects.mem_of_transGen known path

/-- If a formula has not run and no formula needs itself, it or one that it needs has not run and
needs nothing more. -/
theorem exists_free_above (acyclic : ∀ p ∈ vertices, ¬ Relation.TransGen (Needed edges vertices) p p)
    (known : v ∈ vertices) (fresh : v ∉ done) :
    ∃ p ∈ vertices, p ∉ done ∧ unmet edges vertices done p = 0 ∧
      Relation.ReflTransGen (Needed edges vertices) p v := by
  classical
  by_contra none
  push Not at none
  obtain ⟨q, left, around⟩ := exists_cycle (Needed edges vertices)
    (vertices.filter fun p => p ∉ done ∧ Relation.ReflTransGen (Needed edges vertices) p v)
    (List.mem_filter.mpr ⟨known, by simpa using ⟨fresh, .refl⟩⟩) (by
      intro q left
      obtain ⟨member, waits⟩ := List.mem_filter.mp left
      obtain ⟨waits, above⟩ := of_decide_eq_true waits
      have bound := fun free => none q member waits free above
      rw [imp_false, unmet_eq_zero_iff] at bound
      push Not at bound
      obtain ⟨u, writer, need, waiting⟩ := bound
      refine ⟨u, List.mem_filter.mpr ⟨writer, ?_⟩, need, member⟩
      exact decide_eq_true ⟨waiting, above.head ⟨need, member⟩⟩)
  exact acyclic q (List.mem_filter.mp left).1 around

/-- A formula that has its turn before another one is of no greater priority. -/
theorem Earlier.le (earlier : Earlier priority p q) : priority p ≤ priority q := by
  rcases Ordering.then_eq_lt.mp earlier with less | ⟨same, _⟩
  · exact Nat.le_of_lt (Nat.compare_eq_lt.mp less)
  · exact Nat.le_of_eq (Nat.compare_eq_eq.mp same)

/-- Formulas of lower priority than a formula and all it needs run only after it. -/
theorem mem_earlier_of_urgent (needs : Needs) (distinct : vertices.Nodup)
    (acyclic : ∀ p ∈ vertices, ¬ Relation.TransGen (Needed needs.all vertices) p p)
    (known : v ∈ vertices)
    (urgent : ∀ p, Relation.ReflTransGen (Needed needs.all vertices) p v → priority p = 0)
    (steps : Nat) {later earlier : List Position}
    (split : ((Progress.start needs priority vertices).run needs priority (fun _ => none)
      steps).done = later ++ u :: earlier) (idle : priority u ≠ 0) : v ∈ earlier := by
  have kept : ∀ s p, (Faithful needs priority vertices s ∧ ∀ later u earlier,
      s.done = later ++ u :: earlier → priority u ≠ 0 → v ∈ earlier) →
        nextTurn? (fun _ => none) s = some p →
          Faithful needs priority vertices (s.perform needs priority p) ∧ ∀ later u earlier,
            (s.perform needs priority p).done = later ++ u :: earlier → priority u ≠ 0 →
              v ∈ earlier := by
    rintro s p ⟨faithful, behind⟩ next
    have found : s.ready.min?.map Turn.position = some p := by
      simpa [nextTurn?] using next
    obtain ⟨member, fresh, _⟩ := faithful.of_min? found
    refine ⟨faithful.perform distinct member fresh, fun later u earlier split idle => ?_⟩
    rw [done_perform] at split
    cases later with
    | cons q later => exact behind later u earlier (List.cons.inj split).2 idle
    | nil =>
      obtain ⟨rfl, rfl⟩ := List.cons.inj split
      by_contra waits
      obtain ⟨q, listed, beyond, free, above⟩ := exists_free_above acyclic known waits
      obtain ⟨p', first, _, _, ahead⟩ := faithful.nextTurn?_eq_some listed beyond free
      obtain rfl := Option.some.inj (next.symm.trans first)
      rcases ahead with rfl | ahead
      · exact idle (urgent p above)
      · have low := ahead.le
        rw [urgent q above] at low
        exact idle (Nat.le_zero.mp low)
  exact (run_keeps kept steps _ ⟨faithful_start needs priority distinct, fun later u earlier split =>
    by simp [Progress.start] at split⟩).2 later u earlier split idle

/-- A formula stands before another one in the strict orders of all priorities only if the other one
needs it, directly or through others. -/
theorem transGen_of_runsBefore (needs : Needs) (distinct : vertices.Nodup)
    (acyclic : ∀ p ∈ vertices, ¬ Relation.TransGen (Needed needs.all vertices) p p)
    (known : v ∈ vertices) (different : u ≠ v)
    (always : ∀ priority, RunsBefore (strictOrder needs priority vertices) u v) :
    Relation.TransGen (Needed needs.all vertices) u v := by
  classical
  by_contra apart
  -- The formula and all it needs come first, the others later.
  let priority : Position → Nat := fun p =>
    if Relation.ReflTransGen (Needed needs.all vertices) p v then 0 else 1
  obtain ⟨before, after, split, early⟩ := always priority
  have idle : priority u ≠ 0 := by
    have beyond : ¬ Relation.ReflTransGen (Needed needs.all vertices) u v := fun path => by
      rcases Relation.reflTransGen_iff_eq_or_transGen.mp path with same | way
      · exact different same.symm
      · exact apart way
    simp [priority, beyond]
  obtain ⟨front, back, rfl⟩ := List.append_of_mem early
  have once := List.nodup_reverse.mpr (orderly_strict needs priority distinct).distinct
  rw [strictOrder] at split
  rw [split] at once
  have backwards := (List.reverse_eq_iff.mp split).trans (by
    rw [List.reverse_append, List.reverse_append, List.reverse_cons, List.reverse_cons,
      List.append_assoc, List.append_assoc, List.singleton_append, List.singleton_append,
      ← List.cons_append, ← List.append_assoc])
  have ran := mem_earlier_of_urgent needs distinct acyclic known
    (fun p above => if_pos above) vertices.length backwards idle
  exact List.disjoint_of_nodup_append once
    (List.mem_append_left _ (List.mem_reverse.mp ran)) List.mem_cons_self

end Orders

/-! ### All orders -/

/-- If what formulas write and read is without cycles, and no formula reads its own cell, then those
that stand before a formula in the orders of all priorities are those to which its reads are linked,
directly or through others. -/
theorem runsBefore_iff_linked (d : Dependencies) (built : spills.Built) (distinct : vertices.Nodup)
    (foreign : ∀ p ∈ vertices, ∀ read ∈ d.zonesOf p, read.contains p = false)
    (acyclic : ∀ p, ¬ Relation.TransGen (Among vertices (ReadsOutput d spills)) p p)
    (known : u ∈ vertices) (alsoKnown : v ∈ vertices) (different : u ≠ v) :
    (∀ priority, RunsBefore (ofVertices d spills priority vertices).order u v) ↔
      Relation.TransGen (Among vertices (Linked d spills)) u v := by
  have same : ∀ a b, Needed (needs d spills vertices).all vertices a b ↔
      Among vertices (Linked d spills) a b := fun a b => by
    rw [Needed, mem_readers_all_needs_iff foreign]
    exact ⟨fun both => both.1, fun among => ⟨among, among.2.1⟩⟩
  have relations : Needed (needs d spills vertices).all vertices = Among vertices (Linked d spills) :=
    funext fun a => funext fun b => propext (same a b)
  have without : ∀ p ∈ vertices,
      ¬ Relation.TransGen (Needed (needs d spills vertices).all vertices) p p := by
    intro p _ around
    rw [relations] at around
    refine acyclic p (Relation.TransGen.mono (fun a b linked => ?_) _ _ around)
    obtain ⟨writer, reader, other, read, reads, leads⟩ := linked
    exact ⟨writer, reader, other, read, reads, intersects_of_leadsTo built.sound leads⟩
  have orders : ∀ priority, (ofVertices d spills priority vertices).order =
      strictOrder (needs d spills vertices) priority vertices := fun priority => by
    rw [ofVertices_eq_of_acyclic d spills priority distinct without]
  simp only [orders]
  rw [← relations]
  constructor
  · exact transGen_of_runsBefore _ distinct without alsoKnown different
  · exact fun path priority => runsBefore_strictOrder _ priority distinct known path
      (mem_strictOrder _ priority distinct without alsoKnown)

/-- A formula in a cell of the array of another one, and a third one that reads that cell: the
reader is linked to the anchor of the array only, so it may run before the formula in the cell. -/
theorem not_runsBefore_of_formula_in_array :
    ReadsOutput (Dependencies.empty.record ⟨0, 0, 3⟩ [.single ⟨0, 0, 1⟩])
        (Spills.empty.claim ⟨0, 0, 0⟩ (.fromAnchor ⟨0, 0, 0⟩ 1 3) [] []) ⟨0, 0, 1⟩ ⟨0, 0, 3⟩ ∧
      ¬ ∀ priority, RunsBefore
        (ofVertices (Dependencies.empty.record ⟨0, 0, 3⟩ [.single ⟨0, 0, 1⟩])
          (Spills.empty.claim ⟨0, 0, 0⟩ (.fromAnchor ⟨0, 0, 0⟩ 1 3) [] []) priority
            [⟨0, 0, 0⟩, ⟨0, 0, 1⟩, ⟨0, 0, 3⟩]).order ⟨0, 0, 1⟩ ⟨0, 0, 3⟩ := by
  have reads : ∀ p read, read ∈ (Dependencies.empty.record ⟨0, 0, 3⟩
      [.single ⟨0, 0, 1⟩]).zonesOf p ↔ p = ⟨0, 0, 3⟩ ∧ read = .single ⟨0, 0, 1⟩ := by
    intro p read
    rw [Dependencies.zonesOf_record]
    split
    · rename_i here
      simp [here]
    · rename_i elsewhere
      simp [elsewhere, Dependencies.zonesOf, Dependencies.empty]
  have built : (Spills.empty.claim ⟨0, 0, 0⟩ (.fromAnchor ⟨0, 0, 0⟩ 1 3) [] []).Built :=
    .claim [] [] .empty rfl
  have owner : (Spills.empty.claim ⟨0, 0, 0⟩ (.fromAnchor ⟨0, 0, 0⟩ 1 3) [] []).owner? ⟨0, 0, 1⟩ =
      some ⟨0, 0, 0⟩ := by
    rw [Spills.sound_empty.owner?_claim]
    rfl
  -- The anchor and the formula in its array read nothing, so no path is longer than one step.
  have reader : ∀ {u v}, ReadsOutput (Dependencies.empty.record ⟨0, 0, 3⟩ [.single ⟨0, 0, 1⟩])
      (Spills.empty.claim ⟨0, 0, 0⟩ (.fromAnchor ⟨0, 0, 0⟩ 1 3) [] []) u v → v = ⟨0, 0, 3⟩ := by
    rintro u v ⟨read, listed, _⟩
    exact ((reads v read).mp listed).1
  refine ⟨⟨.single ⟨0, 0, 1⟩, (reads _ _).mpr ⟨rfl, rfl⟩, ?_⟩, fun always => ?_⟩
  · rw [outputZone, Spills.activeZone?_claim, if_neg (by decide), Spills.activeZone?_empty]
    rfl
  have path := (runsBefore_iff_linked _ built (by decide) (fun p _ read listed => ?_)
    (fun p around => ?_) (by decide) (by decide) (by decide)).mp always
  · obtain ⟨between, way, last⟩ := Relation.TransGen.tail'_iff.mp path
    obtain ⟨_, _, _, read, listed, leads⟩ := last
    rw [((reads _ read).mp listed).2] at leads
    have anchor : between = ⟨0, 0, 0⟩ := by
      have same : ((Spills.empty.claim ⟨0, 0, 0⟩ (.fromAnchor ⟨0, 0, 0⟩ 1 3) [] []).owner?
        ⟨0, 0, 1⟩).getD ⟨0, 0, 1⟩ = between := leads
      rw [owner] at same
      exact same.symm
    subst anchor
    rcases Relation.ReflTransGen.cases_tail way with same | ⟨u, _, step⟩
    · exact absurd same (by decide)
    · obtain ⟨_, _, _, read, listed, _⟩ := step
      exact absurd ((reads _ read).mp listed).1 (by decide)
  · obtain ⟨rfl, rfl⟩ := (reads p read).mp listed
    rfl
  · obtain ⟨u, first, _⟩ := Relation.TransGen.head'_iff.mp around
    obtain ⟨w, _, last⟩ := Relation.TransGen.tail'_iff.mp around
    exact first.2.2.1 ((reader last.2.2.2).trans (reader first.2.2.2).symm)

end Schedule

end Spreadsheet
