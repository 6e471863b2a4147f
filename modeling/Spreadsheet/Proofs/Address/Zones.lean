import Spreadsheet.Address.Zone

/-!
# Sets of positions and zones

A zone is the set of its positions: listing them, testing one, meeting another zone and counting
rows and columns all speak of the same rectangle. Sorted lists of positions or zones hold what was
given, each once, and depend on nothing but that.
-/
namespace Spreadsheet

/-- Two sets of positions with the same members are equal. -/
theorem PositionSet.ext {s t : PositionSet} (same : ∀ p, p ∈ s ↔ p ∈ t) : s = t :=
  Std.ExtTreeSet.ext_mem fun {p} => same p

/-- A set made from a list holds what the list holds. -/
theorem PositionSet.mem_ofList {p : Position} {positions : List Position} :
    p ∈ Std.ExtTreeSet.ofList positions compare ↔ p ∈ positions := by
  rw [Std.ExtTreeSet.mem_ofList, List.contains_iff_mem]

/-- Inserting a list adds its members. -/
theorem PositionSet.mem_insertMany {s : PositionSet} {p : Position} {positions : List Position} :
    p ∈ s.insertMany positions ↔ p ∈ s ∨ p ∈ positions := by
  rw [Std.ExtTreeSet.mem_insertMany_list, List.contains_iff_mem]

/-- Inserting a position adds it. -/
theorem PositionSet.mem_insert {s : PositionSet} {p q : Position} :
    q ∈ s.insert p ↔ q = p ∨ q ∈ s := by
  rw [Std.ExtTreeSet.mem_insert, Std.LawfulEqOrd.compare_eq_iff_eq, eq_comm]

/-- Erasing a position removes it and nothing else. -/
theorem PositionSet.mem_erase {s : PositionSet} {p q : Position} :
    q ∈ s.erase p ↔ q ≠ p ∧ q ∈ s := by
  rw [Std.ExtTreeSet.mem_erase, ne_eq, Std.LawfulEqOrd.compare_eq_iff_eq, eq_comm]

/-- Filtering a set keeps the members that pass. -/
theorem PositionSet.mem_filter {s : PositionSet} {keep : Position → Bool} {p : Position} :
    p ∈ s.filter keep ↔ p ∈ s ∧ keep p = true := by
  rw [Std.ExtTreeSet.mem_filter]
  constructor
  · rintro ⟨member, kept⟩
    exact ⟨member, by simpa [Std.ExtTreeSet.get_eq] using kept⟩
  · rintro ⟨member, kept⟩
    exact ⟨member, by simpa [Std.ExtTreeSet.get_eq] using kept⟩

/-- The test that a set does not hold a position. -/
theorem PositionSet.not_contains_iff {s : PositionSet} {p : Position} :
    (!s.contains p) = true ↔ p ∉ s := by
  rw [Bool.not_eq_true', ← Bool.not_eq_true, Std.ExtTreeSet.contains_iff_mem]

/-- A sorted list holds what was given. -/
@[simp] theorem mem_sortedPositions {p : Position} {positions : List Position} :
    p ∈ sortedPositions positions ↔ p ∈ positions := by
  rw [sortedPositions, Std.ExtTreeSet.mem_toList, PositionSet.mem_ofList]

/-- The elements of a set of positions are listed once each. -/
theorem PositionSet.nodup_toList (s : PositionSet) : s.toList.Nodup :=
  s.distinct_toList.imp fun distinct same => distinct (by rw [same]; exact Std.ReflCmp.compare_self)

/-- A sorted list holds every position once. -/
theorem nodup_sortedPositions (positions : List Position) : (sortedPositions positions).Nodup :=
  PositionSet.nodup_toList _

/-- A sorted list depends only on which positions were given. -/
theorem sortedPositions_congr {positions others : List Position}
    (same : ∀ p, p ∈ positions ↔ p ∈ others) : sortedPositions positions = sortedPositions others :=
  congrArg Std.ExtTreeSet.toList (PositionSet.ext fun p => by
    rw [PositionSet.mem_ofList, PositionSet.mem_ofList, same])

/-- A sorted list of zones holds what was given. -/
@[simp] theorem mem_sortedZones {z : Zone} {zones : List Zone} :
    z ∈ sortedZones zones ↔ z ∈ zones := by
  rw [sortedZones, Std.ExtTreeSet.mem_toList, Std.ExtTreeSet.mem_ofList, List.contains_iff_mem]

/-- Of a list, the positions beyond a set are those that the set does not hold. -/
theorem mem_positionsBeyond {p : Position} {seen : PositionSet} {positions : List Position} :
    p ∈ positionsBeyond seen positions ↔ p ∈ positions ∧ p ∉ seen := by
  induction positions generalizing seen with
  | nil => simp [positionsBeyond]
  | cons q rest ih =>
    unfold positionsBeyond
    split
    · rename_i known
      rw [Std.ExtTreeSet.contains_iff_mem] at known
      rw [ih, List.mem_cons]
      constructor
      · exact fun both => ⟨.inr both.1, both.2⟩
      · rintro ⟨rfl | later, fresh⟩
        · exact absurd known fresh
        · exact ⟨later, fresh⟩
    · rename_i fresh
      rw [Std.ExtTreeSet.contains_iff_mem] at fresh
      rw [List.mem_cons, List.mem_cons, ih, PositionSet.mem_insert, not_or]
      by_cases here : p = q
      · simp [here, fresh]
      · simp [here]

/-- A list keeps its positions when each is kept once. -/
@[simp] theorem mem_distinctPositions {p : Position} {positions : List Position} :
    p ∈ distinctPositions positions ↔ p ∈ positions := by
  rw [distinctPositions, mem_positionsBeyond]
  exact and_iff_left Std.ExtTreeSet.not_mem_empty

/-- A list that holds nothing twice is kept as it is. -/
theorem distinctPositions_of_nodup {positions : List Position} (once : positions.Nodup) :
    distinctPositions positions = positions := by
  have kept : ∀ seen : PositionSet, (∀ p ∈ positions, p ∉ seen) →
      positionsBeyond seen positions = positions := by
    induction positions with
    | nil => exact fun _ _ => rfl
    | cons p rest ih =>
      intro seen fresh
      obtain ⟨first, others⟩ := List.nodup_cons.mp once
      have new : ¬seen.contains p = true := by
        rw [Std.ExtTreeSet.contains_iff_mem]
        exact fresh p List.mem_cons_self
      rw [positionsBeyond, if_neg new, ih others]
      intro q later known
      rcases PositionSet.mem_insert.mp known with rfl | known
      · exact first later
      · exact fresh q (List.mem_cons_of_mem _ later) known
  exact kept ∅ fun p _ => Std.ExtTreeSet.not_mem_empty

/-- Positions are the same if their sheets, rows and columns are. -/
theorem Position.eq_of_same {p q : Position} (sheets : p.sheet = q.sheet) (rows : p.row = q.row)
    (columns : p.column = q.column) : p = q := by
  cases p
  cases q
  rw [mk.injEq]
  exact ⟨sheets, rows, columns⟩

/-- A position comes before another one when a sheet is read row by row. -/
def Position.Precedes (p q : Position) : Prop :=
  p.row < q.row ∨ p.row = q.row ∧ p.column < q.column

/-- Of two positions only one comes before the other. -/
theorem Position.Precedes.not_symm {p q : Position} (before : p.Precedes q) : ¬ q.Precedes p := by
  unfold Precedes at before ⊢
  omega

namespace Zone

/-- The positions of a zone are listed row by row. -/
theorem pairwise_positions (z : Zone) : z.positions.Pairwise Position.Precedes := by
  unfold positions
  rw [List.pairwise_flatMap]
  constructor
  · intro row _
    rw [List.pairwise_map]
    exact (List.pairwise_lt_range' 1).imp fun before => .inr ⟨rfl, before⟩
  · refine (List.pairwise_lt_range' 1).imp fun before p first q second => ?_
    obtain ⟨_, _, rfl⟩ := List.mem_map.mp first
    obtain ⟨_, _, rfl⟩ := List.mem_map.mp second
    exact .inl before

/-- The positions of a zone are listed once each. -/
theorem nodup_positions (z : Zone) : z.positions.Nodup := by
  refine z.pairwise_positions.imp fun before same => ?_
  subst same
  rcases before with less | ⟨_, less⟩
  · exact Nat.lt_irrefl _ less
  · exact Nat.lt_irrefl _ less

/-- A position lies in a zone if it is on its sheet and between its borders. -/
theorem contains_iff {z : Zone} {p : Position} :
    z.contains p = true ↔
      p.sheet = z.sheet ∧ z.top ≤ p.row ∧ p.row ≤ z.bottom ∧ z.left ≤ p.column ∧
        p.column ≤ z.right := by
  simp [contains, and_assoc]

/-- The positions of a zone are those that lie in it. -/
@[simp] theorem mem_positions {z : Zone} {p : Position} :
    p ∈ z.positions ↔ z.contains p = true := by
  have vertical := z.top_le_bottom
  have horizontal := z.left_le_right
  simp only [positions, List.mem_flatMap, List.mem_map, List.mem_range'_1, contains_iff, rows,
    columns]
  constructor
  · rintro ⟨row, inRows, column, inColumns, rfl⟩
    refine ⟨rfl, ?_, ?_, ?_, ?_⟩ <;> dsimp only <;> omega
  · rintro ⟨sheet, top, bottom, left, right⟩
    exact ⟨p.row, by omega, p.column, by omega, by rw [← sheet]⟩

/-- The first position of a zone lies in it. -/
@[simp] theorem contains_topLeft (z : Zone) : z.contains z.topLeft = true := by
  have vertical := z.top_le_bottom
  have horizontal := z.left_le_right
  exact contains_iff.mpr ⟨rfl, Nat.le_refl _, vertical, Nat.le_refl _, horizontal⟩

/-- Two zones meet when they have a position in common. -/
theorem intersects_iff {z other : Zone} :
    z.intersects other = true ↔ ∃ p, z.contains p = true ∧ other.contains p = true := by
  have vertical := z.top_le_bottom
  have horizontal := z.left_le_right
  have otherVertical := other.top_le_bottom
  have otherHorizontal := other.left_le_right
  simp only [intersects, Bool.and_eq_true, beq_iff_eq, decide_eq_true_eq, contains_iff]
  constructor
  · rintro ⟨⟨⟨⟨sheet, first⟩, second⟩, third⟩, fourth⟩
    refine ⟨⟨z.sheet, max z.top other.top, max z.left other.left⟩, ⟨rfl, ?_⟩, ⟨sheet, ?_⟩⟩ <;>
      dsimp only <;> omega
  · rintro ⟨p, ⟨sheet, inside⟩, ⟨otherSheet, inOther⟩⟩
    refine ⟨⟨⟨⟨sheet.symm.trans otherSheet, ?_⟩, ?_⟩, ?_⟩, ?_⟩ <;> omega

/-- The zone of one position holds that position. -/
@[simp] theorem contains_single {p q : Position} : (single p).contains q = true ↔ q = p := by
  obtain ⟨sheet, row, column⟩ := p
  obtain ⟨otherSheet, otherRow, otherColumn⟩ := q
  simp only [contains_iff, single, span, Nat.min_self, Nat.max_self, Position.mk.injEq]
  refine and_congr_right fun _ => ⟨fun _ => ⟨?_, ?_⟩, fun _ => ?_⟩ <;> omega

/-- A zone of one position holds its first position only. -/
theorem contains_of_isSingle {z : Zone} (alone : z.isSingle = true) {p : Position} :
    z.contains p = true ↔ p = z.topLeft := by
  simp only [isSingle, Bool.and_eq_true, beq_iff_eq] at alone
  have vertical := z.top_le_bottom
  have horizontal := z.left_le_right
  obtain ⟨sheet, row, column⟩ := p
  simp only [contains_iff, topLeft, Position.mk.injEq]
  refine and_congr_right fun _ => ⟨fun _ => ⟨?_, ?_⟩, fun _ => ?_⟩ <;> omega

/-- A zone laid from an anchor starts at it. -/
@[simp] theorem topLeft_fromAnchor (anchor : Position) (rows columns : Nat) :
    (fromAnchor anchor rows columns).topLeft = anchor := rfl

/-- The sheet of a zone laid from an anchor. -/
@[simp] theorem sheet_fromAnchor (anchor : Position) (rows columns : Nat) :
    (fromAnchor anchor rows columns).sheet = anchor.sheet := rfl

/-- Zones are the same if their sheets and borders are. -/
theorem eq_of_same {z other : Zone} (sheets : z.sheet = other.sheet) (tops : z.top = other.top)
    (lefts : z.left = other.left) (bottoms : z.bottom = other.bottom)
    (rights : z.right = other.right) : z = other := by
  cases z
  cases other
  simp only [mk.injEq]
  exact ⟨sheets, tops, lefts, bottoms, rights⟩

/-- A zone is laid again from its first position. -/
theorem fromAnchor_topLeft (z : Zone) : fromAnchor z.topLeft z.rows z.columns = z := by
  have vertical := z.top_le_bottom
  have horizontal := z.left_le_right
  exact eq_of_same rfl rfl rfl (by simp only [fromAnchor, topLeft, rows]; omega)
    (by simp only [fromAnchor, topLeft, columns]; omega)

/-- A zone contains another one when its borders enclose it. -/
theorem containsZone_iff {outer inner : Zone} :
    outer.containsZone inner = true ↔
      inner.sheet = outer.sheet ∧ outer.top ≤ inner.top ∧ inner.bottom ≤ outer.bottom ∧
        outer.left ≤ inner.left ∧ inner.right ≤ outer.right := by
  unfold containsZone
  simp only [Bool.and_eq_true, beq_iff_eq, decide_eq_true_eq, and_assoc]

/-- A zone contains the positions of a zone inside it. -/
theorem contains_of_containsZone {outer inner : Zone} {p : Position}
    (within : outer.containsZone inner = true) (inside : inner.contains p = true) : outer.contains p = true := by
  obtain ⟨sheets, top, bottom, left, right⟩ := containsZone_iff.mp within
  obtain ⟨here, above, below, before, behind⟩ := contains_iff.mp inside
  rw [contains_iff]
  exact ⟨here.trans sheets, by omega, by omega, by omega, by omega⟩

/-- A zone contains itself. -/
theorem containsZone_self (z : Zone) : z.containsZone z = true :=
  containsZone_iff.mpr ⟨rfl, Nat.le_refl _, Nat.le_refl _, Nat.le_refl _, Nat.le_refl _⟩

/-- A zone contains what a zone inside it contains. -/
theorem containsZone_trans {outer z inner : Zone} (around : outer.containsZone z = true)
    (within : z.containsZone inner = true) : outer.containsZone inner = true := by
  obtain ⟨sheets, top, bottom, left, right⟩ := containsZone_iff.mp around
  obtain ⟨sheets', top', bottom', left', right'⟩ := containsZone_iff.mp within
  exact containsZone_iff.mpr ⟨sheets'.trans sheets, Nat.le_trans top top', Nat.le_trans bottom' bottom,
    Nat.le_trans left left', Nat.le_trans right' right⟩

/-- A zone contains another one if it contains all of its positions. -/
theorem containsZone_of_contains {outer inner : Zone}
    (all : ∀ p, inner.contains p = true → outer.contains p = true) :
    outer.containsZone inner = true := by
  have first := contains_iff.mp (all inner.topLeft inner.contains_topLeft)
  have last := contains_iff.mp (all ⟨inner.sheet, inner.bottom, inner.right⟩ (contains_iff.mpr
    ⟨rfl, inner.top_le_bottom, Nat.le_refl _, inner.left_le_right, Nat.le_refl _⟩))
  exact containsZone_iff.mpr ⟨first.1, first.2.1, last.2.2.1, first.2.2.2.1, last.2.2.2.2⟩

end Zone

end Spreadsheet
