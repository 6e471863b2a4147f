import Spreadsheet.Proofs.Address.Zones
import Spreadsheet.Recalculation.Dependencies

/-!
# The two indexes of dependencies

What a formula reads is kept three times: as its list of zones, under the single cells it reads and
in the list of larger zones of a sheet. Whatever is recorded or removed, the indexes hold exactly
the zones of the lists, so the readers of a position are the formulas with a zone around it.
-/
namespace Spreadsheet

namespace Dependencies

variable {d : Dependencies} {p q reader : Position} {zone z : Zone} {id : SheetId}

/-- The formulas entered under a single cell. -/
def atCell (d : Dependencies) (p : Position) : PositionSet := (d.cellReaders[p]?).getD ∅

/-- The larger zones entered under a sheet, each with its formula. -/
def onSheet (d : Dependencies) (id : SheetId) : List (Zone × Position) :=
  (d.rangeReaders[id]?).getD []

/-- The indexes hold exactly the zones of the lists. -/
structure Indexed (d : Dependencies) : Prop where
  atCell_iff : ∀ p reader,
    reader ∈ d.atCell p ↔ ∃ zone ∈ d.zonesOf reader, zone.isSingle = true ∧ zone.topLeft = p
  onSheet_iff : ∀ id zone reader,
    (zone, reader) ∈ d.onSheet id ↔
      zone ∈ d.zonesOf reader ∧ zone.isSingle = false ∧ zone.sheet = id

/-- Entering a zone adds its formula under its cell if it has one. -/
theorem mem_atCell_index :
    q ∈ (d.index reader zone).atCell p ↔
      q ∈ d.atCell p ∨ (zone.isSingle = true ∧ zone.topLeft = p) ∧ q = reader := by
  by_cases alone : zone.isSingle = true
  · by_cases here : zone.topLeft = p
    · subst here
      rw [or_comm, eq_comm (a := q)]
      simp [index, atCell, alone]
    · simp [index, atCell, alone, here, Std.ExtTreeMap.getElem?_insert]
  · simp [index, atCell, alone]

/-- Entering a zone adds it to the list of its sheet if it is larger than a cell. -/
theorem mem_onSheet_index :
    (z, q) ∈ (d.index reader zone).onSheet id ↔
      (z, q) ∈ d.onSheet id ∨ (zone.isSingle = false ∧ zone.sheet = id) ∧ z = zone ∧ q = reader := by
  by_cases alone : zone.isSingle = true
  · simp [index, onSheet, alone]
  · by_cases here : zone.sheet = id
    · subst here
      simp [index, onSheet, alone]
    · simp [index, onSheet, alone, here, Std.ExtTreeMap.getElem?_insert]

/-- Taking a zone out removes its formula under its cell. -/
theorem mem_atCell_unindex :
    q ∈ (d.unindex reader zone).atCell p ↔
      q ∈ d.atCell p ∧ ¬ ((zone.isSingle = true ∧ zone.topLeft = p) ∧ q = reader) := by
  by_cases alone : zone.isSingle = true
  · by_cases here : zone.topLeft = p
    · subst here
      have members : q ∈ (d.unindex reader zone).atCell zone.topLeft ↔
          q ∈ (d.atCell zone.topLeft).erase reader := by
        simp only [unindex, atCell, alone, ↓reduceIte]
        split
        · rename_i empty
          simp [Std.ExtTreeSet.isEmpty_iff.mp empty]
        · simp
      rw [members, PositionSet.mem_erase]
      simp [alone, and_comm]
    · simp only [unindex, atCell, alone, ↓reduceIte, here, and_false, false_and, not_false_eq_true,
        and_true]
      split <;> simp [here, Std.ExtTreeMap.getElem?_insert, Std.ExtTreeMap.getElem?_erase]
  · simp [unindex, atCell, alone]

/-- Taking a zone out removes its entries from the list of its sheet. -/
theorem mem_onSheet_unindex :
    (z, q) ∈ (d.unindex reader zone).onSheet id ↔
      (z, q) ∈ d.onSheet id ∧
        ¬ ((zone.isSingle = false ∧ zone.sheet = id) ∧ z = zone ∧ q = reader) := by
  by_cases alone : zone.isSingle = true
  · simp [unindex, onSheet, alone]
  · by_cases here : zone.sheet = id
    · subst here
      have members : (z, q) ∈ (d.unindex reader zone).onSheet zone.sheet ↔
          (z, q) ∈ (d.onSheet zone.sheet).filter fun entry => entry != (zone, reader) := by
        simp only [unindex, onSheet, alone, Bool.false_eq_true, ↓reduceIte]
        split
        · rename_i empty
          simp [List.isEmpty_iff.mp empty]
        · simp
      rw [members, List.mem_filter]
      simp [alone]
    · simp only [unindex, onSheet, alone, Bool.false_eq_true, ↓reduceIte, here, and_false,
        false_and, not_false_eq_true, and_true]
      split <;> simp [here, Std.ExtTreeMap.getElem?_insert, Std.ExtTreeMap.getElem?_erase]

/-- The lists do not change when the indexes do. -/
@[simp] theorem precedents_index : (d.index reader zone).precedents = d.precedents := by
  unfold index
  split <;> rfl

/-- Entering several zones leaves the lists as they are. -/
theorem precedents_foldl_index (zones : List Zone) (d : Dependencies) :
    (zones.foldl (fun d zone => d.index reader zone) d).precedents = d.precedents := by
  induction zones generalizing d with
  | nil => rfl
  | cons zone rest ih => simp [ih]

/-- Entering several zones adds their formula under each single cell among them. -/
theorem mem_atCell_foldl_index (p q reader : Position) (zones : List Zone) (d : Dependencies) :
    q ∈ (zones.foldl (fun d zone => d.index reader zone) d).atCell p ↔
      q ∈ d.atCell p ∨ (∃ zone ∈ zones, zone.isSingle = true ∧ zone.topLeft = p) ∧ q = reader := by
  induction zones generalizing d with
  | nil => simp
  | cons zone rest ih =>
    rw [List.foldl_cons, ih, mem_atCell_index]
    simp only [List.mem_cons, exists_eq_or_imp]
    grind

/-- Entering several zones adds the larger ones to the lists of their sheets. -/
theorem mem_onSheet_foldl_index (id : SheetId) (z : Zone) (q reader : Position) (zones : List Zone)
    (d : Dependencies) :
    (z, q) ∈ (zones.foldl (fun d zone => d.index reader zone) d).onSheet id ↔
      (z, q) ∈ d.onSheet id ∨ (z ∈ zones ∧ z.isSingle = false ∧ z.sheet = id) ∧ q = reader := by
  induction zones generalizing d with
  | nil => simp
  | cons zone rest ih =>
    rw [List.foldl_cons, ih, mem_onSheet_index]
    constructor
    · rintro ((old | ⟨⟨larger, here⟩, rfl, rfl⟩) | ⟨⟨member, facts⟩, same⟩)
      · exact .inl old
      · exact .inr ⟨⟨List.mem_cons_self, larger, here⟩, rfl⟩
      · exact .inr ⟨⟨List.mem_cons_of_mem _ member, facts⟩, same⟩
    · rintro (old | ⟨⟨member, larger, here⟩, same⟩)
      · exact .inl (.inl old)
      · rcases List.mem_cons.mp member with rfl | later
        · exact .inl (.inr ⟨⟨larger, here⟩, rfl, same⟩)
        · exact .inr ⟨⟨later, larger, here⟩, same⟩

/-- Taking several zones out removes their formula under each single cell among them. -/
theorem mem_atCell_foldl_unindex (p q reader : Position) (zones : List Zone) (d : Dependencies) :
    q ∈ (zones.foldl (fun d zone => d.unindex reader zone) d).atCell p ↔
      q ∈ d.atCell p ∧
        ¬ ((∃ zone ∈ zones, zone.isSingle = true ∧ zone.topLeft = p) ∧ q = reader) := by
  induction zones generalizing d with
  | nil => simp
  | cons zone rest ih =>
    rw [List.foldl_cons, ih, mem_atCell_unindex]
    simp only [List.mem_cons, exists_eq_or_imp]
    grind

/-- Taking several zones out removes them from the lists of their sheets. -/
theorem mem_onSheet_foldl_unindex (id : SheetId) (z : Zone) (q reader : Position) (zones : List Zone)
    (d : Dependencies) :
    (z, q) ∈ (zones.foldl (fun d zone => d.unindex reader zone) d).onSheet id ↔
      (z, q) ∈ d.onSheet id ∧
        ¬ ((z ∈ zones ∧ z.isSingle = false ∧ z.sheet = id) ∧ q = reader) := by
  induction zones generalizing d with
  | nil => simp
  | cons zone rest ih =>
    rw [List.foldl_cons, ih, mem_onSheet_unindex]
    constructor
    · rintro ⟨⟨old, first⟩, later⟩
      refine ⟨old, ?_⟩
      rintro ⟨⟨member, larger, here⟩, same⟩
      rcases List.mem_cons.mp member with rfl | inRest
      · exact first ⟨⟨larger, here⟩, rfl, same⟩
      · exact later ⟨⟨inRest, larger, here⟩, same⟩
    · rintro ⟨old, none⟩
      refine ⟨⟨old, ?_⟩, ?_⟩
      · rintro ⟨⟨larger, here⟩, rfl, same⟩
        exact none ⟨⟨List.mem_cons_self, larger, here⟩, same⟩
      · rintro ⟨⟨member, facts⟩, same⟩
        exact none ⟨⟨List.mem_cons_of_mem _ member, facts⟩, same⟩

/-- A formula whose dependencies are removed reads nothing; the others read what they did. -/
theorem zonesOf_remove (d : Dependencies) (reader p : Position) :
    (d.remove reader).zonesOf p = if p = reader then [] else d.zonesOf p := by
  simp only [zonesOf, remove, Std.ExtTreeMap.getElem?_erase, Std.LawfulEqOrd.compare_eq_iff_eq]
  by_cases same : p = reader
  · simp [same]
  · simp [same, Ne.symm same]

/-- A formula whose dependencies are recorded reads the given zones in order; the others read what
they did. -/
theorem zonesOf_record (d : Dependencies) (reader p : Position) (zones : List Zone) :
    (d.record reader zones).zonesOf p = if p = reader then sortedZones zones else d.zonesOf p := by
  have others := zonesOf_remove d reader p
  simp only [record]
  split
  · rename_i empty
    simp only [zonesOf, precedents_foldl_index] at others ⊢
    rw [others, List.isEmpty_iff.mp empty]
  · simp only [zonesOf, precedents_foldl_index, Std.ExtTreeMap.getElem?_insert,
      Std.LawfulEqOrd.compare_eq_iff_eq] at others ⊢
    by_cases same : p = reader
    · simp [same]
    · rw [if_neg (Ne.symm same), others, if_neg same, if_neg same]

/-- Where nothing is recorded the indexes are right. -/
theorem indexed_empty : empty.Indexed where
  atCell_iff p reader := by simp [atCell, empty, zonesOf]
  onSheet_iff id zone reader := by simp [onSheet, empty, zonesOf]

/-- Removing the dependencies of a formula keeps the indexes right. -/
theorem Indexed.remove (indexed : d.Indexed) (reader : Position) : (d.remove reader).Indexed where
  atCell_iff p q := by
    have members := mem_atCell_foldl_unindex p q reader (d.zonesOf reader) d
    rw [zonesOf_remove]
    refine members.trans ?_
    rw [indexed.atCell_iff]
    by_cases same : q = reader
    · subst same
      simp
    · simp [same]
  onSheet_iff id zone q := by
    have members := mem_onSheet_foldl_unindex id zone q reader (d.zonesOf reader) d
    rw [zonesOf_remove]
    refine members.trans ?_
    rw [indexed.onSheet_iff]
    by_cases same : q = reader
    · subst same
      simp
    · simp [same]

/-- The cells under which formulas are entered after a record. -/
theorem mem_atCell_record (d : Dependencies) (zones : List Zone) :
    q ∈ (d.record reader zones).atCell p ↔
      q ∈ (d.remove reader).atCell p ∨
        (∃ zone ∈ zones, zone.isSingle = true ∧ zone.topLeft = p) ∧ q = reader := by
  have members := mem_atCell_foldl_index p q reader (sortedZones zones) (d.remove reader)
  simp only [mem_sortedZones] at members
  rw [← members]
  simp only [record]
  split <;> rfl

/-- The larger zones on a sheet after a record. -/
theorem mem_onSheet_record (d : Dependencies) (zones : List Zone) :
    (z, q) ∈ (d.record reader zones).onSheet id ↔
      (z, q) ∈ (d.remove reader).onSheet id ∨
        (z ∈ zones ∧ z.isSingle = false ∧ z.sheet = id) ∧ q = reader := by
  have members := mem_onSheet_foldl_index id z q reader (sortedZones zones)
    (d.remove reader)
  simp only [mem_sortedZones] at members
  rw [← members]
  simp only [record]
  split <;> rfl

/-- Recording the dependencies of a formula keeps the indexes right. -/
theorem Indexed.record (indexed : d.Indexed) (reader : Position) (zones : List Zone) :
    (d.record reader zones).Indexed where
  atCell_iff p q := by
    rw [mem_atCell_record, (indexed.remove reader).atCell_iff, zonesOf_record, zonesOf_remove]
    by_cases same : q = reader
    · subst same
      simp
    · simp [same]
  onSheet_iff id zone q := by
    rw [mem_onSheet_record, (indexed.remove reader).onSheet_iff, zonesOf_record, zonesOf_remove]
    by_cases same : q = reader
    · subst same
      simp
    · simp [same]

/-- The readers of a position are the formulas with a zone around it. -/
theorem Indexed.mem_readersOf (indexed : d.Indexed) :
    reader ∈ d.readersOf p ↔ ∃ zone ∈ d.zonesOf reader, zone.contains p = true := by
  have singles : reader ∈ ((d.cellReaders[p]?).getD ∅).toList ↔
      ∃ zone ∈ d.zonesOf reader, zone.isSingle = true ∧ zone.topLeft = p := by
    rw [Std.ExtTreeSet.mem_toList]
    exact indexed.atCell_iff p reader
  have ranges : (∃ entry ∈ (d.rangeReaders[p.sheet]?).getD [],
        (if entry.1.contains p = true then some entry.2 else none) = some reader) ↔
      ∃ zone ∈ d.zonesOf reader, zone.isSingle = false ∧ zone.contains p = true := by
    constructor
    · rintro ⟨⟨zone, other⟩, member, found⟩
      split at found
      · rename_i around
        obtain rfl := Option.some.inj found
        obtain ⟨read, larger, here⟩ := (indexed.onSheet_iff p.sheet zone other).mp member
        exact ⟨zone, read, larger, around⟩
      · contradiction
    · rintro ⟨zone, read, larger, around⟩
      have here : zone.sheet = p.sheet := (Zone.contains_iff.mp around).1.symm
      exact ⟨(zone, reader), (indexed.onSheet_iff p.sheet zone reader).mpr ⟨read, larger, here⟩,
        if_pos around⟩
  simp only [readersOf, mem_sortedPositions, List.mem_append, singles, List.mem_filterMap, ranges]
  constructor
  · rintro (⟨zone, read, alone, rfl⟩ | ⟨zone, read, _, around⟩)
    · exact ⟨zone, read, zone.contains_topLeft⟩
    · exact ⟨zone, read, around⟩
  · rintro ⟨zone, read, around⟩
    cases alone : zone.isSingle with
    | true => exact .inl ⟨zone, read, alone, ((Zone.contains_of_isSingle alone).mp around).symm⟩
    | false => exact .inr ⟨zone, read, alone, around⟩

/-- Formulas that read the same zones give every position the same readers. -/
theorem Indexed.readersOf_congr {other : Dependencies} (indexed : d.Indexed)
    (otherIndexed : other.Indexed) (same : ∀ reader, d.zonesOf reader = other.zonesOf reader)
    (p : Position) : d.readersOf p = other.readersOf p := by
  have members : ∀ reader, reader ∈ d.readersOf p ↔ reader ∈ other.readersOf p := fun reader => by
    rw [indexed.mem_readersOf, otherIndexed.mem_readersOf, same]
  unfold readersOf at members ⊢
  simp only [mem_sortedPositions] at members
  exact sortedPositions_congr members

end Dependencies

end Spreadsheet
