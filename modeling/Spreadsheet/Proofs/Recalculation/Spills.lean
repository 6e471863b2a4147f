import Spreadsheet.Proofs.Address.Zones
import Spreadsheet.Recalculation.Spills

/-!
# Owners and records of spilled arrays

Every position that leads to an anchor lies in the zone the anchor has claimed, and every claimed
zone starts at its anchor. Within a round a formula that was typed into the zone of another anchor
may claim before that anchor is evaluated again; until then the other anchor is exempt from owning
the positions that hold content. With no anchor exempt, zones are owned whole and are disjoint.
-/
namespace Spreadsheet

/-- The position at which a claim meets something, unless that is a border of the sheet. -/
def Collision.found? : Collision → Option Position
  | .bounds _ _ => none
  | .content found => some found
  | .spill found _ => some found

namespace Spills

variable {s : Spills} {a b q : Position} {zone : Zone} {values : Grid Value}
  {formats : Grid (Option String)} {content : Position → Bool} {exempt : Position → Prop}

/-- Positions lead to anchors whose zones hold them, and zones start at their anchors. -/
structure Sound (s : Spills) : Prop where
  covered : ∀ q a, s.owner? q = some a → ∃ zone, s.activeZone? a = some zone ∧ zone.contains q = true
  anchored : ∀ a zone, s.activeZone? a = some zone → zone.topLeft = a

/-- A claimed zone holds its anchor. -/
theorem Sound.contains_anchor (sound : s.Sound) (active : s.activeZone? a = some zone) :
    zone.contains a = true := by
  rw [← sound.anchored a zone active]
  exact zone.contains_topLeft

/-- A claimed zone lies on the sheet of its anchor. -/
theorem Sound.sheet_eq (sound : s.Sound) (active : s.activeZone? a = some zone) :
    zone.sheet = a.sheet := by
  rw [← sound.anchored a zone active]
  rfl

/-- The zone of an anchor is that of its state. -/
theorem activeZone?_eq_some_iff :
    s.activeZone? a = some zone ↔
      ∃ values formats, s.state? a = some (.spilled zone values formats) := by
  unfold activeZone?
  cases s.state? a with
  | none => simp
  | some state => cases state <;> simp [SpillState.zone?]

/-- An anchor is blocked if its state has the candidate zone. -/
theorem state?_eq_blocked_iff :
    s.state? a = some (.blocked zone) ↔
      (s.state? a).bind SpillState.candidate? = some zone := by
  cases s.state? a with
  | none => simp
  | some state => cases state <;> simp [SpillState.candidate?]

/-! ### Release -/

/-- Releasing an array forgets the state of its anchor only. -/
theorem state?_release (s : Spills) (a b : Position) :
    (s.release a).state? b = if b = a then none else s.state? b := by
  simp only [state?, release, Std.ExtTreeMap.getElem?_erase, Std.LawfulEqOrd.compare_eq_iff_eq,
    eq_comm (a := a)]

/-- Releasing an array gives up the zone of its anchor only. -/
theorem activeZone?_release (s : Spills) (a b : Position) :
    (s.release a).activeZone? b = if b = a then none else s.activeZone? b := by
  simp only [activeZone?, state?_release]
  split <;> rfl

/-- Erasing the owners of several positions where they are a given anchor. -/
theorem getElem?_foldl_erase (a q : Position) (positions : List Position)
    (owners : PositionMap Position) :
    (positions.foldl
        (fun owners p => if owners[p]? = some a then owners.erase p else owners) owners)[q]? =
      if q ∈ positions ∧ owners[q]? = some a then none else owners[q]? := by
  induction positions generalizing owners with
  | nil => simp
  | cons p rest ih =>
    rw [List.foldl_cons, ih]
    by_cases owned : owners[p]? = some a
    · rw [if_pos owned]
      by_cases same : p = q
      · subst same
        simp [owned]
      · simp [Std.ExtTreeMap.getElem?_erase, same, Ne.symm same]
    · rw [if_neg owned]
      by_cases same : q = p
      · subst same
        simp [owned]
      · simp [same]

/-- Released positions lead nowhere, the others where they did. -/
theorem Sound.owner?_release (sound : s.Sound) (a q : Position) :
    (s.release a).owner? q = if s.owner? q = some a then none else s.owner? q := by
  cases active : s.activeZone? a with
  | none =>
    have unowned : s.owner? q ≠ some a := fun owned => by
      obtain ⟨zone, found, _⟩ := sound.covered q a owned
      rw [active] at found
      contradiction
    rw [if_neg unowned]
    simp [owner?, release, active]
  | some zone =>
    simp only [owner?, release, active, getElem?_foldl_erase, Zone.mem_positions]
    by_cases owned : s.owners[q]? = some a
    · obtain ⟨found, same, inside⟩ := sound.covered q a owned
      obtain rfl := Option.some.inj (active.symm.trans same)
      simp [owned, inside]
    · simp [owned]

/-- Releasing an array keeps owners and records in step. -/
theorem Sound.release (sound : s.Sound) (a : Position) : (s.release a).Sound where
  covered q b owned := by
    rw [sound.owner?_release] at owned
    split at owned
    · contradiction
    · rename_i other
      obtain ⟨zone, active, inside⟩ := sound.covered q b owned
      have different : b ≠ a := fun same => other (same ▸ owned)
      exact ⟨zone, by rw [activeZone?_release, if_neg different, active], inside⟩
  anchored b zone active := by
    rw [activeZone?_release] at active
    split at active
    · contradiction
    · exact sound.anchored b zone active

/-! ### Claim -/

/-- A claim gives its anchor a state and leaves the others as they are. -/
theorem state?_claim (s : Spills) (a b : Position) (zone : Zone) (values : Grid Value)
    (formats : Grid (Option String)) :
    (s.claim a zone values formats).state? b =
      if b = a then some (.spilled zone values formats) else s.state? b := by
  have released := state?_release s a b
  simp only [state?, claim, Std.ExtTreeMap.getElem?_insert,
    Std.LawfulEqOrd.compare_eq_iff_eq] at released ⊢
  by_cases same : b = a
  · simp [same]
  · rw [if_neg (Ne.symm same), released, if_neg same, if_neg same]

/-- A claim gives its anchor the zone and leaves the others as they are. -/
theorem activeZone?_claim (s : Spills) (a b : Position) (zone : Zone) (values : Grid Value)
    (formats : Grid (Option String)) :
    (s.claim a zone values formats).activeZone? b =
      if b = a then some zone else s.activeZone? b := by
  simp only [activeZone?, state?_claim]
  split <;> rfl

/-- Entering one owner for several positions. -/
theorem getElem?_foldl_insert (a q : Position) (positions : List Position)
    (owners : PositionMap Position) :
    (positions.foldl (fun owners p => owners.insert p a) owners)[q]? =
      if q ∈ positions then some a else owners[q]? := by
  induction positions generalizing owners with
  | nil => simp
  | cons p rest ih =>
    rw [List.foldl_cons, ih, Std.ExtTreeMap.getElem?_insert]
    by_cases same : p = q
    · simp [same]
    · simp [same, Ne.symm same]

/-- The positions of a claimed zone lead to its anchor, what the anchor held before and does not
hold now leads nowhere. -/
theorem Sound.owner?_claim (sound : s.Sound) (a q : Position) (zone : Zone) (values : Grid Value)
    (formats : Grid (Option String)) :
    (s.claim a zone values formats).owner? q =
      if zone.contains q = true then some a
      else if s.owner? q = some a then none else s.owner? q := by
  have released := sound.owner?_release a q
  simp only [owner?, claim, getElem?_foldl_insert, Zone.mem_positions] at released ⊢
  rw [released]

/-- A claim of a zone that starts at its anchor keeps owners and records in step. -/
theorem Sound.claim (sound : s.Sound) (start : zone.topLeft = a) :
    (s.claim a zone values formats).Sound where
  covered q b owned := by
    rw [sound.owner?_claim] at owned
    split at owned
    · rename_i inside
      obtain rfl := Option.some.inj owned
      exact ⟨zone, by rw [activeZone?_claim, if_pos rfl], inside⟩
    · split at owned
      · contradiction
      · rename_i other
        obtain ⟨found, active, inside⟩ := sound.covered q b owned
        have different : b ≠ a := fun same => other (same ▸ owned)
        exact ⟨found, by rw [activeZone?_claim, if_neg different, active], inside⟩
  anchored b found active := by
    rw [activeZone?_claim] at active
    split at active
    · rename_i same
      obtain rfl := Option.some.inj active
      rw [start, same]
    · exact sound.anchored b found active

/-! ### Block -/

/-- A failed claim gives its anchor a state and leaves the others as they are. -/
theorem state?_block (s : Spills) (a b : Position) (candidate : Zone) :
    (s.block a candidate).state? b = if b = a then some (.blocked candidate) else s.state? b := by
  have released := state?_release s a b
  simp only [state?, block, Std.ExtTreeMap.getElem?_insert,
    Std.LawfulEqOrd.compare_eq_iff_eq] at released ⊢
  by_cases same : b = a
  · simp [same]
  · rw [if_neg (Ne.symm same), released, if_neg same, if_neg same]

/-- A failed claim leaves its anchor without a zone. -/
theorem activeZone?_block (s : Spills) (a b : Position) (candidate : Zone) :
    (s.block a candidate).activeZone? b = if b = a then none else s.activeZone? b := by
  simp only [activeZone?, state?_block]
  split <;> rfl

/-- A failed claim gives up the positions of its anchor as a release does. -/
theorem owner?_block (s : Spills) (a q : Position) (candidate : Zone) :
    (s.block a candidate).owner? q = (s.release a).owner? q := rfl

/-- A failed claim keeps owners and records in step. -/
theorem Sound.block (sound : s.Sound) (a : Position) (candidate : Zone) :
    (s.block a candidate).Sound where
  covered q b owned := by
    obtain ⟨zone, active, inside⟩ := (sound.release a).covered q b owned
    rw [activeZone?_release] at active
    exact ⟨zone, by rwa [activeZone?_block], inside⟩
  anchored b zone active := by
    rw [activeZone?_block, ← activeZone?_release] at active
    exact (sound.release a).anchored b zone active

/-! ### Sheets -/

/-- Clearing a sheet forgets the states of its anchors. -/
theorem state?_clearSheet (s : Spills) (id : SheetId) (a : Position) :
    (s.clearSheet id).state? a = if a.sheet = id then none else s.state? a := by
  simp only [state?, clearSheet, Std.ExtTreeMap.getElem?_filter', Option.filter]
  cases s.records[a]? with
  | none => simp
  | some state => by_cases here : a.sheet = id <;> simp [here]

/-- Clearing a sheet gives up the zones of its anchors. -/
theorem activeZone?_clearSheet (s : Spills) (id : SheetId) (a : Position) :
    (s.clearSheet id).activeZone? a = if a.sheet = id then none else s.activeZone? a := by
  simp only [activeZone?, state?_clearSheet]
  split <;> rfl

/-- Clearing a sheet gives up its positions. -/
theorem owner?_clearSheet (s : Spills) (id : SheetId) (q : Position) :
    (s.clearSheet id).owner? q = if q.sheet = id then none else s.owner? q := by
  simp only [owner?, clearSheet, Std.ExtTreeMap.getElem?_filter', Option.filter]
  cases s.owners[q]? with
  | none => simp
  | some owner => by_cases here : q.sheet = id <;> simp [here]

/-- Clearing a sheet keeps owners and records in step. -/
theorem Sound.clearSheet (sound : s.Sound) (id : SheetId) : (s.clearSheet id).Sound where
  covered q a owned := by
    rw [owner?_clearSheet] at owned
    split at owned
    · contradiction
    · rename_i elsewhere
      obtain ⟨zone, active, inside⟩ := sound.covered q a owned
      have sheets : a.sheet = q.sheet := by
        rw [← sound.sheet_eq active, (Zone.contains_iff.mp inside).1]
      exact ⟨zone, by rw [activeZone?_clearSheet, sheets, if_neg elsewhere, active], inside⟩
  anchored a zone active := by
    rw [activeZone?_clearSheet] at active
    split at active
    · contradiction
    · exact sound.anchored a zone active

/-- Where nothing is spilled no anchor has a state. -/
@[simp] theorem state?_empty (a : Position) : empty.state? a = none := by
  simp [state?, empty]

/-- Where nothing is spilled no anchor has a zone. -/
@[simp] theorem activeZone?_empty (a : Position) : empty.activeZone? a = none := by
  simp [activeZone?]

/-- Where nothing is spilled no position leads anywhere. -/
@[simp] theorem owner?_empty (q : Position) : empty.owner? q = none := by
  simp [owner?, empty]

/-- Where nothing is spilled owners and records are in step. -/
theorem sound_empty : empty.Sound where
  covered q a owned := by simp at owned
  anchored a zone active := by simp at active

/-- The anchors blocked around a position are those whose candidate zone holds it. -/
theorem mem_blockedAround :
    a ∈ s.blockedAround q ↔
      ∃ candidate, s.state? a = some (.blocked candidate) ∧ candidate.contains q = true := by
  simp only [blockedAround, List.mem_filterMap, Prod.exists,
    Std.ExtTreeMap.mem_toList_iff_getElem?_eq_some, state?]
  constructor
  · rintro ⟨anchor, state, found, listed⟩
    split at listed
    · rename_i around
      obtain rfl := Option.some.inj listed
      cases state with
      | spilled zone values formats => simp [SpillState.candidate?] at around
      | blocked candidate => exact ⟨candidate, found, by simpa [SpillState.candidate?] using around⟩
    · contradiction
  · rintro ⟨candidate, found, around⟩
    exact ⟨a, .blocked candidate, found, by simp [SpillState.candidate?, around]⟩

/-! ### Claims that are free -/

/-- Nothing is in the way of a claim at a position if it is the anchor, or if it is without content
and not held by another anchor. -/
theorem obstacle?_eq_none_iff :
    s.obstacle? content a q = none ↔
      (q ≠ a → content q = false ∧ (s.owner? q = none ∨ s.owner? q = some a)) := by
  unfold obstacle?
  by_cases same : q = a
  · simp [same]
  · by_cases filled : content q = true
    · simp [same, filled]
    · cases owned : s.owner? q with
      | none => simp [same, filled]
      | some owner => by_cases own : owner = a <;> simp [same, filled, own]

/-- A claim succeeds when its zone lies on the sheet and every position of it other than the anchor
is without content and not held by another anchor. -/
theorem checkClaim_eq_ok_iff {rows columns sheetRows sheetColumns : Nat} :
    s.checkClaim a rows columns sheetRows sheetColumns content = .ok zone ↔
      zone = .fromAnchor a rows columns ∧ zone.bottom < sheetRows ∧ zone.right < sheetColumns ∧
        ∀ q, zone.contains q = true → q ≠ a →
          content q = false ∧ (s.owner? q = none ∨ s.owner? q = some a) := by
  simp only [checkClaim]
  constructor
  · intro claimed
    split at claimed
    · contradiction
    · rename_i fits
      split at claimed
      · contradiction
      · rename_i unobstructed
        obtain rfl := Except.ok.inj claimed
        simp only [Bool.or_eq_true, decide_eq_true_eq, not_or, Nat.not_le] at fits
        refine ⟨rfl, fits.1, fits.2, fun q inside => obstacle?_eq_none_iff.mp ?_⟩
        exact List.findSome?_eq_none_iff.mp unobstructed q (Zone.mem_positions.mpr inside)
  · rintro ⟨rfl, below, beside, clear⟩
    rw [if_neg (by simp only [Bool.or_eq_true, decide_eq_true_eq]; omega)]
    have unobstructed : (Zone.fromAnchor a rows columns).positions.findSome?
        (s.obstacle? content a) = none :=
      List.findSome?_eq_none_iff.mpr fun q listed =>
        obstacle?_eq_none_iff.mpr (clear q (Zone.mem_positions.mp listed))
    rw [unobstructed]

/-- What a claim meets is in the way of its zone: a border of the sheet, or a position other than the
anchor that holds content or that another anchor owns. -/
inductive InTheWay (s : Spills) (content : Position → Bool) (a : Position) (zone : Zone)
    (sheetRows sheetColumns : Nat) : Collision → Prop where
  | bounds {below beside : Bool} (outside : sheetRows ≤ zone.bottom ∨ sheetColumns ≤ zone.right) :
    InTheWay s content a zone sheetRows sheetColumns (.bounds below beside)
  | content {q : Position} (inside : zone.contains q = true) (other : q ≠ a)
    (filled : content q = true) : InTheWay s content a zone sheetRows sheetColumns (.content q)
  | spill {q owner : Position} (inside : zone.contains q = true) (other : q ≠ a)
    (owned : s.owner? q = some owner) (foreign : owner ≠ a) :
    InTheWay s content a zone sheetRows sheetColumns (.spill q owner)

/-- A claim that fails meets something in its way. -/
theorem inTheWay_of_checkClaim {rows columns sheetRows sheetColumns : Nat} {collision : Collision}
    (failed : s.checkClaim a rows columns sheetRows sheetColumns content = .error collision) :
    s.InTheWay content a (.fromAnchor a rows columns) sheetRows sheetColumns collision := by
  simp only [checkClaim] at failed
  split at failed
  · rename_i outside
    obtain rfl := Except.error.inj failed
    simp only [Bool.or_eq_true, decide_eq_true_eq] at outside
    exact .bounds outside
  · split at failed
    · rename_i found met
      obtain rfl := Except.error.inj failed
      obtain ⟨q, listed, obstacle⟩ := List.exists_of_findSome?_eq_some met
      have inside := Zone.mem_positions.mp listed
      unfold obstacle? at obstacle
      split at obstacle
      · contradiction
      · rename_i other
        split at obstacle
        · rename_i filled
          obtain rfl := Option.some.inj obstacle
          exact .content inside other filled
        · split at obstacle
          · rename_i owner owned
            split at obstacle
            · contradiction
            · rename_i foreign
              obtain rfl := Option.some.inj obstacle
              exact .spill inside other owned foreign
          · contradiction
    · contradiction

/-- What is in the way of a claim at a position is found there. -/
theorem found?_of_obstacle? {collision : Collision}
    (met : s.obstacle? content a q = some collision) : collision.found? = some q := by
  unfold obstacle? at met
  split at met
  · contradiction
  · split at met
    · obtain rfl := Option.some.inj met
      rfl
    · split at met
      · split at met
        · contradiction
        · obtain rfl := Option.some.inj met
          rfl
      · contradiction

/-- A position where a claim meets something lies in its zone, and it holds content or another anchor
owns it. -/
theorem InTheWay.occupied {sheetRows sheetColumns : Nat} {collision : Collision}
    (met : s.InTheWay content a zone sheetRows sheetColumns collision)
    (found : collision.found? = some q) :
    zone.contains q = true ∧ q ≠ a ∧
      (content q = true ∨ ∃ b, s.owner? q = some b ∧ b ≠ a) := by
  cases met with
  | bounds => contradiction
  | content inside other filled =>
    obtain rfl := Option.some.inj found
    exact ⟨inside, other, .inl filled⟩
  | spill inside other owned foreign =>
    obtain rfl := Option.some.inj found
    exact ⟨inside, other, .inr ⟨_, owned, foreign⟩⟩

/-- Nothing is in the way of a claim before the position where it meets something, row by row. -/
theorem free_of_checkClaim {rows columns sheetRows sheetColumns : Nat} {collision : Collision}
    {u : Position}
    (failed : s.checkClaim a rows columns sheetRows sheetColumns content = .error collision)
    (found : collision.found? = some q) (inside : (Zone.fromAnchor a rows columns).contains u = true)
    (earlier : u.Precedes q) :
    u ≠ a → content u = false ∧ (s.owner? u = none ∨ s.owner? u = some a) := by
  rw [← obstacle?_eq_none_iff]
  simp only [checkClaim] at failed
  split at failed
  · obtain rfl := Except.error.inj failed
    contradiction
  · split at failed
    · rename_i met
      obtain rfl := Except.error.inj failed
      obtain ⟨before, v, after, split, obstacle, free⟩ := List.findSome?_eq_some_iff.mp met
      obtain rfl := Option.some.inj (found.symm.trans (found?_of_obstacle? obstacle))
      refine free u ?_
      have sorted := (Zone.fromAnchor a rows columns).pairwise_positions
      rw [split, List.pairwise_append, List.pairwise_cons] at sorted
      have listed := Zone.mem_positions.mpr inside
      rw [split, List.mem_append, List.mem_cons] at listed
      rcases listed with first | rfl | later
      · exact first
      · exact absurd earlier earlier.not_symm
      · exact absurd (sorted.2.1.1 u later) earlier.not_symm
    · contradiction

/-! ### Exclusive zones -/

/-- Owners and records are in step, an anchor owns every position of its zone except where content
was typed, and an anchor with content in its zone is exempt: it will be evaluated again. -/
structure Exclusive (s : Spills) (content : Position → Bool) (exempt : Position → Prop) : Prop
    extends s.Sound where
  owned : ∀ a zone q, s.activeZone? a = some zone → zone.contains q = true →
    s.owner? q = some a ∨ q ≠ a ∧ content q = true
  clear : ∀ a zone q, s.activeZone? a = some zone → zone.contains q = true → q ≠ a →
    content q = true → exempt a

/-- More anchors may be exempt. -/
theorem Exclusive.mono {exempt' : Position → Prop} (exclusive : s.Exclusive content exempt)
    (weaker : ∀ a, (s.activeZone? a).isSome → exempt a → exempt' a) :
    s.Exclusive content exempt' where
  toSound := exclusive.toSound
  owned := exclusive.owned
  clear a zone q active inside other filled :=
    weaker a (by rw [active]; rfl) (exclusive.clear a zone q active inside other filled)

/-- An anchor that is not exempt owns its whole zone. -/
theorem Exclusive.owner?_eq (exclusive : s.Exclusive content exempt) (regular : ¬ exempt a)
    (active : s.activeZone? a = some zone) (inside : zone.contains q = true) :
    s.owner? q = some a := by
  rcases exclusive.owned a zone q active inside with owned | ⟨other, filled⟩
  · exact owned
  · exact absurd (exclusive.clear a zone q active inside other filled) regular

/-- Releasing an array keeps zones exclusive. -/
theorem Exclusive.release (exclusive : s.Exclusive content exempt) (a : Position) :
    (s.release a).Exclusive content fun b => exempt b ∧ b ≠ a where
  toSound := exclusive.toSound.release a
  owned b zone q active inside := by
    rw [activeZone?_release] at active
    split at active
    · contradiction
    · rename_i different
      rw [exclusive.toSound.owner?_release]
      rcases exclusive.owned b zone q active inside with owned | filled
      · rw [owned, if_neg (fun same => different (Option.some.inj same))]
        exact .inl rfl
      · exact .inr filled
  clear b zone q active inside other filled := by
    rw [activeZone?_release] at active
    split at active
    · contradiction
    · rename_i different
      exact ⟨exclusive.clear b zone q active inside other filled, different⟩

/-- A failed claim keeps zones exclusive. -/
theorem Exclusive.block (exclusive : s.Exclusive content exempt) (a : Position)
    (candidate : Zone) : (s.block a candidate).Exclusive content fun b => exempt b ∧ b ≠ a where
  toSound := exclusive.toSound.block a candidate
  owned b zone q active := by
    rw [activeZone?_block, ← activeZone?_release] at active
    exact (exclusive.release a).owned b zone q active
  clear b zone q active := by
    rw [activeZone?_block, ← activeZone?_release] at active
    exact (exclusive.release a).clear b zone q active

/-- A successful claim of a formula keeps zones exclusive, and its anchor is not exempt. -/
theorem Exclusive.claim {rows columns sheetRows sheetColumns : Nat}
    (exclusive : s.Exclusive content exempt) (typed : content a = true)
    (free : s.checkClaim a rows columns sheetRows sheetColumns content = .ok zone) :
    (s.claim a zone values formats).Exclusive content fun b => exempt b ∧ b ≠ a := by
  obtain ⟨start, _, _, unobstructed⟩ := checkClaim_eq_ok_iff.mp free
  have starts : zone.topLeft = a := by rw [start]; rfl
  refine ⟨exclusive.toSound.claim starts, ?_, ?_⟩
  · intro b found q active inside
    rw [activeZone?_claim] at active
    rw [exclusive.toSound.owner?_claim]
    split at active
    · rename_i same
      obtain rfl := Option.some.inj active
      exact .inl (by rw [if_pos inside, same])
    · rename_i different
      rcases exclusive.owned b found q active inside with owned | filled
      · by_cases claimed : zone.contains q = true
        · -- Only the cell of the claiming formula itself can lie in the zone of another anchor.
          by_cases here : q = a
          · subst here
            exact .inr ⟨Ne.symm different, typed⟩
          · obtain ⟨_, unowned⟩ := unobstructed q claimed here
            rw [owned] at unowned
            simp [different] at unowned
        · rw [if_neg claimed, owned, if_neg (fun same => different (Option.some.inj same))]
          exact .inl rfl
      · exact .inr filled
  · intro b found q active inside other filled
    rw [activeZone?_claim] at active
    split at active
    · rename_i same
      obtain rfl := Option.some.inj active
      obtain ⟨blank, _⟩ := unobstructed q inside (same ▸ other)
      rw [filled] at blank
      contradiction
    · rename_i different
      exact ⟨exclusive.clear b found q active inside other filled, different⟩

/-- Clearing a sheet keeps zones exclusive. -/
theorem Exclusive.clearSheet (exclusive : s.Exclusive content exempt) (id : SheetId) :
    (s.clearSheet id).Exclusive content fun b => exempt b ∧ b.sheet ≠ id where
  toSound := exclusive.toSound.clearSheet id
  owned b zone q active inside := by
    rw [activeZone?_clearSheet] at active
    split at active
    · contradiction
    · rename_i elsewhere
      have sheets : q.sheet = b.sheet := by
        rw [← exclusive.toSound.sheet_eq active, (Zone.contains_iff.mp inside).1]
      rw [owner?_clearSheet, sheets, if_neg elsewhere]
      exact exclusive.owned b zone q active inside
  clear b zone q active inside other filled := by
    rw [activeZone?_clearSheet] at active
    split at active
    · contradiction
    · rename_i elsewhere
      exact ⟨exclusive.clear b zone q active inside other filled, elsewhere⟩

/-- Where nothing is spilled zones are exclusive. -/
theorem exclusive_empty : empty.Exclusive content exempt where
  toSound := sound_empty
  owned a zone q active := by simp at active
  clear a zone q active := by simp at active

/-! ### What a position shows -/

/-- Two states of all arrays show the same at a position. -/
structure ShowSame (s t : Spills) (q : Position) : Prop where
  value : t.value? q = s.value? q
  format : t.format? q = s.format? q
  active : (t.activeZone? q).isSome = (s.activeZone? q).isSome

/-- A position shows the same if it leads to the same anchor in the same state. -/
theorem ShowSame.of_owner {t : Spills} (owner : t.owner? q = s.owner? q)
    (state : ∀ a, s.owner? q = some a → t.state? a = s.state? a)
    (active : (t.activeZone? q).isSome = (s.activeZone? q).isSome) : s.ShowSame t q where
  active := active
  value := by
    unfold value? published
    rw [owner]
    cases found : s.owner? q with
    | none => rfl
    | some a => simp [state a found]
  format := by
    unfold format? published
    rw [owner]
    cases found : s.owner? q with
    | none => rfl
    | some a => simp [state a found]

/-- A position outside the zone of an anchor does not lead to it. -/
theorem Sound.owner?_ne (sound : s.Sound)
    (outside : ∀ zone, s.activeZone? a = some zone → zone.contains q = false) :
    s.owner? q ≠ some a := fun owned => by
  obtain ⟨zone, active, inside⟩ := sound.covered q a owned
  rw [outside zone active] at inside
  contradiction

/-- A release changes nothing outside the zone it gives up. -/
theorem Sound.showSame_release (sound : s.Sound)
    (outside : ∀ zone, s.activeZone? a = some zone → zone.contains q = false) :
    s.ShowSame (s.release a) q := by
  have unowned := sound.owner?_ne outside
  refine .of_owner ?_ ?_ ?_
  · rw [sound.owner?_release, if_neg unowned]
  · intro b owned
    rw [state?_release, if_neg (fun same : b = a => unowned (same ▸ owned))]
  · rw [activeZone?_release]
    split
    · rename_i same
      subst same
      cases active : s.activeZone? q with
      | none => rfl
      | some zone =>
        have inside := sound.contains_anchor active
        rw [outside zone active] at inside
        contradiction
    · rfl

/-- A failed claim changes nothing outside the zone its anchor gives up. -/
theorem Sound.showSame_block (sound : s.Sound) (candidate : Zone)
    (outside : ∀ zone, s.activeZone? a = some zone → zone.contains q = false) :
    s.ShowSame (s.block a candidate) q := by
  have unowned := sound.owner?_ne outside
  have released := sound.showSame_release outside
  refine .of_owner ?_ ?_ ?_
  · rw [owner?_block, sound.owner?_release, if_neg unowned]
  · intro b owned
    rw [state?_block, if_neg (fun same : b = a => unowned (same ▸ owned))]
  · rw [← released.active, activeZone?_block, activeZone?_release]

/-- Forgetting the arrays of a sheet changes nothing on the others. -/
theorem Sound.showSame_clearSheet (sound : s.Sound) {id : SheetId} (away : q.sheet ≠ id) :
    s.ShowSame (s.clearSheet id) q := by
  refine .of_owner ?_ (fun a owned => ?_) ?_
  · rw [owner?_clearSheet, if_neg away]
  · obtain ⟨zone, active, inside⟩ := sound.covered q a owned
    have sheets := (Zone.contains_iff.mp inside).1.trans (sound.sheet_eq active)
    rw [state?_clearSheet, ← sheets, if_neg away]
  · rw [activeZone?_clearSheet, if_neg away]

/-- A claim changes nothing outside the zone its anchor gives up and the one it takes. -/
theorem Sound.showSame_claim (sound : s.Sound) (starts : zone.topLeft = a)
    (outside : ∀ zone, s.activeZone? a = some zone → zone.contains q = false)
    (beyond : zone.contains q = false) : s.ShowSame (s.claim a zone values formats) q := by
  have unowned := sound.owner?_ne outside
  refine .of_owner ?_ ?_ ?_
  · rw [sound.owner?_claim, if_neg (by simp [beyond]), if_neg unowned]
  · intro b owned
    rw [state?_claim, if_neg (fun same : b = a => unowned (same ▸ owned))]
  · rw [activeZone?_claim]
    split
    · rename_i same
      rw [same, ← starts, zone.contains_topLeft] at beyond
      contradiction
    · rfl

end Spills

end Spreadsheet
