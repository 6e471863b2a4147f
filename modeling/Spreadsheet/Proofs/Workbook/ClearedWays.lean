import Spreadsheet.Proofs.Workbook.SettledRounds

/-!
# Cleared ways

An array whose zone meets that of an anchor whose turn is still to come takes the zone from it and
claims once more. Each time another anchor loses the zone that it really had, so that there are
never more tries than zones at the start, and the fuel of `clearWay` does not run out.
-/
namespace Spreadsheet

namespace Spills

variable {s : Spills} {a : Position} {zone : Zone}

/-- The values of a map are those of its entries. -/
theorem values_eq_map_toList {α : Type} (m : PositionMap α) : m.values = m.toList.map Prod.snd := by
  obtain ⟨⟨m⟩⟩ := m
  induction m using Quotient.inductionOn with
  | h t =>
    show t.inner.values = (Std.DTreeMap.Internal.Impl.Const.toList t.inner).map Prod.snd
    rw [Std.DTreeMap.Internal.Impl.values_eq_map_snd,
      Std.DTreeMap.Internal.Impl.Const.toList_eq_toListModel_map, List.map_map]
    rfl

/-- No entry of a map comes twice. -/
theorem nodup_toList {α : Type} (m : PositionMap α) : m.toList.Nodup :=
  Std.ExtTreeMap.distinct_keys_toList.imp fun {first second} different same => by
    rw [same, Std.LawfulEqOrd.compare_eq_iff_eq] at different
    exact different rfl

/-- The entries of a map are one of them and those left when it is erased. -/
theorem perm_toList_erase {α : Type} {m : PositionMap α} {v : α} (found : m[a]? = some v) :
    m.toList.Perm ((a, v) :: (m.erase a).toList) := by
  have erased : (a, v) ∉ (m.erase a).toList := fun listed => by
    rw [Std.ExtTreeMap.mem_toList_iff_getElem?_eq_some] at listed
    simp at listed
  rw [List.perm_ext_iff_of_nodup (nodup_toList m)
    (List.nodup_cons.mpr ⟨erased, nodup_toList _⟩)]
  rintro ⟨b, v'⟩
  simp only [List.mem_cons, Std.ExtTreeMap.mem_toList_iff_getElem?_eq_some,
    Std.ExtTreeMap.getElem?_erase, Std.LawfulEqOrd.compare_eq_iff_eq]
  by_cases here : a = b
  · subst here
    simp [found, eq_comm]
  · simp [here, Ne.symm here]

/-- With its array an anchor gives up one of the zones. -/
theorem activeCount_release (active : s.activeZone? a = some zone) :
    (s.release a).activeCount + 1 = s.activeCount := by
  obtain ⟨values, formats, found⟩ := activeZone?_eq_some_iff.mp active
  have entries := ((perm_toList_erase found).map Prod.snd).filterMap SpillState.zone?
  unfold activeCount
  rw [values_eq_map_toList, values_eq_map_toList, entries.length_eq]
  rfl

end Spills

namespace Round

variable {r r' : Round} {anchor owner found : Position} {rows columns : Nat}
  {owners : List Position}

/-- A claim meets the zone of an anchor whose turn is still to come. -/
def Meets (r : Round) (anchor : Position) (rows columns : Nat) (owner : Position) : Prop :=
  owner ∈ r.pending ∧ ∃ found, r.claim anchor rows columns = .error (.spill found owner)

/-- On its way to a zone an anchor has taken theirs from other anchors, one after the other. -/
inductive Clears (anchor : Position) (rows columns : Nat) : Round → List Position → Round → Prop
  | nil (r : Round) : Clears anchor rows columns r [] r
  | cons {r r' : Round} {owner : Position} {owners : List Position}
    (meets : r.Meets anchor rows columns owner)
    (rest : Clears anchor rows columns (r.preempt owner) owners r') :
    Clears anchor rows columns r (owner :: owners) r'

/-- What it means for anchors to have lost their zones: they are different ones whose turns are still
to come, each had a zone and has no state now, and there are as many zones fewer. -/
structure Cleared (r : Round) (anchor : Position) (owners : List Position) (r' : Round) : Prop where
  sound : r'.workbook.spills.Sound
  nodup : owners.Nodup
  pending : r'.pending = r.pending
  waits : ∀ owner ∈ owners, owner ∈ r.pending
  foreign : anchor ∉ owners
  active : ∀ owner ∈ owners, ∃ zone values formats,
    r.workbook.spills.state? owner = some (.spilled zone values formats)
  state : ∀ a, r'.workbook.spills.state? a =
    if a ∈ owners then none else r.workbook.spills.state? a
  count : r'.workbook.spills.activeCount + owners.length = r.workbook.spills.activeCount

/-- An anchor that is met has a zone, and it is not the one that claims. -/
theorem Meets.active (sound : r.workbook.spills.Sound)
    (meets : r.Meets anchor rows columns owner) :
    owner ≠ anchor ∧ ∃ zone, r.workbook.spills.activeZone? owner = some zone := by
  obtain ⟨_, found, met⟩ := meets
  cases Spills.inTheWay_of_checkClaim met with
  | spill inside other owned foreign =>
    obtain ⟨zone, active, _⟩ := sound.covered found owner owned
    exact ⟨foreign, zone, active⟩

/-- Only the arrays that are taken away change. -/
theorem spills_preempt (r : Round) (owner : Position) :
    (r.preempt owner).workbook.spills = r.workbook.spills.release owner := by
  rw [workbook_preempt]

/-- Taking the zone of an anchor that is met leaves one zone fewer. -/
theorem Meets.cleared_preempt (sound : r.workbook.spills.Sound)
    (meets : r.Meets anchor rows columns owner) : r.Cleared anchor [owner] (r.preempt owner) := by
  obtain ⟨foreign, zone, active⟩ := meets.active sound
  obtain ⟨values, formats, state⟩ := Spills.activeZone?_eq_some_iff.mp active
  exact
    { sound := by
        rw [spills_preempt]
        exact sound.release owner
      nodup := List.nodup_singleton owner
      pending := r.pending_preempt owner
      waits := by
        simpa using meets.1
      foreign := by
        simpa using Ne.symm foreign
      active := by
        simpa using ⟨zone, values, formats, state⟩
      state := fun a => by
        rw [spills_preempt, Spills.state?_release]
        simp
      count := by
        rw [spills_preempt]
        exact Spills.activeCount_release active }

/-- Zones that are taken away in two steps are those of different anchors. -/
theorem Cleared.append {r'' : Round} {others : List Position}
    (first : r.Cleared anchor owners r') (second : r'.Cleared anchor others r'') :
    r.Cleared anchor (owners ++ others) r'' := by
  -- An anchor without a state cannot lose its zone a second time.
  have apart : ∀ owner ∈ others, owner ∉ owners := fun owner later earlier => by
    obtain ⟨zone, values, formats, state⟩ := second.active owner later
    rw [first.state, if_pos earlier] at state
    contradiction
  exact
    { sound := second.sound
      nodup := List.nodup_append.mpr ⟨first.nodup, second.nodup, fun a earlier b later same =>
        apart b later (same ▸ earlier)⟩
      pending := second.pending.trans first.pending
      waits := fun owner listed => by
        rcases List.mem_append.mp listed with earlier | later
        · exact first.waits owner earlier
        · rw [← first.pending]
          exact second.waits owner later
      foreign := fun listed => (List.mem_append.mp listed).elim first.foreign second.foreign
      active := fun owner listed => by
        rcases List.mem_append.mp listed with earlier | later
        · exact first.active owner earlier
        · obtain ⟨zone, values, formats, state⟩ := second.active owner later
          rw [first.state, if_neg (apart owner later)] at state
          exact ⟨zone, values, formats, state⟩
      state := fun a => by
        rw [second.state, first.state]
        by_cases earlier : a ∈ owners
        · simp [earlier]
        · simp [earlier]
      count := by
        have both := second.count
        have before := first.count
        rw [List.length_append]
        omega }

/-- Where no zone has been taken away every zone is left. -/
theorem cleared_nil (sound : r.workbook.spills.Sound) (anchor : Position) :
    r.Cleared anchor [] r where
  sound := sound
  nodup := .nil
  pending := rfl
  waits := by simp
  foreign := by simp
  active := by simp
  state a := by simp
  count := rfl

/-- The anchors that lose their zones are different ones that really had some. -/
theorem Clears.cleared (sound : r.workbook.spills.Sound)
    (clears : Clears anchor rows columns r owners r') : r.Cleared anchor owners r' := by
  induction clears with
  | nil r => exact cleared_nil sound anchor
  | cons meets _ ih =>
    have first := meets.cleared_preempt sound
    exact first.append (ih first.sound)

/-- With enough fuel the way is cleared until no anchor is met whose turn is still to come. -/
theorem exists_clears_of_fuel (fuel : Nat) (sound : r.workbook.spills.Sound)
    (enough : r.workbook.spills.activeCount ≤ fuel) (anchor : Position) (rows columns : Nat) :
    ∃ owners r', Clears anchor rows columns r owners r' ∧
      (∀ owner, ¬ r'.Meets anchor rows columns owner) ∧
      clearWay anchor rows columns fuel r = (r', r'.claim anchor rows columns) := by
  induction fuel generalizing r with
  | zero =>
    refine ⟨[], r, .nil r, fun owner meets => ?_, rfl⟩
    have fewer := (meets.cleared_preempt sound).count
    rw [List.length_singleton] at fewer
    omega
  | succ fuel ih =>
    by_cases stuck : ∃ owner, r.Meets anchor rows columns owner
    · obtain ⟨owner, meets⟩ := stuck
      have step := meets.cleared_preempt sound
      have fewer := step.count
      rw [List.length_singleton] at fewer
      obtain ⟨owners, r', clears, free, result⟩ := ih step.sound (by omega)
      refine ⟨owner :: owners, r', .cons meets clears, free, ?_⟩
      obtain ⟨waits, found, met⟩ := meets
      simp only [clearWay, met, Std.ExtTreeSet.contains_iff_mem.mpr waits, ↓reduceIte, result]
    · have free : ∀ owner, ¬ r.Meets anchor rows columns owner := not_exists.mp stuck
      refine ⟨[], r, .nil r, free, ?_⟩
      simp only [clearWay]
      split
      · rename_i found owner met
        rw [if_neg fun waits =>
          free owner ⟨Std.ExtTreeSet.contains_iff_mem.mp waits, found, met⟩, met]
      · rfl

/-- There is enough fuel if it is the number of zones at the start. -/
theorem exists_clears (sound : r.workbook.spills.Sound) (anchor : Position) (rows columns : Nat) :
    ∃ owners r', Clears anchor rows columns r owners r' ∧
      (∀ owner, ¬ r'.Meets anchor rows columns owner) ∧
      clearWay anchor rows columns r.workbook.spills.activeCount r =
        (r', r'.claim anchor rows columns) :=
  exists_clears_of_fuel _ sound le_rfl anchor rows columns

end Round

end Spreadsheet
