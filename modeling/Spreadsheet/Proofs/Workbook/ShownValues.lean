import Spreadsheet.Proofs.Workbook.Arrays
import Spreadsheet.Proofs.Workbook.SuitableFormats

/-!
# Workbooks that differ in formats only

Two workbooks show the same values if they have the same sheets, trees and values of formulas, and if the
same anchors have spilled the same arrays over the same zones; formats, and notes about arrays that were
not spilled, may differ. Then positions have the same values, claims end in the same way, and formulas
come to the same, apart from formats, as long as only library functions are called and arguments of
transpositions have formats that go with their values.
-/
namespace Spreadsheet

/-- The zone and the values of an array that was spilled. -/
def SpillState.array? : SpillState → Option (Zone × Grid Value)
  | .spilled zone values _ => some (zone, values)
  | .blocked _ => none

namespace Spills

variable {s t u : Spills} {a q : Position} {zone : Zone} {values : Grid Value}

/-- The zone and the values of the array of an anchor, if it has spilled one. -/
def array? (s : Spills) (a : Position) : Option (Zone × Grid Value) :=
  (s.state? a).bind SpillState.array?

/-- The zone of an anchor is that of its array. -/
theorem activeZone?_eq (s : Spills) (a : Position) :
    s.activeZone? a = (s.array? a).map Prod.fst := by
  unfold activeZone? array?
  cases s.state? a with
  | none => rfl
  | some state => cases state <;> rfl

/-- The value at a position is the entry of the array it leads to. -/
theorem value?_eq (s : Spills) (q : Position) :
    s.value? q = (s.owner? q).bind fun a => (s.array? a).bind fun array =>
      array.2.at? (q.row - a.row) (q.column - a.column) := by
  unfold value? published array?
  cases s.owner? q with
  | none => rfl
  | some a =>
    simp only [Option.bind_eq_bind, Option.bind_some]
    cases s.state? a with
    | none => rfl
    | some state => cases state <;> rfl

/-- Positions lead to the same anchors, and these have spilled the same arrays. -/
structure SameArrays (s t : Spills) : Prop where
  owner : ∀ q, t.owner? q = s.owner? q
  array : ∀ a, t.array? a = s.array? a

namespace SameArrays

/-- The arrays are those they are. -/
theorem refl (s : Spills) : s.SameArrays s := ⟨fun _ => rfl, fun _ => rfl⟩

/-- What is the same in two steps is the same. -/
theorem trans (first : s.SameArrays t) (second : t.SameArrays u) : s.SameArrays u where
  owner q := (second.owner q).trans (first.owner q)
  array a := (second.array a).trans (first.array a)

/-- The same arrays have the same zones. -/
theorem activeZone? (same : s.SameArrays t) (a : Position) : t.activeZone? a = s.activeZone? a := by
  rw [activeZone?_eq, activeZone?_eq, same.array]

/-- The same arrays show the same values. -/
theorem value? (same : s.SameArrays t) (q : Position) : t.value? q = s.value? q := by
  rw [value?_eq, value?_eq, same.owner]
  simp only [same.array]

end SameArrays

/-- Where an anchor has no zone, releasing its array leaves all arrays. -/
theorem sameArrays_release (none : s.array? a = none) : s.SameArrays (s.release a) := by
  have idle : s.activeZone? a = Option.none := by
    rw [activeZone?_eq, none]
    rfl
  refine ⟨fun q => ?_, fun b => ?_⟩
  · unfold owner? release
    rw [idle]
  · unfold array?
    rw [state?_release]
    split
    · rename_i here
      rw [here]
      exact none.symm
    · rfl

/-- Where an anchor has no zone, noting that it is blocked leaves all arrays. -/
theorem sameArrays_block (none : s.array? a = none) (candidate : Zone) :
    s.SameArrays (s.block a candidate) := by
  refine ⟨(sameArrays_release none).owner, fun b => ?_⟩
  unfold array?
  rw [state?_block]
  split
  · rename_i here
    rw [here]
    exact none.symm
  · rfl

/-- Claiming its zone for its array once more leaves all arrays. -/
theorem sameArrays_claim (sound : s.Sound) (array : s.array? a = some (zone, values))
    (owned : ∀ q, zone.contains q = true → s.owner? q = some a) (formats : Grid (Option String)) :
    s.SameArrays (s.claim a zone values formats) := by
  refine ⟨fun q => ?_, fun b => ?_⟩
  · rw [sound.owner?_claim]
    by_cases inside : zone.contains q = true
    · rw [if_pos inside, owned q inside]
    · have other : s.owner? q ≠ some a := by
        intro leads
        obtain ⟨zone', active, inside'⟩ := sound.covered q a leads
        rw [activeZone?_eq, array] at active
        obtain rfl := Option.some.inj active
        exact inside inside'
      rw [if_neg inside, if_neg other]
  · unfold array?
    rw [state?_claim]
    split
    · rename_i here
      rw [here]
      exact array.symm
    · rfl

/-- A claim depends on where positions lead and where there is content. -/
theorem checkClaim_congr {content content' : Position → Bool}
    (owner : ∀ q, t.owner? q = s.owner? q) (same : ∀ q, content' q = content q) (anchor : Position)
    (rows columns sheetRows sheetColumns : Nat) :
    t.checkClaim anchor rows columns sheetRows sheetColumns content' =
      s.checkClaim anchor rows columns sheetRows sheetColumns content := by
  have obstacle : t.obstacle? content' anchor = s.obstacle? content anchor := by
    funext q
    unfold obstacle?
    rw [owner, same]
  unfold checkClaim
  rw [obstacle]

end Spills

/-- The formula without the format of its result. -/
def Formula.unformatted (f : Formula) : Formula := { f with format := none }

/-- The content without the format of a result. -/
def Content.unformatted (content : Content) : Content := content.mapFormula Formula.unformatted

namespace Workbook

variable {w w' w'' : Workbook} {p q : Position}

/-- Two workbooks show the same values: only formats and notes about arrays that were not spilled
differ. -/
structure SameShown (w w' : Workbook) : Prop extends SameSheets w w' where
  dependencies : w'.dependencies = w.dependencies
  content : ∀ p, (w'.content p).unformatted = (w.content p).unformatted
  arrays : w.spills.SameArrays w'.spills

/-- The value that the formula at a position came to last. -/
def stored? (w : Workbook) (p : Position) : Option Value := (w.formula? p).map Formula.value

/-- The claim of an anchor as things stand. -/
def claim (w : Workbook) (anchor : Position) (rows columns : Nat) : Except Collision Zone :=
  w.spills.checkClaim anchor rows columns ((w.extent? anchor.sheet).getD (0, 0)).1
    ((w.extent? anchor.sheet).getD (0, 0)).2 w.hasContent

namespace SameShown

/-- A workbook shows what it shows. -/
theorem refl (w : Workbook) : SameShown w w where
  toSameSheets := .refl w
  dependencies := rfl
  content _ := rfl
  arrays := .refl _

/-- What is the same in two steps is the same. -/
theorem trans (first : SameShown w w') (second : SameShown w' w'') : SameShown w w'' where
  toSameSheets := first.toSameSheets.trans second.toSameSheets
  dependencies := second.dependencies.trans first.dependencies
  content p := (second.content p).trans (first.content p)
  arrays := first.arrays.trans second.arrays

/-- The same formulas stand at a position, apart from formats. -/
theorem formula? (same : SameShown w w') (p : Position) :
    (w'.formula? p).map Formula.unformatted = (w.formula? p).map Formula.unformatted := by
  have contents := congrArg Content.formula? (same.content p)
  unfold Content.unformatted at contents
  rw [Content.formula?_mapFormula, Content.formula?_mapFormula] at contents
  rw [formula?_eq, formula?_eq]
  exact contents

/-- The same positions hold formulas. -/
theorem isFormula (same : SameShown w w') (p : Position) : w'.isFormula p = w.isFormula p := by
  have formulas := congrArg Option.isSome (same.formula? p)
  rwa [Option.isSome_map, Option.isSome_map] at formulas

/-- The same formulas have the same trees. -/
theorem tree (same : SameShown w w') (p : Position) :
    (w'.formula? p).map Formula.tree = (w.formula? p).map Formula.tree := by
  have formulas := congrArg (Option.map Formula.tree) (same.formula? p)
  rwa [Option.map_map, Option.map_map] at formulas

/-- The same formulas have the same values. -/
theorem stored? (same : SameShown w w') (p : Position) : w'.stored? p = w.stored? p := by
  have formulas := congrArg (Option.map Formula.value) (same.formula? p)
  rwa [Option.map_map, Option.map_map] at formulas

/-- The same positions hold content. -/
theorem hasContent (same : SameShown w w') (p : Position) : w'.hasContent p = w.hasContent p := by
  have contents := congrArg Content.isEmpty (same.content p)
  unfold Content.unformatted at contents
  rw [Content.isEmpty_mapFormula, Content.isEmpty_mapFormula] at contents
  rw [hasContent_eq, hasContent_eq, contents]

/-- Formulas read the same. -/
theorem reads_iff (same : SameShown w w') : w'.Reads p q ↔ w.Reads p q := by
  unfold Workbook.Reads
  rw [same.dependencies]

/-- The same formulas are on cycles. -/
theorem onCycle_iff (same : SameShown w w') : w'.OnCycle p ↔ w.OnCycle p := by
  have feeds : w'.Feeds = w.Feeds := by
    funext writer reader
    unfold Feeds
    rw [same.isFormula, same.reads_iff]
  unfold OnCycle
  rw [feeds]

/-- A position shows the same value. -/
theorem value (same : SameShown w w') (q : Position) : w'.value q = w.value q := by
  have contents := same.content q
  rw [value_eq, value_eq, same.arrays.value?]
  cases old : w.content q with
  | empty =>
    cases new : w'.content q with
    | empty => rfl
    | literal typed v => simp [old, new, Content.unformatted, Content.mapFormula] at contents
    | formula f => simp [old, new, Content.unformatted, Content.mapFormula] at contents
  | literal typed v =>
    cases new : w'.content q with
    | empty => simp [old, new, Content.unformatted, Content.mapFormula] at contents
    | literal typed' v' =>
      rw [old, new] at contents
      exact (Content.literal.inj contents).2
    | formula f => simp [old, new, Content.unformatted, Content.mapFormula] at contents
  | formula f =>
    cases new : w'.content q with
    | empty => simp [old, new, Content.unformatted, Content.mapFormula] at contents
    | literal typed v => simp [old, new, Content.unformatted, Content.mapFormula] at contents
    | formula f' =>
      rw [old, new] at contents
      have formulas : f'.unformatted = f.unformatted := Content.formula.inj contents
      have values : f'.unformatted.value = f.unformatted.value := by rw [formulas]
      dsimp only
      rw [show f'.value = f.value from values]

/-- A claim ends in the same way. -/
theorem claim (same : SameShown w w') (anchor : Position) (rows columns : Nat) :
    w'.claim anchor rows columns = w.claim anchor rows columns := by
  unfold Workbook.claim
  rw [same.extent]
  exact Spills.checkClaim_congr same.arrays.owner same.hasContent anchor rows columns _ _

/-- Formulas see the same, apart from formats. -/
theorem surroundings (same : SameShown w w') (home : String) :
    w'.surroundings home = (w.surroundings home).withFormat w'.format := by
  have resolve : (w'.surroundings home).resolve = (w.surroundings home).resolve := by
    funext target
    unfold Workbook.surroundings
    dsimp only
    rw [same.registry]
    split
    · exact same.toSameSheets.resolve target _
    · rfl
  have value : (w'.surroundings home).value = (w.surroundings home).value :=
    funext same.value
  have functions : (w'.surroundings home).function? = (w.surroundings home).function? := by
    show w'.functions.resolve? "" = w.functions.resolve? ""
    rw [same.functions]
  exact congr (congr (congr (congrArg Surroundings.mk resolve) value) rfl) functions

end SameShown

/-- A workbook knows the functions of the library only. -/
theorem mem_library_of_surroundings (builtin : w.functions = .empty) {home name : String}
    {f : Function} (found : (w.surroundings home).function? name = some f) : f ∈ Function.library := by
  have shared : Function.find? Function.library "" name = some f := by
    have resolved : w.functions.resolve? "" name = some f := found
    rwa [builtin] at resolved
  exact List.mem_of_find?_eq_some shared

/-- Where the formula at a position is a transposition, the format of its argument goes with the value of
the argument, whatever formats cells show. -/
def TransposesSuitably (w : Workbook) (p : Position) : Prop :=
  ∀ e, w.expr? p = some e →
    e.TransposesSuitably (w.surroundings ((w.registry.name? p.sheet).getD ""))

/-- Where only formats differ, a formula comes to the same, apart from formats. -/
theorem SameShown.plain_compute (same : SameShown w w') (builtin : w.functions = .empty)
    (transposes : w.TransposesSuitably p) :
    (w'.compute p).outcome.plain = (w.compute p).outcome.plain := by
  have trees := same.tree p
  have known : ∀ name f, (w.surroundings ((w.registry.name? p.sheet).getD "")).function? name = some f →
      f ∈ Function.library := fun _ _ => mem_library_of_surroundings builtin
  have blind : (w.surroundings ((w.registry.name? p.sheet).getD "")).FormatBlind :=
    fun name f found => Function.formatBlind_of_mem_library (known name f found)
  cases old : w.formula? p with
  | none =>
    have new : w'.formula? p = none := by
      rw [old] at trees
      exact Option.map_eq_none_iff.mp trees
    unfold compute
    rw [old, new]
  | some f =>
    obtain ⟨f', new, tree⟩ : ∃ f', w'.formula? p = some f' ∧ f'.tree = f.tree := by
      rw [old] at trees
      exact Option.map_eq_some_iff.mp trees
    unfold compute
    rw [old, new]
    dsimp only
    rw [tree]
    cases read : f.tree with
    | error e => rfl
    | ok e =>
      have expr : w.expr? p = some e := by
        rw [expr?_eq, old]
        show f.expr? = _
        unfold Formula.expr?
        rw [read]
        rfl
      dsimp only
      rw [same.registry, same.surroundings, Expr.evaluate_withFormat blind]
      generalize shown : w.surroundings ((w.registry.name? p.sheet).getD "") = world
      rw [shown] at known
      have suitably : e.TransposesSuitably world := shown ▸ transposes e expr
      have suits := fun format call => Expr.suits_result_of_isCall call known suitably format
      calc
        _ = _ := Outcome.plain_ofResult (suits w'.format)
        _ = _ := (Outcome.plain_ofResult (suits world.format)).symm

/-- The value and the array of a formula are those of an outcome, apart from formats: a single value is
its value, and it has no array; an array is spilled if there is room for it, and else the formula has the
error of its claim. -/
def Shows (w : Workbook) (p : Position) : Outcome → Prop
  | .single value _ => w.spills.array? p = none ∧ w.stored? p = some value
  | .array values _ =>
    match w.claim p values.extent.1 values.extent.2 with
    | .ok zone => w.spills.array? p = some (zone, values) ∧ w.stored? p = some (.array values)
    | .error collision => w.spills.array? p = none ∧
      w.stored? p = some (.error (.ofCollision collision values.extent.1 values.extent.2))

/-- Whether an outcome is shown does not depend on formats. -/
theorem shows_congr {outcome outcome' : Outcome} (same : outcome'.plain = outcome.plain) :
    w.Shows p outcome' ↔ w.Shows p outcome := by
  have bare : ∀ outcome : Outcome, w.Shows p outcome ↔ w.Shows p outcome.plain := fun outcome => by
    cases outcome with
    | single value format => rfl
    | array values formats => rfl
  rw [bare, same, ← bare]

/-- Where only formats differ, the same outcomes are shown. -/
theorem SameShown.shows_iff (same : SameShown w w') (outcome : Outcome) :
    w'.Shows p outcome ↔ w.Shows p outcome := by
  cases outcome with
  | single value format =>
    unfold Shows
    rw [same.arrays.array, same.stored?]
  | array values formats =>
    unfold Shows
    dsimp only
    rw [same.claim, same.arrays.array, same.stored?]

end Workbook

end Spreadsheet
