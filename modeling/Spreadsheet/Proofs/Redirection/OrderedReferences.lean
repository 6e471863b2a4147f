import Spreadsheet.Proofs.Formula.Reading
import Spreadsheet.Proofs.Formula.Trees

/-!
# References in order

The reader puts the smaller index of a range first, for rows and for columns, and every redirection
keeps it there. Both corners of a range give a row or a column, and go on doing so. What reading and
redirecting keep of single references, they keep of all references of a tree.
-/
namespace Spreadsheet

namespace Reference

/-- A property of references that are read which shifts, copies and moves keep. -/
structure Law (Holds : Reference → Prop) : Prop where
  read : ∀ text target, Reference.read text = .ok target → Holds target
  shifted : ∀ s target new, Holds target → target.shifted s = some new → Holds new
  copied : ∀ rows columns target new, Holds target → target.copied rows columns = some new →
    Holds new
  moved : ∀ rows columns sheet target new, Holds target →
    target.moved rows columns sheet = some new → Holds new

end Reference

namespace Expr

/-- A property holds of every reference of a tree. -/
def AllReferences (Holds : Reference → Prop) (e : Expr) : Prop := ∀ target ∈ e.references, Holds target

variable {Holds : Reference → Prop} {e e' : Expr}

/-- What holds of a reference that is read holds of the references of an operand. -/
theorem allReferences_ofOperand (law : Reference.Law Holds) {t : Token} (found : ofOperand t = .ok e) :
    e.AllReferences Holds := by
  unfold ofOperand at found
  split at found
  · split at found
    · obtain rfl := Except.ok.inj found
      exact fun _ none => absurd none List.not_mem_nil
    · contradiction
  · obtain rfl := Except.ok.inj found
    exact fun _ none => absurd none List.not_mem_nil
  · obtain rfl := Except.ok.inj found
    exact fun _ none => absurd none List.not_mem_nil
  · obtain rfl := Except.ok.inj found
    exact fun _ none => absurd none List.not_mem_nil
  · split at found
    · obtain rfl := Except.ok.inj found
      exact fun _ none => absurd none List.not_mem_nil
    · split at found
      · rename_i target read
        obtain rfl := Except.ok.inj found
        exact List.forall_mem_singleton.mpr (law.read _ target read)
      · contradiction
  · contradiction

/-- A law of references is one of the reader. -/
theorem readerLaw_allReferences (law : Reference.Law Holds) :
    ReaderLaw (fun _ => True) (AllReferences Holds) where
  text _ _ _ none := absurd none List.not_mem_nil
  operand _ _ _ _ := allReferences_ofOperand law
  sign _ _ _ _ inner := inner
  percent _ _ _ _ inner := inner
  binary _ _ _ _ _ first second := List.forall_mem_append.mpr ⟨first, second⟩
  call t arguments _ _ _ all _ target listed := by
    rw [references, referencesOfAll_eq, List.mem_flatMap] at listed
    obtain ⟨e, member, inside⟩ := listed
    rcases all e member with rfl | holds
    · exact absurd inside List.not_mem_nil
    · exact holds target inside
  array rows width _ _ entries target listed := by
    simp only [references, referencesOfRows_eq, List.mem_flatMap] at listed
    obtain ⟨row, within, e, member, inside⟩ := listed
    exact entries row within e member target inside

/-- What all references of a tree have in common lasts when each of them becomes a reference that
has it too. -/
theorem AllReferences.redirect? {fate : Reference → Fate} (all : e.AllReferences Holds)
    (kept : ∀ target new, Holds target → (fate target).target? target = some new → Holds new)
    (changed : e.redirect? fate = some e') : e'.AllReferences Holds := by
  intro new listed
  obtain ⟨target, there, became⟩ := mem_references_redirect? changed listed
  exact kept target new (all target there) became

namespace AllReferences

/-- A law of references lasts through shifts. -/
theorem shift? {sheetOf : Option String → Option SheetId} {s : Shift} (law : Reference.Law Holds)
    (all : e.AllReferences Holds) (changed : e.shift? sheetOf s = some e') :
    e'.AllReferences Holds := by
  refine all.redirect? (fun target new holds became => ?_) changed
  split at became
  · rw [Fate.target?_ofTarget?] at became
    exact law.shifted s target new holds became
  · obtain rfl := Option.some.inj became
    exact holds

/-- A law of references lasts through copies. -/
theorem offset? {extentOf : Option String → Option (Nat × Nat)} {rows columns : Int}
    (law : Reference.Law Holds) (all : e.AllReferences Holds)
    (changed : e.offset? extentOf rows columns = some e') : e'.AllReferences Holds := by
  unfold Expr.offset? at changed
  split at changed
  · contradiction
  · refine all.redirect? (fun target new holds became => ?_) changed
    rw [Fate.target?_ofTarget?] at became
    exact law.copied rows columns target new holds (Option.filter_eq_some_iff.mp became).1

/-- A law of references lasts through moves. -/
theorem move? {sheetOf : Option String → Option SheetId} {source : Zone} {rows columns : Int}
    {destination home : SheetId} {name : String} (law : Reference.Law Holds)
    (all : e.AllReferences Holds)
    (changed : e.move? sheetOf source rows columns destination name home = some e') :
    e'.AllReferences Holds := by
  refine all.redirect? (fun target new holds became => ?_) changed
  dsimp only at became
  split at became
  · obtain rfl := Option.some.inj became
    exact holds
  · split at became
    · rw [Fate.target?_ofTarget?] at became
      exact law.moved rows columns _ target new holds became
    · obtain rfl := Option.some.inj became
      exact holds

/-- What all references have in common lasts when a sheet is gone. -/
theorem invalidate? {name : String} (all : e.AllReferences Holds)
    (changed : e.invalidate? name = some e') : e'.AllReferences Holds := by
  refine all.redirect? (fun target new holds became => ?_) changed
  split at became
  · contradiction
  · obtain rfl := Option.some.inj became
    exact holds

end AllReferences

end Expr

/-! ### Order -/

/-- Of two axes that are both given, the first has the smaller index. -/
def InOrder (first second : Option Axis) : Prop :=
  ∀ a ∈ first, ∀ b ∈ second, a.index ≤ b.index

/-- Two axes are in order once they have been put in order. -/
theorem inOrder_orderAxes (first second : Option Axis) :
    InOrder (orderAxes first second).1 (orderAxes first second).2 := by
  cases first with
  | none => exact fun _ none => by contradiction
  | some a =>
    cases second with
    | none => exact fun _ _ _ none => by contradiction
    | some b =>
      unfold orderAxes
      dsimp only
      split
      · rename_i smaller
        rintro _ ⟨⟩ _ ⟨⟩
        exact Nat.le_of_lt smaller
      · rename_i atMost
        rintro _ ⟨⟩ _ ⟨⟩
        exact Nat.le_of_not_lt atMost

/-- Axes in order stay where they are. -/
theorem orderAxes_of_inOrder {first second : Option Axis} (ordered : InOrder first second) :
    orderAxes first second = (first, second) := by
  cases first with
  | none => rfl
  | some a =>
    cases second with
    | none => rfl
    | some b => exact if_neg (Nat.not_lt.mpr (ordered a rfl b rfl))

namespace Reference

/-- The corners of a range are in order, rows and columns independently. -/
def Ordered : Reference → Prop
  | .cell _ _ => True
  | .range _ start stop => InOrder start.row stop.row ∧ InOrder start.column stop.column

/-- The range between two corners is in order. -/
theorem ordered_between (sheet : Option String) (corner other : Corner) :
    (between sheet corner other).Ordered :=
  ⟨inOrder_orderAxes _ _, inOrder_orderAxes _ _⟩

/-- A range in order is the one between its corners. -/
theorem between_of_ordered {sheet : Option String} {top left bottom right : Option Axis}
    (rows : InOrder top bottom) (columns : InOrder left right) :
    between sheet ⟨top, left⟩ ⟨bottom, right⟩ = .range sheet ⟨top, left⟩ ⟨bottom, right⟩ := by
  unfold between
  rw [orderAxes_of_inOrder rows, orderAxes_of_inOrder columns]

/-- A reference that is read is in order. -/
theorem ordered_read {text : List Char} {target : Reference} (found : read text = .ok target) :
    target.Ordered := by
  unfold read at found
  dsimp only at found
  split at found
  · unfold readRange at found
    obtain ⟨start, _, rest⟩ := exists_of_bind_eq_ok found
    obtain ⟨stop, _, rest⟩ := exists_of_bind_eq_ok rest
    split at rest
    · contradiction
    · obtain rfl := Except.ok.inj rest
      exact ordered_between _ _ _
  · split at found
    · obtain rfl := Except.ok.inj found
      trivial
    · contradiction

/-- A reference is in order after a shift. -/
theorem ordered_shifted {s : Shift} {target new : Reference} (found : target.shifted s = some new) :
    new.Ordered := by
  cases target with
  | cell sheet c =>
    obtain ⟨place, _, rfl⟩ := Option.map_eq_some_iff.mp found
    trivial
  | range sheet start stop =>
    unfold shifted at found
    dsimp only at found
    split at found
    · obtain ⟨ends, _, rfl⟩ := Option.map_eq_some_iff.mp found
      exact ordered_between _ _ _
    · obtain ⟨ends, _, rfl⟩ := Option.map_eq_some_iff.mp found
      exact ordered_between _ _ _

/-- A reference to cells that are moved is in order. -/
theorem ordered_moved {rows columns : Int} {sheet : Option String} {target new : Reference}
    (found : target.moved rows columns sheet = some new) : new.Ordered := by
  cases target with
  | cell named c =>
    obtain ⟨c', _, rfl⟩ := Option.map_eq_some_iff.mp found
    trivial
  | range named start stop =>
    obtain ⟨start', _, rest⟩ := Option.bind_eq_some_iff.mp found
    obtain ⟨stop', _, rest⟩ := Option.bind_eq_some_iff.mp rest
    obtain rfl := Option.some.inj rest
    exact ordered_between _ _ _

/-- Ranges are read in order, and every redirection puts them in order. -/
theorem law_ordered : Law Ordered where
  read _ _ found := ordered_read found
  shifted _ _ _ _ found := ordered_shifted found
  copied rows columns target new _ found := by
    cases target with
    | cell sheet c =>
      obtain ⟨c', _, rfl⟩ := Option.map_eq_some_iff.mp found
      trivial
    | range sheet start stop =>
      obtain ⟨start', _, rest⟩ := Option.bind_eq_some_iff.mp found
      obtain ⟨stop', _, rest⟩ := Option.bind_eq_some_iff.mp rest
      obtain rfl := Option.some.inj rest
      exact ordered_between _ _ _
  moved _ _ _ _ _ _ found := ordered_moved found

/-! ### Corners -/

/-- Each corner of a range gives a row or a column. -/
def Filled : Reference → Prop
  | .cell _ _ => True
  | .range _ start stop => start.isBare = false ∧ stop.isBare = false

/-- Putting axes in order leaves out none that is given. -/
theorem isNone_orderAxes (first second : Option Axis) :
    (orderAxes first second).1.isNone = first.isNone ∧ (orderAxes first second).2.isNone = second.isNone := by
  cases first with
  | none => exact ⟨rfl, rfl⟩
  | some a =>
    cases second with
    | none => exact ⟨rfl, rfl⟩
    | some b =>
      unfold orderAxes
      dsimp only
      split <;> exact ⟨rfl, rfl⟩

/-- The range between two corners has corners that give as much. -/
theorem filled_between {sheet : Option String} {corner other : Corner} (first : corner.isBare = false)
    (last : other.isBare = false) : (between sheet corner other).Filled := by
  obtain ⟨row, row'⟩ := isNone_orderAxes corner.row other.row
  obtain ⟨column, column'⟩ := isNone_orderAxes corner.column other.column
  unfold Corner.isBare at first last
  unfold between Filled Corner.isBare
  dsimp only
  rw [row, row', column, column']
  exact ⟨first, last⟩

/-- A reference that is read has corners that give something. -/
theorem filled_read {text : List Char} {target : Reference} (found : read text = .ok target) :
    target.Filled := by
  unfold read at found
  dsimp only at found
  split at found
  · unfold readRange at found
    obtain ⟨start, _, rest⟩ := exists_of_bind_eq_ok found
    obtain ⟨stop, _, rest⟩ := exists_of_bind_eq_ok rest
    split at rest
    · contradiction
    · rename_i given
      obtain rfl := Except.ok.inj rest
      obtain ⟨first, last⟩ := Bool.or_eq_false_iff.mp (Bool.eq_false_iff.mpr given)
      exact filled_between first last
  · split at found
    · obtain rfl := Except.ok.inj found
      trivial
    · contradiction

/-- A shift leaves out no end that is given. -/
theorem isNone_mapEnds {s : Shift} {first last : Option Axis} {ends : Option Axis × Option Axis}
    (found : s.mapEnds first last = some ends) :
    ends.1.isNone = first.isNone ∧ ends.2.isNone = last.isNone := by
  unfold Shift.mapEnds at found
  split at found
  · obtain rfl := Option.some.inj found
    exact ⟨rfl, rfl⟩
  · obtain ⟨run, _, rest⟩ := Option.bind_eq_some_iff.mp found
    obtain rfl := Option.some.inj rest
    exact ⟨Option.isNone_map, Option.isNone_map⟩

/-- A move leaves out no axis that is given. -/
theorem isBare_move? {move : Axis → Int → Option Axis} {c c' : Corner} {rows columns : Int}
    (found : c.move? move rows columns = some c') : c'.isBare = c.isBare := by
  have kept : ∀ {axis axis' : Option Axis} {distance : Int}, axis.mapM (move · distance) = some axis' →
      axis'.isNone = axis.isNone := by
    intro axis axis' distance moved
    cases axis with
    | none =>
      obtain rfl := Option.some.inj moved
      rfl
    | some a =>
      obtain ⟨b, _, rfl⟩ := Option.map_eq_some_iff.mp moved
      rfl
  obtain ⟨row, rows', rest⟩ := Option.bind_eq_some_iff.mp found
  obtain ⟨column, columns', rest⟩ := Option.bind_eq_some_iff.mp rest
  obtain rfl := Option.some.inj rest
  unfold Corner.isBare
  rw [kept rows', kept columns']

/-- A reference keeps what its corners give through a shift. -/
theorem filled_shifted {s : Shift} {target new : Reference} (filled : target.Filled)
    (found : target.shifted s = some new) : new.Filled := by
  cases target with
  | cell sheet c =>
    obtain ⟨place, _, rfl⟩ := Option.map_eq_some_iff.mp found
    trivial
  | range sheet start stop =>
    obtain ⟨first, last⟩ := filled
    unfold Corner.isBare at first last
    unfold shifted at found
    dsimp only at found
    split at found <;>
    · obtain ⟨ends, moved, rfl⟩ := Option.map_eq_some_iff.mp found
      obtain ⟨front, back⟩ := isNone_mapEnds moved
      refine filled_between ?_ ?_ <;>
      · unfold Corner.isBare
        simp only [front, back, first, last]

/-- Corners that give something are read, and every redirection keeps them. -/
theorem law_filled : Law Filled where
  read _ _ found := filled_read found
  shifted _ _ _ filled found := filled_shifted filled found
  copied rows columns target new filled found := by
    cases target with
    | cell sheet c =>
      obtain ⟨c', _, rfl⟩ := Option.map_eq_some_iff.mp found
      trivial
    | range sheet start stop =>
      obtain ⟨start', first, rest⟩ := Option.bind_eq_some_iff.mp found
      obtain ⟨stop', last, rest⟩ := Option.bind_eq_some_iff.mp rest
      obtain rfl := Option.some.inj rest
      exact filled_between ((isBare_move? first).trans filled.1) ((isBare_move? last).trans filled.2)
  moved rows columns sheet target new filled found := by
    cases target with
    | cell named c =>
      obtain ⟨c', _, rfl⟩ := Option.map_eq_some_iff.mp found
      trivial
    | range named start stop =>
      obtain ⟨start', first, rest⟩ := Option.bind_eq_some_iff.mp found
      obtain ⟨stop', last, rest⟩ := Option.bind_eq_some_iff.mp rest
      obtain rfl := Option.some.inj rest
      exact filled_between ((isBare_move? first).trans filled.1) ((isBare_move? last).trans filled.2)

end Reference

end Spreadsheet
