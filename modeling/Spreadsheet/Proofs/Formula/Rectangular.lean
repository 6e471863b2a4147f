import Spreadsheet.Proofs.Formula.Reading
import Spreadsheet.Proofs.Formula.Trees

/-!
# Rectangular trees

A tree is rectangular when its literals are and its arrays have rows of one length, which is not
zero. The reader refuses arrays with other rows, and redirecting references keeps the shape.
-/
namespace Spreadsheet

namespace Expr

/-- Literals are rectangular, and arrays have rows of one length, which is not zero. -/
inductive Rectangular : Expr → Prop where
  | literal {value : Value} {span : Option Span} (shape : value.Rectangular) :
    Rectangular (.literal value span)
  | reference {target : Reference} {spelling : String} {span : Option Span} :
    Rectangular (.reference target spelling span)
  | unary {operator : UnaryOperator} {operand : Expr} {span : Option Span}
    (inner : Rectangular operand) : Rectangular (.unary operator operand span)
  | binary {operator : BinaryOperator} {left right : Expr} {span : Option Span}
    (first : Rectangular left) (second : Rectangular right) :
    Rectangular (.binary operator left right span)
  | call {name : String} {arguments : List Expr} {span : Option Span}
    (all : ∀ e ∈ arguments, Rectangular e) : Rectangular (.call name arguments span)
  | array {rows : List (List Expr)} {span : Option Span} {width : Nat} (wide : 0 < width)
    (even : Grid.Even rows width) (entries : ∀ row ∈ rows, ∀ e ∈ row, Rectangular e) :
    Rectangular (.array rows span)

/-- The value of a literal that is rectangular. -/
theorem Rectangular.value_of {value : Value} {span : Option Span}
    (shape : (Expr.literal value span).Rectangular) : value.Rectangular := by
  cases shape with
  | literal inner => exact inner

/-! ### Reading -/

/-- An omitted argument is rectangular. -/
theorem rectangular_omitted : omitted.Rectangular := .literal Value.isSingle_empty.rectangular

/-- The node of an operand is rectangular. -/
theorem rectangular_ofOperand {t : Token} {e : Expr} (found : ofOperand t = .ok e) :
    e.Rectangular := by
  unfold ofOperand at found
  split at found
  · split at found
    · obtain rfl := Except.ok.inj found
      exact .literal (Value.isSingle_number _).rectangular
    · contradiction
  · obtain rfl := Except.ok.inj found
    exact .literal (Value.isSingle_text _).rectangular
  · obtain rfl := Except.ok.inj found
    exact .literal (Value.isSingle_boolean _).rectangular
  · obtain rfl := Except.ok.inj found
    exact .literal (Value.isSingle_error _).rectangular
  · split at found
    · obtain rfl := Except.ok.inj found
      exact .literal (Value.isSingle_error _).rectangular
    · split at found
      · obtain rfl := Except.ok.inj found
        exact .reference
      · contradiction
  · contradiction

/-- Trees that are read are rectangular. -/
theorem readerLaw_rectangular : ReaderLaw (fun _ => True) Rectangular where
  text _ _ := .literal (Value.isSingle_text _).rectangular
  operand _ _ _ _ := rectangular_ofOperand
  sign _ _ _ _ inner := .unary inner
  percent _ _ _ _ inner := .unary inner
  binary _ _ _ _ _ first second := .binary first second
  call _ _ _ _ _ all _ := .call fun e listed => (all e listed).elim (· ▸ rectangular_omitted) id
  array _ _ wide even entries := .array wide even entries

/-- The tree of a text is rectangular. -/
theorem rectangular_ofText {text : List Char} {e : Expr} (found : ofText text = .ok e) :
    e.Rectangular :=
  readerLaw_rectangular.ofText (fun _ _ _ _ => trivial) found

/-! ### Redirection -/

/-- Replacing references by rectangular trees keeps a tree rectangular. -/
theorem Rectangular.mapReferences {f : Reference → String → Option Span → Expr} {e : Expr}
    (nodes : ∀ target spelling span, (f target spelling span).Rectangular)
    (shape : e.Rectangular) : (e.mapReferences f).Rectangular := by
  induction shape with
  | literal inner => exact .literal inner
  | reference => exact nodes _ _ _
  | unary _ ih => exact .unary ih
  | binary _ _ first second => exact .binary first second
  | call _ ih =>
    unfold Expr.mapReferences
    rw [mapReferencesOfAll_eq]
    refine .call fun e listed => ?_
    obtain ⟨source, there, rfl⟩ := List.mem_map.mp listed
    exact ih source there
  | array wide even _ ih =>
    unfold Expr.mapReferences
    rw [mapReferencesOfRows_eq]
    refine .array wide (even.map _) fun row listed e member => ?_
    obtain ⟨source, there, rfl⟩ := List.mem_map.mp listed
    obtain ⟨entry, inside, rfl⟩ := List.mem_map.mp member
    exact ih source there entry inside

/-- The node in place of a reference is rectangular. -/
theorem rectangular_node (fate : Fate) (target : Reference) (spelling : String)
    (span : Option Span) : (fate.node target spelling span).Rectangular := by
  unfold Fate.node
  split
  · exact .reference
  · split
    · exact .reference
    · exact .reference
  · exact .literal (Value.isSingle_error _).rectangular

/-- Redirecting references keeps a tree rectangular. -/
theorem Rectangular.redirect? {fate : Reference → Fate} {e e' : Expr} (shape : e.Rectangular)
    (changed : e.redirect? fate = some e') : e'.Rectangular := by
  unfold Expr.redirect? at changed
  split at changed
  · obtain rfl := Option.some.inj changed
    exact shape.mapReferences fun _ _ _ => rectangular_node _ _ _ _
  · contradiction

/-- A tree stays rectangular when it is copied elsewhere. -/
theorem Rectangular.offset? {extentOf : Option String → Option (Nat × Nat)} {rows columns : Int}
    {e e' : Expr} (shape : e.Rectangular) (changed : e.offset? extentOf rows columns = some e') :
    e'.Rectangular := by
  unfold Expr.offset? at changed
  split at changed
  · contradiction
  · exact shape.redirect? changed

end Expr

end Spreadsheet
