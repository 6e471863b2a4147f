import Spreadsheet.Proofs.Formula.LawfulTokens
import Spreadsheet.Proofs.Formula.Lexemes
import Spreadsheet.Proofs.Formula.Reading

/-!
# Trees of typed formulas

A tree that is read has unsigned numbers, known operators or the comma between references, names of
functions that gather, and arrays with rows of one length; redirections leave all of this as it is. What
keeps such a tree from reading back is in its nodes: an error without a code of its own, a reference that
cannot be named, a percent sign behind a sign, or a comma between references.
-/
namespace Spreadsheet

namespace Expr

/-- A tree as formulas are typed and redirected. -/
inductive Typed : Expr → Prop where
  | number {x : Number} (unsigned : Decimal.Unsigned x) (span : Option Span) :
    Typed (.literal (.number x) span)
  | text (content : String) (span : Option Span) : Typed (.literal (.text content) span)
  | boolean (b : Bool) (span : Option Span) : Typed (.literal (.boolean b) span)
  | error (error : CellError) (span : Option Span) : Typed (.literal (.error error) span)
  | reference (target : Reference) (spelling : String) (span : Option Span) :
    Typed (.reference target spelling span)
  | unary {operator : UnaryOperator} {operand : Expr} (known : ∀ symbol, operator ≠ .other symbol)
    (inner : Typed operand) (span : Option Span) : Typed (.unary operator operand span)
  | binary {operator : BinaryOperator} {left right : Expr}
    (known : ∀ symbol, operator = .other symbol → symbol = ",") (first : Typed left)
    (second : Typed right) (span : Option Span) : Typed (.binary operator left right span)
  | call {name : String} {arguments : List Expr} (named : name.toList ≠ [])
    (gathers : Lexer.Gathers name.toList) (given : ∀ e ∈ arguments, e.isOmitted = false → Typed e)
    (several : ∀ e ∈ arguments, e.isOmitted = true → 2 ≤ arguments.length) (span : Option Span) :
    Typed (.call name arguments span)
  | array {rows : List (List Expr)} {width : Nat} (wide : 0 < width)
    (even : ∀ row ∈ rows, row.length = width) (entries : ∀ row ∈ rows, ∀ e ∈ row, Typed e)
    (span : Option Span) : Typed (.array rows span)

/-- No node of a formula is left out but an argument. -/
theorem Typed.isOmitted_eq_false {e : Expr} (typed : e.Typed) : e.isOmitted = false := by
  cases typed <;> rfl

/-! ### Reading -/

/-- The node of an operand. -/
theorem typed_ofOperand {t : Token} {e : Expr} (lawful : t.Lawful) (kind : t.kind = .operand)
    (found : ofOperand t = .ok e) : e.Typed := by
  obtain ⟨c, first, signs, _⟩ := (lawful.operand kind).2
  have unsigned : ∀ d ∈ t.text.head?, d ≠ '+' ∧ d ≠ '-' := fun d first' => by
    rw [Option.mem_def.mp first] at first'
    rwa [← Option.some.inj first']
  unfold ofOperand at found
  split at found
  · split at found
    · rename_i x read
      obtain rfl := Except.ok.inj found
      exact .number (Decimal.unsigned_of_read? unsigned read) _
    · contradiction
  · obtain rfl := Except.ok.inj found
    exact .text _ _
  · obtain rfl := Except.ok.inj found
    exact .boolean _ _
  · obtain rfl := Except.ok.inj found
    exact .error _ _
  · split at found
    · obtain rfl := Except.ok.inj found
      exact .error _ _
    · split at found
      · obtain rfl := Except.ok.inj found
        exact .reference _ _ _
      · contradiction
  · contradiction

/-- An operator of a known sign is none of the others, unless it is a comma. -/
theorem ofSymbol_eq_other {text : List Char} (known : text ∈ Lexer.infixSigns ∨ text = [',']) :
    ∀ symbol, BinaryOperator.ofSymbol text = .other symbol → symbol = "," := by
  rcases known with listed | rfl
  · have all : Lexer.infixSigns.all (fun text => match BinaryOperator.ofSymbol text with
        | .other _ => false
        | _ => true) = true := by decide
    have own := List.all_eq_true.mp all text listed
    intro symbol other
    rw [other] at own
    contradiction
  · intro symbol other
    exact (BinaryOperator.other.inj other).symm

/-- Trees that are read from lawful tokens. -/
theorem readerLaw_typed : ReaderLaw Token.Lawful Typed where
  text content span := .text content span
  operand t e lawful kind found := typed_ofOperand lawful kind found
  sign t operand lawful kind inner := by
    refine .unary (fun symbol other => ?_) inner _
    rcases lawful.sign kind with text | text <;>
    · rw [text] at other
      contradiction
  percent t operand lawful kind inner := by
    refine .unary (fun symbol other => ?_) inner _
    rw [lawful.percent kind] at other
    contradiction
  binary t left right lawful kind first second :=
    .binary (ofSymbol_eq_other (lawful.between kind)) first second _
  call t arguments lawful kind role listed several := by
    obtain ⟨name, text, some', gathers⟩ := lawful.function kind role
    have named : (String.ofList t.text.dropLast).toList = name := by
      rw [text, List.dropLast_concat, String.toList_ofList]
    refine .call (named ▸ some') (named ▸ gathers) (fun e member solid => ?_) (fun e member left => ?_) _
    · rcases listed e member with rfl | typed
      · contradiction
      · exact typed
    · have same : e = omitted := (listed e member).resolve_right fun typed => by
        rw [typed.isOmitted_eq_false] at left
        contradiction
      obtain ⟨first, rest, rfl⟩ := List.exists_cons_of_ne_nil (List.ne_nil_of_mem member)
      cases rest with
      | nil =>
        rw [List.mem_singleton.mp member] at same
        exact absurd (congrArg (fun e => [e]) same) several
      | cons second rest => exact Nat.le_add_left 2 _
  array rows width wide even entries := .array wide even entries _

/-- The tree of a text. -/
theorem typed_ofText {text : List Char} {e : Expr} (found : ofText text = .ok e) : e.Typed :=
  readerLaw_typed.ofText (fun _ cut => Token.lawful_of_ofText cut) found

/-! ### Redirection -/

/-- A node in place of a reference is a reference or an error. -/
theorem typed_node (fate : Fate) (target : Reference) (spelling : String) (span : Option Span) :
    (fate.node target spelling span).Typed := by
  unfold Fate.node
  split
  · exact .reference _ _ _
  · split
    · exact .reference _ _ _
    · exact .reference _ _ _
  · exact .error _ _

/-- Replacing references leaves arguments out that were. -/
theorem isOmitted_mapReferences {f : Reference → String → Option Span → Expr}
    (nodes : ∀ target spelling span, (f target spelling span).Typed) (e : Expr) :
    (e.mapReferences f).isOmitted = e.isOmitted := by
  cases e with
  | reference target spelling span => exact (nodes target spelling span).isOmitted_eq_false
  | _ => rfl

/-- Replacing references by references and errors. -/
theorem Typed.mapReferences {f : Reference → String → Option Span → Expr} {e : Expr}
    (nodes : ∀ target spelling span, (f target spelling span).Typed) (typed : e.Typed) :
    (e.mapReferences f).Typed := by
  induction typed with
  | number unsigned span => exact .number unsigned span
  | text content span => exact .text content span
  | boolean b span => exact .boolean b span
  | error error span => exact .error error span
  | reference target spelling span => exact nodes target spelling span
  | unary known _ span ih => exact .unary known ih span
  | binary known _ _ span first second => exact .binary known first second span
  | call named gathers _ several span ih =>
    unfold Expr.mapReferences
    rw [mapReferencesOfAll_eq]
    refine .call named gathers (fun e listed solid => ?_) (fun e listed left => ?_) span
    · obtain ⟨source, there, rfl⟩ := List.mem_map.mp listed
      exact ih source there ((isOmitted_mapReferences nodes source).symm.trans solid)
    · obtain ⟨source, there, rfl⟩ := List.mem_map.mp listed
      rw [List.length_map]
      exact several source there ((isOmitted_mapReferences nodes source).symm.trans left)
  | array wide even _ span ih =>
    unfold Expr.mapReferences
    rw [mapReferencesOfRows_eq]
    refine .array wide (fun row listed => ?_) (fun row listed e member => ?_) span
    · obtain ⟨source, there, rfl⟩ := List.mem_map.mp listed
      rw [List.length_map, even source there]
    · obtain ⟨source, there, rfl⟩ := List.mem_map.mp listed
      obtain ⟨entry, inside, rfl⟩ := List.mem_map.mp member
      exact ih source there entry inside

/-- Redirecting references. -/
theorem Typed.redirect? {fate : Reference → Fate} {e e' : Expr} (typed : e.Typed)
    (changed : e.redirect? fate = some e') : e'.Typed := by
  unfold Expr.redirect? at changed
  split at changed
  · obtain rfl := Option.some.inj changed
    exact typed.mapReferences fun _ _ _ => typed_node _ _ _ _
  · contradiction

/-! ### Telling -/

mutual

/-- Each node of a tree is told by what is written for it: an error is the one of its code, a reference can
be named, no percent sign stands behind a sign, and no comma between references. -/
def isTelling : Expr → Bool
  | .literal (.error error) _ => CellError.ofCode error.kind.code == error
  | .literal _ _ => true
  | .reference target _ _ => decide target.Nameable
  | .unary operator operand _ => operand.isTelling && !(operator == .percent && operand.isSigned)
  | .binary operator left right _ => operator != .other "," && left.isTelling && right.isTelling
  | .call _ arguments _ => areTelling arguments
  | .array rows _ => rowsAreTelling rows

/-- Each node of several trees is told. -/
def areTelling : List Expr → Bool
  | [] => true
  | e :: rest => e.isTelling && areTelling rest

/-- Each node of rows of trees is told. -/
def rowsAreTelling : List (List Expr) → Bool
  | [] => true
  | row :: rest => areTelling row && rowsAreTelling rest

end

/-- The nodes of several trees are told if those of each are. -/
theorem areTelling_eq (list : List Expr) : areTelling list = list.all isTelling := by
  induction list with
  | nil => rfl
  | cons e rest ih => rw [areTelling, ih, List.all_cons]

/-- The nodes of rows of trees are told if those of each are. -/
theorem rowsAreTelling_eq (rows : List (List Expr)) :
    rowsAreTelling rows = rows.all fun row => row.all isTelling := by
  induction rows with
  | nil => rfl
  | cons row rest ih => rw [rowsAreTelling, ih, areTelling_eq, List.all_cons]

/-- A tree as formulas are typed says what it is in its formula if each node is told and the corners of its
references give something and are in order. -/
theorem Typed.legible {e : Expr} (typed : e.Typed) (telling : e.isTelling = true)
    (references : ∀ target ∈ e.references, target.Filled ∧ target.Ordered) : e.Legible := by
  induction typed with
  | number unsigned span => exact .number unsigned span
  | text content span => exact .text content span
  | boolean b span => exact .boolean b span
  | error error span =>
    rw [← beq_iff_eq.mp telling]
    exact .error (by rw [ofCode?_code]; rfl) span
  | reference target spelling span =>
    obtain ⟨filled, ordered⟩ := references target List.mem_cons_self
    exact .reference ⟨of_decide_eq_true telling, filled, ordered⟩ spelling span
  | @unary operator operand known _ span ih =>
    obtain ⟨inner, unsigned⟩ := Bool.and_eq_true_iff.mp telling
    have legible := ih inner references
    cases operator with
    | plus => exact .plus legible span
    | minus => exact .minus legible span
    | percent => exact .percent legible (by simpa using unsigned) span
    | other symbol => exact absurd rfl (known symbol)
  | @binary operator left right known _ _ span first second =>
    obtain ⟨both, right⟩ := Bool.and_eq_true_iff.mp telling
    obtain ⟨solid, left⟩ := Bool.and_eq_true_iff.mp both
    obtain ⟨inLeft, inRight⟩ := List.forall_mem_append.mp references
    refine .binary (fun symbol other => ?_) (first left inLeft) (second right inRight) span
    rw [known symbol other] at other
    exact bne_iff_ne.mp solid other
  | call named gathers _ several span ih =>
    rw [isTelling, areTelling_eq] at telling
    refine .call named gathers (fun e listed solid => ?_) several span
    refine ih e listed solid (List.all_eq_true.mp telling e listed) fun target within =>
      references target ?_
    rw [Expr.references, referencesOfAll_eq]
    exact List.mem_flatMap.mpr ⟨e, listed, within⟩
  | @array rows width wide even _ span ih =>
    rw [isTelling, rowsAreTelling_eq] at telling
    by_cases none : rows = []
    · rw [none]
      exact .noRows span
    · refine .array none wide even (fun row listed e member => ?_) span
      refine ih row listed e member
        (List.all_eq_true.mp (List.all_eq_true.mp telling row listed) e member) fun target within =>
          references target ?_
      rw [Expr.references, referencesOfRows_eq]
      exact List.mem_flatMap.mpr ⟨row, listed, List.mem_flatMap.mpr ⟨e, member, within⟩⟩

/-- Whether the nodes of a tree are told does not depend on tokens and spellings. -/
theorem isTelling_bare (e : Expr) : e.bare.isTelling = e.isTelling := by
  have each : ∀ {list : List Expr}, (∀ e ∈ list, e.bare.isTelling = e.isTelling) →
      (list.map (led some)).all isTelling = list.all isTelling := by
    intro list same
    induction list with
    | nil => rfl
    | cons e rest ih =>
      obtain ⟨first, others⟩ := List.forall_mem_cons.mp same
      rw [List.map_cons, List.all_cons, List.all_cons, ih others]
      exact congrArg (· && _) first
  induction e with
  | literal value span => cases value <;> rfl
  | reference target spelling span => rfl
  | unary operator operand span ih =>
    have signs : operand.bare.isSigned = operand.isSigned := by
      cases operand with
      | unary operator _ _ => cases operator <;> rfl
      | _ => rfl
    show (operand.bare.isTelling && !(operator == .percent && operand.bare.isSigned)) = _
    rw [ih, signs]
    rfl
  | binary operator left right span first second =>
    show (operator != .other "," && left.bare.isTelling && right.bare.isTelling) = _
    rw [first, second]
    rfl
  | call name arguments span ih =>
    simp only [bare, led, isTelling, ledAll_eq, areTelling_eq]
    exact each ih
  | array rows span ih =>
    simp only [bare, led, isTelling, ledRows_eq, rowsAreTelling_eq]
    induction rows with
    | nil => rfl
    | cons row rest inner =>
      obtain ⟨first, others⟩ := List.forall_mem_cons.mp ih
      rw [List.map_cons, List.all_cons, List.all_cons, inner others, each first]

end Expr

end Spreadsheet
