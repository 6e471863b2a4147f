import Spreadsheet.Redirection.References

/-!
# Trees and where their references lead

Two trees mean the same when they differ in nothing but the tokens they came from and the spelling of
their references. A redirection replaces each reference by another one or by an error and leaves the
rest of a tree alone.
-/
namespace Spreadsheet

namespace Expr

/-- What holds of literals and references, and of every larger tree if it holds of its parts, holds
of all trees. -/
@[elab_as_elim, induction_eliminator]
theorem induction {motive : Expr → Prop} (literal : ∀ value span, motive (.literal value span))
    (reference : ∀ target spelling span, motive (.reference target spelling span))
    (unary : ∀ operator operand span, motive operand → motive (.unary operator operand span))
    (binary : ∀ operator left right span, motive left → motive right →
      motive (.binary operator left right span))
    (call : ∀ name arguments span, (∀ e ∈ arguments, motive e) → motive (.call name arguments span))
    (array : ∀ rows span, (∀ row ∈ rows, ∀ e ∈ row, motive e) → motive (.array rows span))
    (e : Expr) : motive e :=
  @Expr.rec motive (fun list => ∀ e ∈ list, motive e)
    (fun rows => ∀ row ∈ rows, ∀ e ∈ row, motive e)
    literal reference unary binary call array
    (fun _ none => absurd none List.not_mem_nil)
    (fun _ _ first others => List.forall_mem_cons.mpr ⟨first, others⟩)
    (fun _ none => absurd none List.not_mem_nil)
    (fun _ _ first others => List.forall_mem_cons.mpr ⟨first, others⟩) e

/-! ### References -/

/-- The references of several trees are those of each. -/
@[simp] theorem referencesOfAll_eq (list : List Expr) :
    referencesOfAll list = list.flatMap references := by
  induction list with
  | nil => rfl
  | cons e rest ih => rw [referencesOfAll, ih, List.flatMap_cons]

/-- The references of rows of trees are those of each. -/
@[simp] theorem referencesOfRows_eq (rows : List (List Expr)) :
    referencesOfRows rows = rows.flatMap fun row => row.flatMap references := by
  induction rows with
  | nil => rfl
  | cons row rest ih => rw [referencesOfRows, ih, referencesOfAll_eq, List.flatMap_cons]

/-- Replacing the references of several trees replaces those of each. -/
theorem mapReferencesOfAll_eq (f : Reference → String → Option Span → Expr) (list : List Expr) :
    mapReferencesOfAll f list = list.map (mapReferences f) := by
  induction list with
  | nil => rfl
  | cons e rest ih => rw [mapReferencesOfAll, ih, List.map_cons]

/-- Replacing the references of rows of trees replaces those of each. -/
theorem mapReferencesOfRows_eq (f : Reference → String → Option Span → Expr)
    (rows : List (List Expr)) :
    mapReferencesOfRows f rows = rows.map fun row => row.map (mapReferences f) := by
  induction rows with
  | nil => rfl
  | cons row rest ih => rw [mapReferencesOfRows, mapReferencesOfAll_eq, ih, List.map_cons]

/-! ### Trees without tokens and spellings -/

mutual

/-- The tree in which every reference is the one that `lead` gives for it, or an error, without
tokens and spellings. -/
def led (lead : Reference → Option Reference) : Expr → Expr
  | .literal value _ => .literal value none
  | .reference target _ _ =>
    match lead target with
    | some new => .reference new "" none
    | none => .literal (.error .invalidReference) none
  | .unary operator operand _ => .unary operator (operand.led lead) none
  | .binary operator left right _ => .binary operator (left.led lead) (right.led lead) none
  | .call name arguments _ => .call name (ledAll lead arguments) none
  | .array rows _ => .array (ledRows lead rows) none

/-- Lead the references of several trees. -/
def ledAll (lead : Reference → Option Reference) : List Expr → List Expr
  | [] => []
  | e :: rest => e.led lead :: ledAll lead rest

/-- Lead the references of rows of trees. -/
def ledRows (lead : Reference → Option Reference) : List (List Expr) → List (List Expr)
  | [] => []
  | row :: rest => ledAll lead row :: ledRows lead rest

end

/-- The tree without tokens and spellings. -/
def bare (e : Expr) : Expr := e.led some

/-- Leading the references of several trees leads those of each. -/
@[simp] theorem ledAll_eq (lead : Reference → Option Reference) (list : List Expr) :
    ledAll lead list = list.map (led lead) := by
  induction list with
  | nil => rfl
  | cons e rest ih => rw [ledAll, ih, List.map_cons]

/-- Leading the references of rows of trees leads those of each. -/
@[simp] theorem ledRows_eq (lead : Reference → Option Reference) (rows : List (List Expr)) :
    ledRows lead rows = rows.map fun row => row.map (led lead) := by
  induction rows with
  | nil => rfl
  | cons row rest ih => rw [ledRows, ledAll_eq, ih, List.map_cons]

variable {lead lead' : Reference → Option Reference} {e e' : Expr}

/-- Leading references twice leads them along both ways. -/
theorem led_led (e : Expr) :
    (e.led lead).led lead' = e.led fun target => (lead target).bind lead' := by
  induction e with
  | literal value span => rfl
  | reference target spelling span =>
    cases found : lead target <;> simp [led, found]
  | unary operator operand span ih => simp [led, ih]
  | binary operator left right span first second => simp [led, first, second]
  | call name arguments span ih => simpa [led] using ih
  | array rows span ih => simpa [led] using ih

/-- Leading references pays no regard to tokens and spellings. -/
theorem bare_led (e : Expr) : e.bare.led lead = e.led lead := led_led e

/-- The references of a tree that was led elsewhere are those to which its own were led. -/
theorem references_led (e : Expr) : (e.led lead).references = e.references.filterMap lead := by
  induction e with
  | literal value span => rfl
  | reference target spelling span =>
    cases found : lead target <;> simp [led, references, found]
  | unary operator operand span ih => simpa [led, references] using ih
  | binary operator left right span first second =>
    simp [led, references, first, second, List.filterMap_append]
  | call name arguments span ih =>
    simp only [led, references, ledAll_eq, referencesOfAll_eq, List.flatMap_map,
      List.filterMap_flatMap]
    rw [List.flatMap, List.flatMap, List.map_congr_left ih]
  | array rows span ih =>
    simp only [led, references, ledRows_eq, referencesOfRows_eq, List.flatMap_map,
      List.filterMap_flatMap]
    have rowwise : ∀ row ∈ rows, (row.flatMap fun e => (e.led lead).references) =
        row.flatMap fun e => e.references.filterMap lead := fun row within => by
      rw [List.flatMap, List.flatMap, List.map_congr_left (ih row within)]
    rw [List.flatMap, List.flatMap, List.map_congr_left rowwise]

/-- References do not depend on tokens and spellings. -/
theorem references_bare (e : Expr) : e.bare.references = e.references := by
  rw [bare, references_led, List.filterMap_some]

/-- Trees are led to the same exactly if each of their references is. -/
theorem led_eq_led_iff :
    e.led lead = e.led lead' ↔ ∀ target ∈ e.references, lead target = lead' target := by
  induction e with
  | literal value span => simp [led, references]
  | reference target spelling span =>
    cases found : lead target <;> cases found' : lead' target <;>
      simp [led, references, found, found']
  | unary operator operand span ih => simpa [led, references] using ih
  | binary operator left right span first second =>
    simp [led, references, first, second, or_imp, forall_and]
  | call name arguments span ih =>
    simp only [led, references, ledAll_eq, referencesOfAll_eq, call.injEq, and_true, true_and,
      List.map_inj_left, List.mem_flatMap]
    constructor
    · rintro same target ⟨e, listed, inside⟩
      exact (ih e listed).mp (same e listed) target inside
    · exact fun same e listed => (ih e listed).mpr fun target inside => same target ⟨e, listed, inside⟩
  | array rows span ih =>
    simp only [led, references, ledRows_eq, referencesOfRows_eq, array.injEq, and_true,
      List.map_inj_left, List.mem_flatMap]
    constructor
    · rintro same target ⟨row, within, e, listed, inside⟩
      exact (ih row within e listed).mp (same row within e listed) target inside
    · exact fun same row within e listed => (ih row within e listed).mpr fun target inside =>
        same target ⟨row, within, e, listed, inside⟩

/-- A tree stays what it is exactly if all of its references do. -/
theorem led_eq_bare_iff : e.led lead = e.bare ↔ ∀ target ∈ e.references, lead target = some target :=
  led_eq_led_iff

end Expr

namespace Fate

/-- The reference that one becomes, if it is not lost. -/
def target? (target : Reference) : Fate → Option Reference
  | stays => some target
  | becomes new => some new
  | isLost => none

/-- Where a reference ends up that is given its target. -/
@[simp] theorem target?_ofTarget? (target : Reference) (new : Option Reference) :
    (ofTarget? new).target? target = new := by
  cases new <;> rfl

/-- A reference that does not change stays what it is. -/
theorem target?_of_not_changes {target : Reference} {fate : Fate}
    (unchanged : ¬ fate.changes target = true) : fate.target? target = some target := by
  cases fate with
  | stays => rfl
  | becomes new =>
    have same : new = target := by simpa [changes] using unchanged
    rw [same]
    rfl
  | isLost => exact absurd rfl unchanged

/-- The node of a reference stands for what it becomes. -/
theorem led_node (target : Reference) (spelling : String) (span : Option Span) (fate : Fate)
    (lead : Reference → Option Reference) :
    (fate.node target spelling span).led lead =
      (Expr.reference target spelling span).led fun target => (fate.target? target).bind lead := by
  cases fate with
  | stays => rfl
  | becomes new =>
    by_cases same : new = target
    · simp [node, same, Expr.led, target?]
    · simp [node, same, Expr.led, target?]
  | isLost => rfl

/-- The references of the node of a reference. -/
theorem references_node (target : Reference) (spelling : String) (span : Option Span) (fate : Fate) :
    (fate.node target spelling span).references = (fate.target? target).toList := by
  cases fate with
  | stays => rfl
  | becomes new =>
    by_cases same : new = target
    · simp [node, same, Expr.references, target?]
    · simp [node, same, Expr.references, target?]
  | isLost => rfl

end Fate

namespace Expr

variable {fate : Reference → Fate} {e e' : Expr}

/-- Changing every reference as `fate` says leads it there. -/
theorem led_mapReferences (lead : Reference → Option Reference) (e : Expr) :
    (e.mapReferences fun target spelling span => (fate target).node target spelling span).led lead =
      e.led fun target => ((fate target).target? target).bind lead := by
  induction e with
  | literal value span => rfl
  | reference target spelling span => exact Fate.led_node target spelling span (fate target) lead
  | unary operator operand span ih => simp [mapReferences, led, ih]
  | binary operator left right span first second => simp [mapReferences, led, first, second]
  | call name arguments span ih =>
    simpa [mapReferences, mapReferencesOfAll_eq, led] using ih
  | array rows span ih =>
    simpa [mapReferences, mapReferencesOfRows_eq, led] using ih

/-- A reference of the changed tree is what one of the tree became. -/
theorem mem_references_mapReferences {new : Reference}
    (listed : new ∈ (e.mapReferences fun target spelling span =>
      (fate target).node target spelling span).references) :
    ∃ target ∈ e.references, (fate target).target? target = some new := by
  induction e with
  | literal value span => exact absurd listed List.not_mem_nil
  | reference target spelling span =>
    rw [mapReferences, Fate.references_node, Option.mem_toList] at listed
    exact ⟨target, List.mem_cons_self, listed⟩
  | unary operator operand span ih => exact ih listed
  | binary operator left right span first second =>
    simp only [mapReferences, references, List.mem_append] at listed ⊢
    rcases listed with inside | inside
    · obtain ⟨target, there, became⟩ := first inside
      exact ⟨target, .inl there, became⟩
    · obtain ⟨target, there, became⟩ := second inside
      exact ⟨target, .inr there, became⟩
  | call name arguments span ih =>
    simp only [mapReferences, references, mapReferencesOfAll_eq, referencesOfAll_eq,
      List.mem_flatMap, List.mem_map] at listed ⊢
    obtain ⟨_, ⟨e, member, rfl⟩, inside⟩ := listed
    obtain ⟨target, there, became⟩ := ih e member inside
    exact ⟨target, ⟨e, member, there⟩, became⟩
  | array rows span ih =>
    simp only [mapReferences, references, mapReferencesOfRows_eq, referencesOfRows_eq,
      List.mem_flatMap, List.mem_map] at listed ⊢
    obtain ⟨_, ⟨row, within, rfl⟩, _, member, inside⟩ := listed
    obtain ⟨e, listed, rfl⟩ := List.mem_map.mp member
    obtain ⟨target, there, became⟩ := ih row within e listed inside
    exact ⟨target, ⟨row, within, e, listed, there⟩, became⟩

/-- A redirection leads the references of a tree, whether it changes the tree or not. -/
theorem led_redirect? (lead : Reference → Option Reference) (e : Expr) :
    ((e.redirect? fate).getD e).led lead =
      e.led fun target => ((fate target).target? target).bind lead := by
  unfold redirect?
  split
  · exact led_mapReferences lead e
  · rename_i unchanged
    refine led_eq_led_iff.mpr fun target listed => ?_
    have stays := Fate.target?_of_not_changes fun changes =>
      unchanged (List.any_eq_true.mpr ⟨target, listed, changes⟩)
    rw [stays]
    rfl

/-- A reference of a redirected tree is what one of the tree became. -/
theorem mem_references_redirect? (changed : e.redirect? fate = some e') {new : Reference}
    (listed : new ∈ e'.references) :
    ∃ target ∈ e.references, (fate target).target? target = some new := by
  unfold redirect? at changed
  split at changed
  · obtain rfl := Option.some.inj changed
    exact mem_references_mapReferences listed
  · contradiction

end Expr

end Spreadsheet
