import Spreadsheet.Proofs.Redirection.DeletedReferences
import Spreadsheet.Proofs.Workbook.MovedCells
import Spreadsheet.Proofs.Workbook.Requests

/-!
# Moved cells and redirected formulas

A shift moves the cells of its sheet, and the formulas of all sheets follow it with their references.
Moves can be made one after the other, and a recalculation in between or at the end makes no
difference to them.
-/
namespace Spreadsheet

/-! ### Contents that follow -/

/-- A formula after its references have been led elsewhere. It keeps its place in the order of entry,
and its text is that of its tree unless nothing has changed. -/
structure Formula.Follows (lead : Reference → Option Reference) (f f' : Formula) : Prop where
  tree : f'.tree.map Expr.bare = f.tree.map (Expr.led lead)
  sequence : f'.sequence = f.sequence
  worded : f'.tree = f.tree ∧ f'.text = f.text ∨ ∃ e, f'.tree = .ok e ∧ f'.text = e.render

/-- Content after the references of its formula have been led elsewhere. -/
inductive Content.Follows (lead : Reference → Option Reference) : Content → Content → Prop where
  | empty : Follows lead .empty .empty
  | literal (typed : String) (value : Value) :
    Follows lead (.literal typed value) (.literal typed value)
  | formula {f f' : Formula} (follows : f.Follows lead f') : Follows lead (.formula f) (.formula f')

variable {lead lead' : Reference → Option Reference}

/-- Trees of formulas that follow twice. -/
theorem Expr.map_led_of_map_bare {tree tree' : Except FormulaError Expr}
    (same : tree'.map Expr.bare = tree.map (Expr.led lead)) :
    tree'.map (Expr.led lead') = tree.map (Expr.led fun target => (lead target).bind lead') := by
  cases tree with
  | error fault =>
    cases tree' with
    | error fault' =>
      have faults : fault' = fault := Except.error.inj same
      rw [faults]
      rfl
    | ok e' => exact absurd same fun kinds => by contradiction
  | ok e =>
    cases tree' with
    | error fault' => exact absurd same fun kinds => by contradiction
    | ok e' =>
      have bare : e'.bare = e.led lead := Except.ok.inj same
      show Except.ok (e'.led lead') = Except.ok _
      rw [← Expr.bare_led, bare, Expr.led_led]

namespace Formula

variable {f f' f'' : Formula}

/-- A formula that follows twice follows along both ways. -/
theorem Follows.trans (first : f.Follows lead f') (second : f'.Follows lead' f'') :
    f.Follows (fun target => (lead target).bind lead') f'' where
  tree := second.tree.trans (Expr.map_led_of_map_bare first.tree)
  sequence := second.sequence.trans first.sequence
  worded := by
    rcases second.worded with ⟨tree, text⟩ | other
    · rcases first.worded with same | ⟨e, rendered, words⟩
      · exact .inl ⟨tree.trans same.1, text.trans same.2⟩
      · exact .inr ⟨e, tree.trans rendered, text.trans words⟩
    · exact .inr other

/-- The tree of a formula that follows. -/
theorem Follows.expr? (follows : f.Follows lead f') {e : Expr} (typed : f.expr? = some e) :
    ∃ e', f'.expr? = some e' ∧ e'.bare = e.led lead := by
  have led := follows.tree
  unfold Formula.expr? at typed ⊢
  cases reading : f.tree with
  | error fault =>
    rw [reading] at typed
    contradiction
  | ok e₁ =>
    obtain rfl : e₁ = e := by
      rw [reading] at typed
      exact Option.some.inj typed
    rw [reading] at led
    cases reading' : f'.tree with
    | error fault =>
      rw [reading'] at led
      exact absurd led fun kinds => by contradiction
    | ok e' =>
      rw [reading'] at led
      exact ⟨e', rfl, Except.ok.inj led⟩

/-- A formula follows a redirection of its references, whether that changes it or not. -/
theorem follows_redirect? (f : Formula) (fate : Reference → Fate) :
    f.Follows (fun target => (fate target).target? target)
      (match f.expr?.bind (·.redirect? fate) with
        | some e => f.withExpr e
        | none => f) := by
  obtain ⟨text, tree, sequence, value, format⟩ := f
  cases tree with
  | error fault => exact ⟨rfl, rfl, .inl ⟨rfl, rfl⟩⟩
  | ok e =>
    have led : ((e.redirect? fate).getD e).led some = _ := Expr.led_redirect? some e
    simp only [Option.bind_fun_some] at led
    show Follows _ _ (match e.redirect? fate with
      | some e => _
      | none => _)
    cases changed : e.redirect? fate with
    | none =>
      rw [changed] at led
      exact ⟨congrArg Except.ok led, rfl, .inl ⟨rfl, rfl⟩⟩
    | some e' =>
      rw [changed] at led
      exact ⟨congrArg Except.ok led, rfl, .inr ⟨e', rfl, rfl⟩⟩

end Formula

namespace Content

variable {content content' content'' : Content}

/-- Content that follows twice follows along both ways. -/
theorem Follows.trans (first : content.Follows lead content')
    (second : content'.Follows lead' content'') :
    content.Follows (fun target => (lead target).bind lead') content'' := by
  cases first with
  | empty =>
    cases second
    exact .empty
  | literal typed value =>
    cases second
    exact .literal typed value
  | formula follows =>
    cases second with
    | formula further => exact .formula (follows.trans further)

/-- Content follows another one up to its result. -/
theorem Follows.congr (follows : content.Follows lead content')
    (same : content''.source = content'.source) : content.Follows lead content'' := by
  cases follows with
  | empty =>
    cases content'' with
    | empty => exact .empty
    | _ => contradiction
  | literal typed value =>
    cases content'' with
    | literal typed' value' =>
      rw [Content.literal.inj same |>.1, Content.literal.inj same |>.2]
      exact .literal typed value
    | _ => contradiction
  | @formula f f' follows =>
    cases content'' with
    | formula f'' =>
      have cleared : f''.cleared = f'.cleared := Content.formula.inj same
      have tree : f''.tree = f'.tree := (congrArg Formula.tree cleared :)
      have text : f''.text = f'.text := (congrArg Formula.text cleared :)
      have sequence : f''.sequence = f'.sequence := (congrArg Formula.sequence cleared :)
      refine .formula ⟨?_, sequence.trans follows.sequence, ?_⟩
      · rw [tree]
        exact follows.tree
      · rw [tree, text]
        exact follows.worded
    | _ => contradiction

/-- Content without references to lead stays. -/
theorem follows_refl (content : Content) : content.Follows some content := by
  cases content with
  | empty => exact .empty
  | literal typed value => exact .literal typed value
  | formula f => exact .formula ⟨rfl, rfl, .inl ⟨rfl, rfl⟩⟩

/-- The tree of content that follows. -/
theorem Follows.expr? (follows : content.Follows lead content') {e : Expr}
    (typed : content.expr? = some e) : ∃ e', content'.expr? = some e' ∧ e'.bare = e.led lead := by
  cases follows with
  | empty => contradiction
  | literal typed' value => contradiction
  | formula follows => exact follows.expr? typed

/-- Only no content follows no content. -/
theorem Follows.eq_empty (follows : (Content.empty).Follows lead content') : content' = .empty := by
  cases follows
  rfl

end Content

/-! ### Moved cells -/

/-- Where a shift moves a position. -/
def Shift.move (s : Shift) (p : Position) : Option Position :=
  if p.sheet = s.sheet then
    (s.mapPlace p.row p.column).map fun (row, column) => ⟨p.sheet, row, column⟩
  else some p

/-- A shift moves cells within their sheet. -/
theorem Shift.sheet_of_move {s : Shift} {p q : Position} (moved : s.move p = some q) :
    q.sheet = p.sheet := by
  unfold move at moved
  split at moved
  · obtain ⟨place, _, rfl⟩ := Option.map_eq_some_iff.mp moved
    rfl
  · rw [Option.some.inj moved]

/-- Where a shift leads a reference in a formula on a sheet. -/
def Registry.follow (r : Registry) (s : Shift) (home : SheetId) (target : Reference) :
    Option Reference :=
  if r.resolve target.sheet home = some s.sheet then target.shifted s else some target

/-- A shift redirects references to where it leads them. -/
theorem Registry.follow_eq (r : Registry) (s : Shift) (home : SheetId) :
    r.follow s home = fun target =>
      Fate.target? target (if r.resolve target.sheet home = some s.sheet then
        .ofTarget? (target.shifted s) else .stays) := by
  funext target
  unfold follow
  split
  · rw [Fate.target?_ofTarget?]
  · rfl

namespace Workbook

variable {w w' w'' : Workbook} {move move' : Position → Option Position}
  {lead lead' : SheetId → Reference → Option Reference}

/-- The cells of one workbook have been moved in another one, formulas following with their
references. There is nothing where no cell was moved. -/
structure Relocated (move : Position → Option Position)
    (lead : SheetId → Reference → Option Reference) (w w' : Workbook) : Prop where
  registry : w'.registry = w.registry
  follows : ∀ p q, move p = some q → (w.content p).Follows (lead p.sheet) (w'.content q)
  chosen : ∀ p q, move p = some q → w'.chosen q = w.chosen p
  empty : ∀ q, (∀ p, move p ≠ some q) → w'.content q = .empty
  unchosen : ∀ q, (∀ p, move p ≠ some q) → w'.chosen q = none

namespace Relocated

/-- A workbook in which nothing was moved. -/
theorem refl (w : Workbook) : Relocated some (fun _ => some) w w where
  registry := rfl
  follows p q stays := by
    obtain rfl := Option.some.inj stays
    exact Content.follows_refl _
  chosen p q stays := by rw [Option.some.inj stays]
  empty q nowhere := absurd rfl (nowhere q)
  unchosen q nowhere := absurd rfl (nowhere q)

/-- Cells that are moved twice. -/
theorem trans (first : Relocated move lead w w') (second : Relocated move' lead' w' w'')
    (within : ∀ p q, move p = some q → q.sheet = p.sheet) :
    Relocated (fun p => (move p).bind move')
      (fun home target => (lead home target).bind (lead' home)) w w'' where
  registry := second.registry.trans first.registry
  follows p q moved := by
    obtain ⟨mid, before, after⟩ := Option.bind_eq_some_iff.mp moved
    have further := second.follows mid q after
    rw [within p mid before] at further
    exact (first.follows p mid before).trans further
  chosen p q moved := by
    obtain ⟨mid, before, after⟩ := Option.bind_eq_some_iff.mp moved
    rw [second.chosen mid q after, first.chosen p mid before]
  empty q nowhere := by
    by_cases came : ∃ mid, move' mid = some q
    · obtain ⟨mid, after⟩ := came
      have blank := first.empty mid fun p before => nowhere p (by rw [before, Option.bind_some, after])
      have follows := second.follows mid q after
      rw [blank] at follows
      exact follows.eq_empty
    · exact second.empty q fun mid after => came ⟨mid, after⟩
  unchosen q nowhere := by
    by_cases came : ∃ mid, move' mid = some q
    · obtain ⟨mid, after⟩ := came
      rw [second.chosen mid q after]
      exact first.unchosen mid fun p before => nowhere p (by rw [before, Option.bind_some, after])
    · exact second.unchosen q fun mid after => came ⟨mid, after⟩

/-- Results do not matter to what was moved. -/
theorem of_sameSources (relocated : Relocated move lead w w') (same : SameSources w' w'') :
    Relocated move lead w w'' where
  registry := same.registry.trans relocated.registry
  follows p q moved := (relocated.follows p q moved).congr (same.source q)
  chosen p q moved := (same.chosen q).trans (relocated.chosen p q moved)
  empty q nowhere := by
    have source := same.source q
    rw [relocated.empty q nowhere] at source
    cases typed : w''.content q with
    | empty => rfl
    | _ =>
      rw [typed] at source
      contradiction
  unchosen q nowhere := (same.chosen q).trans (relocated.unchosen q nowhere)

/-- What was moved depends on the names of sheets and on their cells only. -/
theorem congr {v v' : Workbook} (relocated : Relocated move lead w w')
    (names : v.registry = w.registry) (sheets : v.sheets = w.sheets)
    (names' : v'.registry = w'.registry) (sheets' : v'.sheets = w'.sheets) :
    Relocated move lead v v' where
  registry := names'.trans (relocated.registry.trans names.symm)
  follows p q moved := by
    rw [content_congr sheets, content_congr sheets']
    exact relocated.follows p q moved
  chosen p q moved := by
    rw [chosen_congr sheets, chosen_congr sheets']
    exact relocated.chosen p q moved
  empty q nowhere := by
    rw [content_congr sheets']
    exact relocated.empty q nowhere
  unchosen q nowhere := by
    rw [chosen_congr sheets']
    exact relocated.unchosen q nowhere

end Relocated

/-- Restructuring a sheet applies the shifts; the rest of it concerns results, the clipboard and what
formulas read. -/
theorem exists_restructured (w : Workbook) (sheet : SheetId) (shifts : List Shift) :
    ∃ w₀ : Workbook, w₀.registry = w.registry ∧ w₀.sheets = w.sheets ∧
      (w.restructure sheet shifts).registry = (shifts.foldl applyShift w₀).registry ∧
        (w.restructure sheet shifts).sheets = (shifts.foldl applyShift w₀).sheets :=
  ⟨({ w with clipboard := w.clipboard.filter fun c =>
    !shifts.any fun s => c.isEndedBy s }).forgetResults sheet, rfl, rfl, rfl, rfl⟩

/-- Where a shift takes a place of its sheet. -/
theorem place_mapPlace_eq_some_iff (s : Shift) {p p' : Place} :
    ((s.mapPlace p.row p.column).map fun (row, column) => Place.mk row column) = some p' ↔
      s.move ⟨s.sheet, p.row, p.column⟩ = some ⟨s.sheet, p'.row, p'.column⟩ := by
  simp only [Shift.move, if_true, Option.map_eq_some_iff, Prod.exists, Position.mk.injEq, true_and]
  constructor
  · rintro ⟨row, column, found, rfl⟩
    exact ⟨row, column, found, rfl, rfl⟩
  · rintro ⟨row, column, found, rfl, rfl⟩
    exact ⟨_, _, found, rfl⟩

/-- The cells of the sheet that is shifted go where the shift takes their places. -/
theorem cell?_moveCells_of_eq (w : Workbook) (s : Shift) {q : Position} (here : q.sheet = s.sheet) :
    (w.updateSheet s.sheet (moveCells s)).cell? q =
      (w.sheet? s.sheet).bind fun sheet => (sheet.relocate fun p =>
        (s.mapPlace p.row p.column).map fun (row, column) => ⟨row, column⟩).cell? q.row q.column := by
  unfold cell?
  rw [sheet?_updateSheet, if_pos here]
  cases w.sheet? s.sheet with
  | none => rfl
  | some sheet =>
    show (moveCells s sheet).cell? _ _ = _
    unfold moveCells resized
    cases s.direction <;> rfl

/-- The cells of the other sheets stay. -/
theorem cell?_moveCells_of_ne (w : Workbook) (s : Shift) {q : Position} (apart : q.sheet ≠ s.sheet) :
    (w.updateSheet s.sheet (moveCells s)).cell? q = w.cell? q := by
  unfold cell?
  rw [sheet?_updateSheet, if_neg apart]

/-- The cells of a sheet that is shifted. -/
theorem cell?_moveCells_iff (s : Shift) (agrees : ∀ p q, move p = some q → s.move p = some q)
    (stored : ∀ p, (w.cell? p).isSome = true → move p = s.move p)
    (injective : ∀ p p' q, move p = some q → move p' = some q → p = p') {q : Position} {c : Cell} :
    (w.updateSheet s.sheet (moveCells s)).cell? q = some c ↔
      ∃ p, move p = some q ∧ w.cell? p = some c := by
  have origin : ∀ {p}, move p = some q → p.sheet = q.sheet := fun moved =>
    (Shift.sheet_of_move (agrees _ _ moved)).symm
  by_cases here : q.sheet = s.sheet
  · rw [w.cell?_moveCells_of_eq s here]
    cases found : w.sheet? s.sheet with
    | none =>
      constructor
      · exact fun none => by contradiction
      · rintro ⟨p, moved, there⟩
        rw [cell?, origin moved, here, found] at there
        contradiction
    | some sheet =>
      have held : ∀ row column, w.cell? ⟨s.sheet, row, column⟩ = sheet.cell? row column := by
        intro row column
        rw [cell?, found]
        rfl
      have moves : ∀ p p' : Place, (sheet.cell? p.row p.column).isSome = true →
          ((s.mapPlace p.row p.column).map fun (row, column) => Place.mk row column) = some p' →
            move ⟨s.sheet, p.row, p.column⟩ = some ⟨s.sheet, p'.row, p'.column⟩ := by
        intro p p' there arrives
        rw [stored _ (by rw [held]; exact there)]
        exact (place_mapPlace_eq_some_iff s).mp arrives
      rw [Option.bind_some, Sheet.cell?_relocate_iff fun p p' target there there' arrives arrives' => by
        have same := injective _ _ _ (moves p target there arrives) (moves p' target there' arrives')
        obtain ⟨_, rows, columns⟩ := Position.mk.inj same
        cases p
        cases p'
        exact Place.mk.injEq .. ▸ ⟨rows, columns⟩]
      constructor
      · rintro ⟨p, arrives, there⟩
        refine ⟨⟨s.sheet, p.row, p.column⟩, ?_, (held _ _).trans there⟩
        rw [moves p _ (by rw [there]; rfl) arrives]
        obtain ⟨sheet', row, column⟩ := q
        obtain rfl : sheet' = s.sheet := here
        rfl
      · rintro ⟨⟨sheet', row, column⟩, moved, there⟩
        obtain rfl : sheet' = s.sheet := (origin moved).trans here
        refine ⟨⟨row, column⟩, (place_mapPlace_eq_some_iff s).mpr ?_, (held row column).symm.trans there⟩
        rw [agrees _ _ moved]
        obtain ⟨sheet'', row', column'⟩ := q
        obtain rfl : sheet'' = s.sheet := here
        rfl
  · have stays : ∀ p, p.sheet ≠ s.sheet → s.move p = some p := fun p apart => if_neg apart
    rw [w.cell?_moveCells_of_ne s here]
    constructor
    · intro found
      refine ⟨q, ?_, found⟩
      rw [stored q (by rw [found]; rfl), stays q here]
    · rintro ⟨p, moved, found⟩
      have same := agrees p q moved
      rw [stays p (by rw [origin moved]; exact here)] at same
      rw [← Option.some.inj same, found]

/-- A shift moves the cells of its sheet and leads the references of all formulas, as long as it
keeps the cells of the sheet apart. -/
theorem relocated_applyShift (w : Workbook) (s : Shift)
    (agrees : ∀ p q, move p = some q → s.move p = some q)
    (stored : ∀ p, (w.cell? p).isSome = true → move p = s.move p)
    (injective : ∀ p p' q, move p = some q → move p' = some q → p = p') :
    Relocated move (w.registry.follow s) w (w.applyShift s) := by
  have cells := fun {q c} => w.cell?_moveCells_iff (q := q) (c := c) s agrees stored injective
  have arrives : ∀ p q, move p = some q →
      (w.updateSheet s.sheet (moveCells s)).cell? q = w.cell? p := by
    intro p q moved
    ext c
    rw [cells]
    constructor
    · rintro ⟨p', moved', there⟩
      rwa [injective p p' q moved moved']
    · exact fun there => ⟨p, moved, there⟩
  have vacant : ∀ q, (∀ p, move p ≠ some q) →
      (w.updateSheet s.sheet (moveCells s)).cell? q = none := by
    intro q nowhere
    rw [Option.eq_none_iff_forall_ne_some]
    intro c found
    obtain ⟨p, moved, _⟩ := cells.mp found
    exact nowhere p moved
  have content : ∀ q, (w.applyShift s).content q =
      ((w.updateSheet s.sheet (moveCells s)).content q).mapFormula _ :=
    content_redirectFormulas (w.updateSheet s.sheet (moveCells s))
      ((w.updateSheet s.sheet (moveCells s)).shiftRedirection s)
  have chosen : ∀ q, (w.applyShift s).chosen q =
      (w.updateSheet s.sheet (moveCells s)).chosen q :=
    chosen_redirectFormulas (w.updateSheet s.sheet (moveCells s))
      ((w.updateSheet s.sheet (moveCells s)).shiftRedirection s)
  refine ⟨rfl, fun p q moved => ?_, fun p q moved => ?_, fun q nowhere => ?_, fun q nowhere => ?_⟩
  · have same : (w.updateSheet s.sheet (moveCells s)).content q = w.content p := by
      unfold Workbook.content
      rw [arrives p q moved]
    rw [content, same]
    cases w.content p with
    | empty => exact .empty
    | literal typed value => exact .literal typed value
    | formula f =>
      rw [← Shift.sheet_of_move (agrees p q moved), w.registry.follow_eq]
      exact .formula (f.follows_redirect? _)
  · rw [chosen]
    unfold Workbook.chosen
    rw [arrives p q moved]
  · rw [content]
    unfold Workbook.content
    rw [vacant q nowhere]
    rfl
  · rw [chosen]
    unfold Workbook.chosen
    rw [vacant q nowhere]
    rfl

/-! ### Extents -/

/-- The numbers of rows and columns of a sheet. -/
def lines? (w : Workbook) (id : SheetId) : Option (Direction → Nat) := (w.sheet? id).map Sheet.lines

/-- The numbers of rows and columns are the extent of a sheet. -/
theorem lines?_eq (w : Workbook) (id : SheetId) :
    w.lines? id = (w.extent? id).map fun extent direction =>
      match direction with
      | .rows => extent.1
      | .columns => extent.2 := by
  unfold lines? extent?
  rw [Option.map_map]
  exact congrArg (Option.map · _) (funext fun s => funext fun direction => by cases direction <;> rfl)

/-- The numbers of rows and columns depend on the sheets only. -/
theorem lines?_congr (sheets : w'.sheets = w.sheets) (id : SheetId) : w'.lines? id = w.lines? id := by
  unfold lines? sheet?
  rw [sheets]

/-- The same sheets have as many rows and columns. -/
theorem lines?_of_sameSheets (same : SameSheets w w') (id : SheetId) : w'.lines? id = w.lines? id := by
  rw [lines?_eq, lines?_eq, same.extent]

/-- The first sheet of a new workbook has as many rows and columns as the settings say. -/
theorem lines?_new (settings : Settings) (functions : FunctionTable) :
    (new settings functions).lines? Registry.empty.nextId =
      some (Sheet.blank settings.rows settings.columns).lines := by
  simp [lines?, sheet?, new]

/-- A shift changes how many rows or columns its sheet has. -/
theorem lines?_applyShift (w : Workbook) (s : Shift) (id : SheetId) :
    (w.applyShift s).lines? id =
      if id = s.sheet then (w.lines? id).map fun lines =>
        Function.update lines s.direction (match s.change with
          | .insertion => lines s.direction + s.count
          | .deletion => lines s.direction - s.count)
      else w.lines? id := by
  have extent : (w.applyShift s).extent? id = (w.updateSheet s.sheet (moveCells s)).extent? id :=
    extent?_redirectFormulas _ _ _
  rw [lines?_eq, extent, ← lines?_eq]
  unfold lines?
  rw [sheet?_updateSheet]
  split
  · rename_i here
    rw [here]
    cases w.sheet? s.sheet with
    | none => rfl
    | some sheet =>
      refine congrArg some (funext fun direction => ?_)
      unfold moveCells resized
      cases s.direction <;> cases direction <;> rfl
  · rfl

end Workbook

end Spreadsheet
