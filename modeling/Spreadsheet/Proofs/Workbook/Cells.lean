import Spreadsheet.Proofs.Address.Zones
import Spreadsheet.Workbook.Basic

/-!
# Cells of a workbook

A change of one cell shows at its position and nowhere else. The extents of sheets, and with them
the zones that references cover, depend on no cell. The list of formulas holds each formula once.
-/
namespace Spreadsheet

namespace Content

/-- Change the formula, if the content is one. -/
def mapFormula (change : Formula → Formula) : Content → Content
  | .formula f => .formula (change f)
  | content => content

/-- The tree of the content, if it is a formula that has one. -/
def expr? (content : Content) : Option Expr := content.formula?.bind Formula.expr?

/-- Changing a formula changes the formula of the content. -/
@[simp] theorem formula?_mapFormula (change : Formula → Formula) (content : Content) :
    (content.mapFormula change).formula? = content.formula?.map change := by
  cases content <;> rfl

/-- Changing a formula neither fills a position nor empties it. -/
@[simp] theorem isEmpty_mapFormula (change : Formula → Formula) (content : Content) :
    (content.mapFormula change).isEmpty = content.isEmpty := by
  cases content <;> rfl

/-- A formula is content. -/
theorem isEmpty_of_formula? {content : Content} {f : Formula} (found : content.formula? = some f) :
    content.isEmpty = false := by
  cases content with
  | empty => contradiction
  | literal typed value => rfl
  | formula g => rfl

/-- Content is a formula if it has one. -/
theorem eq_formula {content : Content} {f : Formula} (found : content.formula? = some f) :
    content = .formula f := by
  cases content with
  | empty => contradiction
  | literal typed value => contradiction
  | formula g => rw [Option.some.inj found]

end Content

namespace Cell

/-- A cell as a sheet keeps it: a blank one has no entry. -/
def kept (c : Cell) : Option Cell := if c.isBlank then none else some c

/-- A cell that has no entry is blank, so its content is not lost. -/
theorem content_kept (c : Cell) : (c.kept.map content).getD .empty = c.content := by
  obtain ⟨content, format⟩ := c
  cases content with
  | empty =>
    unfold kept
    split <;> rfl
  | literal typed value => rfl
  | formula f => rfl

/-- A cell that has no entry is blank, so its format is not lost. -/
theorem format_kept (c : Cell) : c.kept.bind format = c.format := by
  obtain ⟨content, format⟩ := c
  cases format with
  | none =>
    unfold kept
    split <;> rfl
  | some format => simp [kept, isBlank]

/-- Changing a formula changes the content of a cell. -/
@[simp] theorem content_mapFormula (change : Formula → Formula) (c : Cell) :
    (c.mapFormula change).content = c.content.mapFormula change := by
  obtain ⟨content, format⟩ := c
  cases content <;> rfl

/-- Changing a formula leaves the chosen format as it is. -/
@[simp] theorem format_mapFormula (change : Formula → Formula) (c : Cell) :
    (c.mapFormula change).format = c.format := by
  obtain ⟨content, format⟩ := c
  cases content <;> rfl

end Cell

namespace Sheet

variable (s : Sheet) (row column row' column' : Nat)

/-- A change of one cell of a sheet, blank cells being dropped, shows there and nowhere else. -/
theorem cell?_prune_update (change : Cell → Cell) :
    ((s.update row column change).prune row column).cell? row' column' =
      if row' = row ∧ column' = column then (change ((s.cell? row column).getD .blank)).kept
      else s.cell? row' column' := by
  have updated : (s.update row column change).cell? row column =
      some (change ((s.cell? row column).getD .blank)) := by
    simp [update, cell?]
  by_cases here : row' = row ∧ column' = column
  · obtain ⟨rfl, rfl⟩ := here
    rw [if_pos ⟨rfl, rfl⟩]
    unfold prune
    rw [updated]
    by_cases blank : (change ((s.cell? row' column').getD .blank)).isBlank = true
    · simp only [Option.any_some, blank, ↓reduceIte, Cell.kept]
      simp [cell?]
    · simp only [Option.any_some, blank, Bool.false_eq_true, ↓reduceIte, updated, Cell.kept]
  · rw [if_neg here]
    have elsewhere : (Place.mk row column) ≠ Place.mk row' column' := fun same => by
      rw [Place.mk.injEq] at same
      exact here ⟨same.1.symm, same.2.symm⟩
    unfold prune
    split
    · simp [cell?, update, Std.ExtTreeMap.getElem?_erase, Std.ExtTreeMap.getElem?_insert, elsewhere]
    · simp [cell?, update, Std.ExtTreeMap.getElem?_insert, elsewhere]

/-- A change of one cell leaves the number of rows. -/
@[simp] theorem rows_prune_update (change : Cell → Cell) :
    ((s.update row column change).prune row column).rows = s.rows := by
  unfold prune
  split <;> rfl

/-- A change of one cell leaves the number of columns. -/
@[simp] theorem columns_prune_update (change : Cell → Cell) :
    ((s.update row column change).prune row column).columns = s.columns := by
  unfold prune
  split <;> rfl

/-- Changing formulas changes every cell in its place. -/
@[simp] theorem cell?_mapFormulas (change : Formula → Formula) :
    (s.mapFormulas change).cell? row column =
      (s.cell? row column).map (Cell.mapFormula change) := by
  simp [mapFormulas, cell?]

/-- The formulas of a sheet are those of its cells. -/
theorem mem_formulas {p : Place} {f : Formula} :
    (p, f) ∈ s.formulas ↔ (s.cell? p.row p.column).bind Cell.formula? = some f := by
  simp only [formulas, List.mem_filterMap, Prod.exists,
    Std.ExtTreeMap.mem_toList_iff_getElem?_eq_some, cell?]
  constructor
  · rintro ⟨place, c, found, listed⟩
    obtain ⟨g, formula, same⟩ := Option.map_eq_some_iff.mp listed
    obtain ⟨rfl, rfl⟩ := Prod.mk.inj same
    exact Option.bind_eq_some_iff.mpr ⟨c, found, formula⟩
  · intro found
    obtain ⟨c, entry, formula⟩ := Option.bind_eq_some_iff.mp found
    exact ⟨p, c, entry, by rw [formula]; rfl⟩

end Sheet

namespace Workbook

variable {w : Workbook} {p q : Position} {id id' : SheetId}

/-- The rows and columns of a sheet. -/
def extent? (w : Workbook) (id : SheetId) : Option (Nat × Nat) :=
  (w.sheet? id).map fun s => (s.rows, s.columns)

/-- A change of one sheet shows there and nowhere else. -/
theorem sheet?_updateSheet (w : Workbook) (id id' : SheetId) (change : Sheet → Sheet) :
    (w.updateSheet id change).sheet? id' =
      if id' = id then (w.sheet? id).map change else w.sheet? id' := by
  simp only [sheet?, updateSheet, Std.ExtTreeMap.getElem?_modify,
    Std.LawfulEqOrd.compare_eq_iff_eq, eq_comm (a := id)]

/-- What was typed into a position. -/
def content (w : Workbook) (p : Position) : Content := ((w.cell? p).map Cell.content).getD .empty

/-- The tree of the formula at a position, if it has one. -/
def expr? (w : Workbook) (p : Position) : Option Expr := (w.content p).expr?

/-- The format chosen for a position. -/
def chosen (w : Workbook) (p : Position) : Option String := (w.cell? p).bind Cell.format

/-- The formula of a position is its content. -/
theorem formula?_eq (w : Workbook) (p : Position) : w.formula? p = (w.content p).formula? := by
  unfold formula? content
  cases w.cell? p <;> rfl

/-- A position has content if that is not empty. -/
theorem hasContent_eq (w : Workbook) (p : Position) : w.hasContent p = !(w.content p).isEmpty := by
  unfold hasContent content
  cases w.cell? p <;> rfl

/-- A change of one cell shows at its position and nowhere else. -/
theorem cell?_updateCell (w : Workbook) (p q : Position) (change : Cell → Cell) :
    (w.updateCell p change).cell? q =
      if q = p ∧ (w.sheet? p.sheet).isSome then (change ((w.cell? p).getD .blank)).kept
      else w.cell? q := by
  unfold cell? updateCell
  rw [sheet?_updateSheet]
  obtain ⟨sheet, row, column⟩ := p
  obtain ⟨sheet', row', column'⟩ := q
  by_cases same : sheet' = sheet
  · subst same
    cases found : w.sheet? sheet' with
    | none => simp
    | some s => simp [Sheet.cell?_prune_update]
  · simp [same]

/-- A change of one cell changes its content. -/
theorem content_updateCell (w : Workbook) (p q : Position) (change : Cell → Cell) :
    (w.updateCell p change).content q =
      if q = p ∧ (w.sheet? p.sheet).isSome then (change ⟨w.content p, w.chosen p⟩).content
      else w.content q := by
  have cell : (w.cell? p).getD .blank = ⟨w.content p, w.chosen p⟩ := by
    unfold content chosen
    cases w.cell? p <;> rfl
  unfold content at *
  rw [cell?_updateCell]
  split
  · rw [Cell.content_kept, cell]
  · rfl

/-- A change of one cell changes the format chosen for it. -/
theorem chosen_updateCell (w : Workbook) (p q : Position) (change : Cell → Cell) :
    (w.updateCell p change).chosen q =
      if q = p ∧ (w.sheet? p.sheet).isSome then (change ⟨w.content p, w.chosen p⟩).format
      else w.chosen q := by
  have cell : (w.cell? p).getD .blank = ⟨w.content p, w.chosen p⟩ := by
    unfold content chosen
    cases w.cell? p <;> rfl
  unfold chosen at *
  rw [cell?_updateCell]
  split
  · rw [Cell.format_kept, cell]
  · rfl

/-- A change of one cell leaves the extents of sheets. -/
@[simp] theorem extent?_updateCell (w : Workbook) (p : Position) (change : Cell → Cell)
    (id : SheetId) : (w.updateCell p change).extent? id = w.extent? id := by
  unfold extent? updateCell
  rw [sheet?_updateSheet]
  split
  · rename_i same
    subst same
    cases w.sheet? p.sheet <;> simp
  · rfl

/-- A new workbook has no cells. -/
theorem cell?_new (settings : Settings) (functions : FunctionTable) (p : Position) :
    (new settings functions).cell? p = none := by
  unfold cell? sheet? new
  dsimp only
  rw [Std.ExtTreeMap.getElem?_insert]
  split
  · simp [Sheet.blank, Sheet.cell?]
  · simp

/-- There is a sheet where there is an extent. -/
theorem isSome_sheet?_eq (w : Workbook) (id : SheetId) :
    (w.sheet? id).isSome = (w.extent? id).isSome := by
  simp [extent?]

/-- There is a sheet where there is a formula. -/
theorem isSome_sheet?_of_formula? {f : Formula} (found : w.formula? p = some f) :
    (w.sheet? p.sheet).isSome = true := by
  obtain ⟨c, cell, _⟩ := Option.bind_eq_some_iff.mp found
  obtain ⟨s, sheet, _⟩ := Option.bind_eq_some_iff.mp cell
  rw [sheet]
  rfl

/-- Redirecting formulas changes every cell in its place. -/
theorem cell?_redirectFormulas (w : Workbook) (redirect : SheetId → Expr → Option Expr)
    (p : Position) :
    (w.redirectFormulas redirect).cell? p =
      (w.cell? p).map (Cell.mapFormula fun f =>
        match f.expr?.bind (redirect p.sheet) with
        | some e => f.withExpr e
        | none => f) := by
  unfold cell? sheet? redirectFormulas
  rw [Std.ExtTreeMap.getElem?_map]
  cases w.sheets[p.sheet]? with
  | none => rfl
  | some s => exact s.cell?_mapFormulas _ _ _

/-- Redirecting formulas changes every content in its place. -/
theorem content_redirectFormulas (w : Workbook) (redirect : SheetId → Expr → Option Expr)
    (p : Position) :
    (w.redirectFormulas redirect).content p =
      (w.content p).mapFormula fun f =>
        match f.expr?.bind (redirect p.sheet) with
        | some e => f.withExpr e
        | none => f := by
  unfold content
  rw [cell?_redirectFormulas]
  cases w.cell? p with
  | none => rfl
  | some c => exact Cell.content_mapFormula _ c

/-- Redirecting formulas leaves the chosen formats. -/
theorem chosen_redirectFormulas (w : Workbook) (redirect : SheetId → Expr → Option Expr)
    (p : Position) : (w.redirectFormulas redirect).chosen p = w.chosen p := by
  unfold chosen
  rw [cell?_redirectFormulas]
  cases w.cell? p with
  | none => rfl
  | some c => exact Cell.format_mapFormula _ c

/-- Redirecting formulas leaves the extents of sheets. -/
theorem extent?_redirectFormulas (w : Workbook) (redirect : SheetId → Expr → Option Expr)
    (id : SheetId) : (w.redirectFormulas redirect).extent? id = w.extent? id := by
  unfold extent? sheet? redirectFormulas
  rw [Std.ExtTreeMap.getElem?_map]
  cases w.sheets[id]? <;> rfl

/-- The formulas of a workbook are those of its cells. -/
theorem mem_formulas {f : Formula} : (p, f) ∈ w.formulas ↔ w.formula? p = some f := by
  simp only [formulas, List.mem_flatMap, List.mem_map, Prod.exists,
    Std.ExtTreeMap.mem_toList_iff_getElem?_eq_some, Sheet.mem_formulas, formula?, cell?, sheet?]
  constructor
  · rintro ⟨id, s, sheet, place, g, found, same⟩
    obtain ⟨rfl, rfl⟩ := Prod.mk.inj same
    simp [sheet, found]
  · intro found
    obtain ⟨c, cell, formula⟩ := Option.bind_eq_some_iff.mp found
    obtain ⟨s, sheet, entry⟩ := Option.bind_eq_some_iff.mp cell
    exact ⟨p.sheet, s, sheet, ⟨p.row, p.column⟩, f, by simp [entry, formula], rfl⟩

/-- The positions of formulas are listed. -/
theorem mem_formulaPositions : p ∈ w.formulaPositions ↔ w.isFormula p = true := by
  simp only [formulaPositions, List.mem_map, Prod.exists, isFormula, Option.isSome_iff_exists]
  constructor
  · rintro ⟨q, f, listed, rfl⟩
    exact ⟨f, mem_formulas.mp listed⟩
  · rintro ⟨f, found⟩
    exact ⟨p, f, mem_formulas.mpr found, rfl⟩

/-- The value a position shows depends on its content and on what is published there. -/
theorem value_eq (w : Workbook) (p : Position) :
    w.value p =
      match w.content p with
      | .literal _ v => v
      | .formula f =>
        match w.spills.value? p with
        | some v => v
        | none =>
          match f.value with
          | .array rows => (Grid.first? rows).getD .empty
          | v => v
      | .empty => (w.spills.value? p).getD .empty := by
  unfold value content
  cases w.cell? p with
  | none => rfl
  | some c =>
    obtain ⟨content, format⟩ := c
    cases content <;> rfl

/-- A format that is chosen is shown; else that of the result is, or what is published. -/
theorem format_eq (w : Workbook) (p : Position) :
    w.format p =
      match w.chosen p with
      | some chosen => some chosen
      | none =>
        match w.content p with
        | .formula f =>
          if (w.spills.activeZone? p).isSome then w.spills.format? p else f.format
        | .literal _ _ => none
        | .empty => w.spills.format? p := by
  unfold format chosen content
  cases w.cell? p with
  | none => rfl
  | some c =>
    obtain ⟨content, format⟩ := c
    cases format <;> cases content <;> rfl

/-- The content of a formula. -/
theorem content_of_formula? {f : Formula} (found : w.formula? p = some f) :
    w.content p = .formula f :=
  Content.eq_formula ((w.formula?_eq p).symm.trans found)

/-- A formula is content. -/
theorem hasContent_of_isFormula (formula : w.isFormula p = true) : w.hasContent p = true := by
  obtain ⟨f, found⟩ := Option.isSome_iff_exists.mp formula
  rw [formula?_eq] at found
  rw [hasContent_eq, Content.isEmpty_of_formula? found]
  rfl

/-! ### Where references lead -/

/-- Where a reference leads depends on the number of the sheet it names and on its extent. -/
theorem resolve_congr_of_sheet {w' : Workbook} {target : Reference} {home : SheetId}
    (named : w'.registry.resolve target.sheet home = w.registry.resolve target.sheet home)
    (extent : ∀ id, w.registry.resolve target.sheet home = some id → w'.extent? id = w.extent? id) :
    w'.resolve target home = w.resolve target home := by
  unfold resolve
  rw [named]
  cases led : w.registry.resolve target.sheet home with
  | none => rfl
  | some id =>
    have same := extent id led
    unfold extent? at same
    cases found : w.sheet? id with
    | none =>
      cases found' : w'.sheet? id with
      | none => simp only [found, found']
      | some s' => simp [found, found'] at same
    | some s =>
      cases found' : w'.sheet? id with
      | none => simp [found, found'] at same
      | some s' =>
        rw [found, found'] at same
        obtain ⟨rows, columns⟩ := Prod.mk.inj (Option.some.inj same)
        have room : ∀ z, s'.hasRoomFor z = s.hasRoomFor z := fun z => by
          simp only [Sheet.hasRoomFor, Sheet.inBounds, rows, columns]
        simp only [found, found', room, rows, columns]

/-- Where a reference leads depends on the names and the extents of sheets only. -/
theorem resolve_congr {w' : Workbook} (names : w'.registry = w.registry)
    (extents : ∀ id, w'.extent? id = w.extent? id) (target : Reference) (home : SheetId) :
    w'.resolve target home = w.resolve target home :=
  resolve_congr_of_sheet (by rw [names]) fun id _ => extents id

/-- A reference that leads to cells leads to its zone on the sheet it names. -/
theorem exists_of_resolve {target : Reference} {home : SheetId} {zone : Zone}
    (led : w.resolve target home = .ok zone) :
    ∃ id s, w.registry.resolve target.sheet home = some id ∧ w.sheet? id = some s ∧
      zone = target.zone id s.rows s.columns := by
  unfold resolve at led
  cases named : w.registry.resolve target.sheet home with
  | none => simp [named] at led
  | some id =>
    rw [named] at led
    dsimp only at led
    split at led
    · contradiction
    · rename_i s found
      split at led
      · exact ⟨id, s, rfl, found, (Except.ok.inj led).symm⟩
      · contradiction

/-- A reference leads to a zone of the sheet it names. -/
theorem resolve_registry_of_resolve {target : Reference} {home : SheetId} {zone : Zone}
    (led : w.resolve target home = .ok zone) :
    w.registry.resolve target.sheet home = some zone.sheet := by
  obtain ⟨id, s, named, _, rfl⟩ := exists_of_resolve led
  rw [named]
  cases target <;> rfl

/-- The zones a formula reads depend on the names and the extents of sheets only. -/
theorem zonesRead_congr {w' : Workbook} (names : w'.registry = w.registry)
    (extents : ∀ id, w'.extent? id = w.extent? id) (e : Expr) (home : SheetId) :
    w'.zonesRead e home = w.zonesRead e home := by
  unfold zonesRead
  simp only [resolve_congr names extents]

end Workbook

end Spreadsheet
