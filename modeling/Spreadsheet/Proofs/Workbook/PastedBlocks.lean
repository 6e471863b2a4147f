import Spreadsheet.Proofs.Redirection.MovedReferences
import Spreadsheet.Proofs.Workbook.CopiedCells
import Spreadsheet.Proofs.Workbook.Relocations
import Spreadsheet.Proofs.Workbook.TypedContents

/-!
# Pasted blocks

A block is pasted cell by cell, row by row, and its sheet grows with each cell. A relative reference
from one cell of the block to others leads to the pasted ones afterwards, as far as the sheet had
grown when its formula was pasted. A reference to cells that were to come is lost.
-/
namespace Spreadsheet

namespace Workbook

variable {v w : Workbook} {clip : Clip} {mode : PasteMode} {block target z : Zone}
  {anchor cell p q : Position} {id home : SheetId} {r : Reference} {e : Expr} {n : Nat}

/-! ### Copied blocks -/

/-- A copied block of several cells is pasted once, at the first position of the target. -/
theorem pastings_of_copied (copied : v.copyCells [block] = .ok clip)
    (several : block.isSingle = false) (target : Zone) :
    pastings clip [target] =
      block.positions.map fun p => (v.clipCell block p, p.carried block target.topLeft) := by
  obtain ⟨_, rfl⟩ := copyCells_singleton_eq_ok_iff.mp copied
  have larger : ¬(block.rows = 1 ∧ block.columns = 1) := by
    rintro ⟨rows, columns⟩
    have ordered := block.top_le_bottom
    have ordered' := block.left_le_right
    have single : block.isSingle = true := by
      simp only [Zone.rows, Zone.columns] at rows columns
      simp only [Zone.isSingle, Bool.and_eq_true, beq_iff_eq]
      omega
    rw [single] at several
    contradiction
  simp only [pastings, Edit.anchors, larger, ↓reduceIte, List.flatMap_cons, List.flatMap_nil,
    List.append_nil, List.map_map]
  rfl

end Workbook

/-! ### Blocks read row by row -/

namespace Zone

variable {block z : Zone} {anchor cell p : Position} {before after : List Position} {n : Nat}

/-- Up to a cell of a block all rows to that of the cell have been reached. -/
theorem row_reached_iff (listed : block.positions = before ++ cell :: after) :
    (∃ p ∈ before ++ [cell], n ≤ p.row) ↔ n ≤ cell.row := by
  have order := listed ▸ block.pairwise_positions
  have earlier := fun p member => (List.pairwise_append.mp order).2.2 p member cell
    List.mem_cons_self
  constructor
  · rintro ⟨p, member, far⟩
    rcases List.mem_append.mp member with first | last
    · rcases earlier p first with less | ⟨same, _⟩ <;> omega
    · rwa [← List.mem_singleton.mp last]
  · exact fun far => ⟨cell, List.mem_append_right _ (List.mem_singleton_self cell), far⟩

/-- Up to a cell of a block the columns to that of the cell have been reached in the first row, and
all of them in a further one. -/
theorem column_reached_iff (listed : block.positions = before ++ cell :: after)
    (within : n ≤ block.right) :
    (∃ p ∈ before ++ [cell], n ≤ p.column) ↔ n ≤ cell.column ∨ block.top < cell.row := by
  have inside : ∀ p, p ∈ before ∨ p = cell ∨ p ∈ after ↔ block.contains p = true := fun p => by
    rw [← mem_positions, listed, List.mem_append, List.mem_cons]
  have order := listed ▸ block.pairwise_positions
  obtain ⟨_, second, first⟩ := List.pairwise_append.mp order
  have later := (List.pairwise_cons.mp second).1
  constructor
  · rintro ⟨p, member, far⟩
    rcases List.mem_append.mp member with member | member
    · obtain ⟨_, above, _⟩ := contains_iff.mp ((inside p).mp (.inl member))
      rcases first p member cell List.mem_cons_self with less | ⟨same, less⟩ <;> omega
    · rw [← List.mem_singleton.mp member]
      exact .inl far
  · rintro (far | below)
    · exact ⟨cell, List.mem_append_right _ (List.mem_singleton_self cell), far⟩
    · -- The end of the first row comes before the cell.
      have corner : block.contains ⟨block.sheet, block.top, block.right⟩ = true :=
        contains_iff.mpr ⟨rfl, Nat.le_refl _, block.top_le_bottom, block.left_le_right,
          Nat.le_refl _⟩
      refine ⟨⟨block.sheet, block.top, block.right⟩, List.mem_append_left _ ?_, within⟩
      rcases (inside _).mpr corner with member | here | member
      · exact member
      · rw [← here] at below
        exact absurd below (Nat.lt_irrefl _)
      · rcases later _ member with less | ⟨same, _⟩ <;> dsimp only at * <;> omega

/-- The last row of a moved zone is not behind a moved cell if it was not before. -/
theorem bottom_carried_le_iff (within : block.containsZone z = true)
    (inside : block.contains p = true) :
    (z.carried block anchor).bottom ≤ (p.carried block anchor).row ↔ z.bottom ≤ p.row := by
  obtain ⟨_, top, _⟩ := containsZone_iff.mp within
  obtain ⟨_, above, _⟩ := contains_iff.mp inside
  have ordered := z.top_le_bottom
  simp only [carried, Position.carried]
  omega

/-- The last column of a moved zone is not behind a moved cell if it was not before. -/
theorem right_carried_le_iff (within : block.containsZone z = true)
    (inside : block.contains p = true) :
    (z.carried block anchor).right ≤ (p.carried block anchor).column ↔ z.right ≤ p.column := by
  obtain ⟨_, _, _, left, _⟩ := containsZone_iff.mp within
  obtain ⟨_, _, _, before, _⟩ := contains_iff.mp inside
  have ordered := z.left_le_right
  simp only [carried, Position.carried]
  omega

end Zone

namespace Workbook

variable {v w : Workbook} {clip : Clip} {mode : PasteMode} {block target z : Zone}
  {anchor cell p q : Position} {id home : SheetId} {r : Reference} {e : Expr} {n : Nat}

/-! ### Sheets that grow cell by cell -/

/-- A line lies on a sheet that was enlarged if it did before or if one of the positions it was
enlarged for lies on the line or behind it. -/
theorem extent?_enlarged {rows columns : Nat} (known : w.extent? id = some (rows, columns))
    (positions : List Position) :
    ∃ rows' columns', (w.enlarged positions).extent? id = some (rows', columns') ∧
      (∀ n, n < rows' ↔ n < rows ∨ ∃ p ∈ positions, p.sheet = id ∧ n ≤ p.row) ∧
        ∀ n, n < columns' ↔ n < columns ∨ ∃ p ∈ positions, p.sheet = id ∧ n ≤ p.column := by
  induction positions using List.reverseRecOn with
  | nil => exact ⟨rows, columns, known, by simp, by simp⟩
  | append_singleton before p ih =>
    obtain ⟨rows', columns', grown, below, behind⟩ := ih
    rw [enlarged_concat]
    by_cases here : p.sheet = id
    · refine ⟨max rows' (p.row + 1), max columns' (p.column + 1), ?_, fun n => ?_, fun n => ?_⟩
      · rw [extent?_growTo, if_pos here.symm, grown]
        rfl
      · rw [lt_max_iff, below, or_assoc, Nat.lt_succ_iff]
        simp [or_and_right, exists_or, here]
      · rw [lt_max_iff, behind, or_assoc, Nat.lt_succ_iff]
        simp [or_and_right, exists_or, here]
    · refine ⟨rows', columns', ?_, fun n => ?_, fun n => ?_⟩
      · rw [extent?_growTo, if_neg (Ne.symm here), grown]
      · rw [below]
        simp [or_and_right, exists_or, here]
      · rw [behind]
        simp [or_and_right, exists_or, here]

/-- Pasting a cell changes the content of its place only. -/
theorem content_pasted_of_ne (cell : ClipCell) (other : q ≠ p) :
    (pasted clip mode w (cell, p)).content q = w.content q := by
  unfold pasted pasteCell
  cases mode with
  | everything =>
    dsimp only
    rw [content_chooseFormat, content_replaceContent, if_neg fun both => other both.1,
      content_growTo]
  | value =>
    dsimp only
    rw [content_replaceContent, if_neg fun both => other both.1, content_growTo]
  | format =>
    dsimp only
    rw [content_chooseFormat, content_growTo]

/-- Pasting cells elsewhere leaves the content of a position. -/
theorem content_foldl_pasted_of_forall_ne (pastings : List (ClipCell × Position))
    (elsewhere : ∀ pasting ∈ pastings, p ≠ pasting.2) :
    (pastings.foldl (pasted clip mode) w).content p = w.content p :=
  List.foldlRecOn pastings _ (motive := fun (w' : Workbook) => w'.content p = w.content p) rfl
    fun _ same pasting listed =>
      (content_pasted_of_ne pasting.1 (elsewhere pasting listed)).trans same

/-- While cells are pasted, sheets are enlarged to hold their places. -/
theorem extent?_foldl_pasted (pastings : List (ClipCell × Position)) (id : SheetId) :
    (pastings.foldl (pasted clip mode) w).extent? id =
      (w.enlarged (pastings.map Prod.snd)).extent? id := by
  induction pastings using List.reverseRecOn generalizing id with
  | nil => rfl
  | append_singleton before pasting ih =>
    rw [List.foldl_append, List.map_append, List.map_singleton, enlarged_concat]
    exact ((sameSheets_pasteCell ..).extent id).trans (extent?_growTo_congr ih pasting.2 id)

/-- While cells are pasted, the names of sheets stay. -/
theorem registry_foldl_pasted (pastings : List (ClipCell × Position)) :
    (pastings.foldl (pasted clip mode) w).registry = w.registry :=
  List.foldlRecOn pastings _ (motive := fun (w' : Workbook) => w'.registry = w.registry) rfl
    fun _ same pasting _ =>
      ((sameSheets_pasteCell ..).registry.trans (registry_growTo _ pasting.2)).trans same

/-! ### Copied formulas -/

/-- Where a formula that is copied to a sheet by a number of rows and columns leads its
references. -/
def copyLead (w : Workbook) (home : SheetId) (rows columns : Int) (r : Reference) :
    Option Reference :=
  if rows = 0 ∧ columns = 0 then some r
  else (r.copied rows columns).filter fun new => (w.extentOf home r.sheet).all new.isWithin

/-- A copied formula follows where copying leads its references. -/
theorem follows_copiedFormula (w : Workbook) (f : Formula) (source target : Position) :
    f.Follows (w.copyLead target.sheet ((target.row : Int) - source.row)
      ((target.column : Int) - source.column)) (w.copiedFormula f source target) := by
  unfold copiedFormula Expr.offset? copyLead
  by_cases stays : (target.row : Int) - source.row = 0 ∧ (target.column : Int) - source.column = 0
  · simp only [stays, and_self, ↓reduceIte, Option.bind_fun_none]
    exact ⟨rfl, rfl, .inl ⟨rfl, rfl⟩⟩
  · simp only [stays, ↓reduceIte]
    have follows := f.cleared.follows_redirect? fun r => .ofTarget? ((r.copied
      ((target.row : Int) - source.row) ((target.column : Int) - source.column)).filter fun new =>
        (w.extentOf target.sheet r.sheet).all new.isWithin)
    simp only [Fate.target?_ofTarget?] at follows
    exact ⟨follows.tree, follows.sequence, follows.worded⟩

/-- A formula that is pasted at a position has the tree that copying gives it. -/
theorem expr?_pasted_self {c : ClipCell} {f : Formula} (formula : c.content = .formula f)
    (exist : (w.sheet? p.sheet).isSome = true) :
    (pasted clip .everything w (c, p)).expr? p =
      ((w.growTo p).copiedFormula f (c.placed clip.origin) p).expr? := by
  unfold pasted pasteCell
  dsimp only
  rw [expr?_chooseFormat, expr?_replaceContent _ _ _ _ (by rwa [isSome_sheet?_growTo]), if_pos rfl,
    formula]
  rfl

/-- A reference that gives every axis leads to its zone exactly if its sheet exists and has room for
the zone. -/
theorem resolve_of_boundedZone? {home : SheetId} (named : w.registry.resolve r.sheet home = some id)
    (bounded : r.boundedZone? id = some z) {rows columns : Nat}
    (known : w.extent? id = some (rows, columns)) (below : z.bottom < rows)
    (behind : z.right < columns) : w.resolve r home = .ok z := by
  obtain ⟨s, found, extent⟩ := Option.map_eq_some_iff.mp known
  obtain ⟨rfl, rfl⟩ := Prod.mk.inj extent
  have room : s.hasRoomFor z = true := Sheet.hasRoomFor_iff.mpr ⟨below, behind⟩
  simp only [resolve, named, found, Reference.zone_of_boundedZone? bounded, room, ↓reduceIte]

/-- As a block is pasted at an anchor, the sheet reaches as far as the cells that those of a zone of
the block become once a cell of the block is pasted. Rows are reached one by one, and all columns with
the first row. -/
def Reaches (w : Workbook) (block : Zone) (anchor cell : Position) (z : Zone) : Prop :=
  ∀ rows columns, w.extent? anchor.sheet = some (rows, columns) →
    ((z.carried block anchor).bottom < rows ∨ z.bottom ≤ cell.row) ∧
      ((z.carried block anchor).right < columns ∨ z.right ≤ cell.column ∨ block.top < cell.row)

/-- A reference from a cell of a block to a zone of the block leads to pasted cells once the block is
pasted: either the block is pasted where it is, or the sheet reaches far enough when the formula is
pasted and the reference can name cells as far away. -/
def StaysWired (w : Workbook) (block : Zone) (anchor cell : Position) (r : Reference) (z : Zone) :
    Prop :=
  anchor = block.topLeft ∨
    w.Reaches block anchor cell z ∧ r.CanName (z.carried block anchor)

/-- When a cell of a block is pasted, the sheet holds the zone that a zone of the block becomes
exactly if it reaches as far. -/
theorem exists_extent_iff_reaches (anchor : Position) {before after : List Position}
    {rows columns : Nat} (listed : block.positions = before ++ cell :: after)
    (within : block.containsZone z = true)
    (known : w.extent? anchor.sheet = some (rows, columns)) :
    ∃ rows' columns', (w.enlarged ((before ++ [cell]).map (·.carried block anchor))).extent?
        anchor.sheet = some (rows', columns') ∧
      ((z.carried block anchor).bottom < rows' ∧ (z.carried block anchor).right < columns' ↔
        w.Reaches block anchor cell z) := by
  obtain ⟨_, _, _, _, right⟩ := Zone.containsZone_iff.mp within
  obtain ⟨rows', columns', grown, below, behind⟩ :=
    extent?_enlarged known ((before ++ [cell]).map (·.carried block anchor))
  have inside : ∀ p ∈ before ++ [cell], block.contains p = true := fun p member => by
    rw [← Zone.mem_positions, listed, List.append_cons]
    exact List.mem_append_left _ member
  have rowsReached : (∃ p ∈ (before ++ [cell]).map (·.carried block anchor),
      p.sheet = anchor.sheet ∧ (z.carried block anchor).bottom ≤ p.row) ↔ z.bottom ≤ cell.row := by
    rw [← Zone.row_reached_iff listed]
    simp only [List.mem_map, exists_exists_and_eq_and]
    refine exists_congr fun p => and_congr_right fun member => ?_
    rw [and_iff_right (show (p.carried block anchor).sheet = anchor.sheet from rfl)]
    exact Zone.bottom_carried_le_iff within (inside p member)
  have columnsReached : (∃ p ∈ (before ++ [cell]).map (·.carried block anchor),
      p.sheet = anchor.sheet ∧ (z.carried block anchor).right ≤ p.column) ↔
        z.right ≤ cell.column ∨ block.top < cell.row := by
    rw [← Zone.column_reached_iff listed right]
    simp only [List.mem_map, exists_exists_and_eq_and]
    refine exists_congr fun p => and_congr_right fun member => ?_
    rw [and_iff_right (show (p.carried block anchor).sheet = anchor.sheet from rfl)]
    exact Zone.right_carried_le_iff within (inside p member)
  refine ⟨rows', columns', grown, ?_⟩
  simp only [Reaches, known, Option.some.injEq, Prod.mk.injEq, and_imp, forall_eq',
    forall_apply_eq_imp_iff, below, behind, rowsReached, columnsReached]

/-- Once a block is pasted, the sheet holds the zone that a zone of the block becomes. -/
theorem exists_extent_enlarged (anchor : Position) {rows columns : Nat}
    (within : block.containsZone z = true) (known : w.extent? anchor.sheet = some (rows, columns)) :
    ∃ rows' columns', (w.enlarged (block.positions.map (·.carried block anchor))).extent?
        anchor.sheet = some (rows', columns') ∧
      (z.carried block anchor).bottom < rows' ∧ (z.carried block anchor).right < columns' := by
  obtain ⟨rows', columns', grown, below, behind⟩ :=
    extent?_enlarged known (block.positions.map (·.carried block anchor))
  have corner : (⟨z.sheet, z.bottom, z.right⟩ : Position).carried block anchor ∈
      block.positions.map (·.carried block anchor) :=
    List.mem_map_of_mem (Zone.mem_positions.mpr (Zone.contains_of_containsZone within
      (Zone.contains_iff.mpr ⟨rfl, z.top_le_bottom, Nat.le_refl _, z.left_le_right, Nat.le_refl _⟩)))
  exact ⟨rows', columns', grown, (below _).mpr (.inr ⟨_, corner, rfl, Nat.le_refl _⟩),
    (behind _).mpr (.inr ⟨_, corner, rfl, Nat.le_refl _⟩)⟩

/-- Where copying a formula leads a relative reference to a zone around it that moves with the
formula: to what the zone becomes, if the sheet holds that and the reference can name it. -/
theorem copyLead_of_containsZone (anchor : Position) {rows columns : Nat}
    (unqualified : r.sheet = none) (relative : r.IsRelative)
    (bounded : r.boundedZone? anchor.sheet = some z)
    (within : block.containsZone z = true) (away : anchor ≠ block.topLeft)
    (named : w.registry.resolve none anchor.sheet = some anchor.sheet)
    (known : w.extent? anchor.sheet = some (rows, columns)) :
    ((z.carried block anchor).bottom < rows ∧ (z.carried block anchor).right < columns ∧
        r.CanName (z.carried block anchor) →
      ∃ new, w.copyLead anchor.sheet ((anchor.row : Int) - block.top)
          ((anchor.column : Int) - block.left) r = some new ∧ new.sheet = none ∧
        new.boundedZone? anchor.sheet = some (z.carried block anchor)) ∧
      (¬((z.carried block anchor).bottom < rows ∧ (z.carried block anchor).right < columns ∧
          r.CanName (z.carried block anchor)) →
        w.copyLead anchor.sheet ((anchor.row : Int) - block.top)
          ((anchor.column : Int) - block.left) r = none) := by
  have sheets : anchor.sheet = block.sheet :=
    (Reference.sheet_of_boundedZone? bounded).symm.trans (Zone.containsZone_iff.mp within).1
  have moves : ¬((anchor.row : Int) - block.top = 0 ∧ (anchor.column : Int) - block.left = 0) :=
    fun stays => away (Position.eq_of_same sheets (by simp only [Zone.topLeft]; omega)
      (by simp only [Zone.topLeft]; omega))
  have extent : w.extentOf anchor.sheet r.sheet = some (rows, columns) := by
    rw [extentOf, unqualified, named]
    exact known
  obtain ⟨moved, lost⟩ := Reference.moved_of_containsZone bounded within anchor none
  unfold copyLead
  rw [if_neg moves, Reference.copied_of_isRelative relative, unqualified]
  rw [unqualified] at extent
  by_cases nameable : r.CanName (z.carried block anchor)
  · obtain ⟨new, found, noSheet, zone⟩ := moved nameable
    have zone := zone anchor.sheet
    rw [found, Option.filter_some, extent, Option.all_some]
    have fits : new.isWithin (rows, columns) = true ↔
        (z.carried block anchor).bottom < rows ∧ (z.carried block anchor).right < columns :=
      Reference.isWithin_iff zone (rows, columns)
    constructor
    · rintro ⟨below, behind, _⟩
      rw [if_pos (fits.mpr ⟨below, behind⟩)]
      exact ⟨new, rfl, noSheet, zone⟩
    · intro beyond
      rw [if_neg fun within => beyond ⟨(fits.mp within).1, (fits.mp within).2, nameable⟩]
  · rw [lost nameable]
    exact ⟨fun all => absurd all.2.2 nameable, fun _ => rfl⟩

/-! ### Pasted formulas -/

/-- The formula copied from a cell of a block leads its references as copying does at the moment it
is pasted, with the sheet enlarged for the cells of the block up to its own. -/
theorem expr?_pastedAll_carried {before after : List Position}
    (listed : block.positions = before ++ cell :: after) (copied : v.copyCells [block] = .ok clip)
    (several : block.isSingle = false) (exist : (w.sheet? target.sheet).isSome = true)
    (typed : v.expr? cell = some e) :
    ∃ grown : Workbook, grown.registry = w.registry ∧
      (∀ id, grown.extent? id = (w.enlarged ((before ++ [cell]).map
        (·.carried block target.topLeft))).extent? id) ∧
      ∃ e', (w.pastedAll clip [target] .everything).expr? (cell.carried block target.topLeft) =
          some e' ∧
        e'.bare = e.led (grown.copyLead target.sheet ((target.top : Int) - block.top)
          ((target.left : Int) - block.left)) := by
  have inside : ∀ p, p = cell ∨ p ∈ after → block.contains p = true := fun p member => by
    rw [← Zone.mem_positions, listed, List.mem_append, List.mem_cons]
    exact .inr member
  obtain ⟨_, above, _, left, _⟩ := Zone.contains_iff.mp (inside cell (.inl rfl))
  obtain ⟨f, formula, tree⟩ := Option.bind_eq_some_iff.mp typed
  have origin : clip.origin = block.topLeft := by rw [(copyCells_singleton_eq_ok_iff.mp copied).2]
  let place (p : Position) : ClipCell × Position :=
    (v.clipCell block p, p.carried block target.topLeft)
  let start := (before.map place).foldl (pasted clip .everything) w
  have all : w.pastedAll clip [target] .everything =
      (after.map place).foldl (pasted clip .everything)
        (pasted clip .everything start (place cell)) := by
    rw [pastedAll, pastings_of_copied copied several target, listed, List.map_append, List.map_cons,
      List.foldl_append, List.foldl_cons]
  -- Nothing is pasted over the cell.
  have apart : ∀ pasting ∈ after.map place, cell.carried block target.topLeft ≠ pasting.2 := by
    intro pasting member same
    obtain ⟨p, later, rfl⟩ := List.mem_map.mp member
    have once := listed ▸ block.nodup_positions
    obtain rfl := Position.carried_injective (inside cell (.inl rfl)) (inside p (.inr later)) same
    exact (List.nodup_cons.mp (List.nodup_append.mp once).2.1).1 later
  have there : (start.sheet? target.sheet).isSome = true :=
    (isSome_sheet?_foldl_pasted clip .everything target.sheet (before.map place) w).trans exist
  have names : (start.growTo (place cell).2).registry = w.registry :=
    (registry_growTo ..).trans (registry_foldl_pasted _)
  have extents : ∀ id, (start.growTo (place cell).2).extent? id =
      (w.enlarged ((before ++ [cell]).map (·.carried block target.topLeft))).extent? id := by
    intro id
    rw [List.map_append, List.map_singleton, enlarged_concat]
    refine extent?_growTo_congr (fun id => ?_) _ id
    rw [extent?_foldl_pasted, List.map_map]
    rfl
  have follows := (start.growTo (place cell).2).follows_copiedFormula f
    ((v.clipCell block cell).placed clip.origin) (place cell).2
  have rows : ((place cell).2.row : Int) - ((v.clipCell block cell).placed clip.origin).row =
      (target.top : Int) - block.top := by
    simp only [place, Position.carried, Zone.topLeft, ClipCell.placed, clipCell, origin]
    omega
  have columns : ((place cell).2.column : Int) -
      ((v.clipCell block cell).placed clip.origin).column = (target.left : Int) - block.left := by
    simp only [place, Position.carried, Zone.topLeft, ClipCell.placed, clipCell, origin]
    omega
  rw [rows, columns] at follows
  have shown : (w.pastedAll clip [target] .everything).expr? (cell.carried block target.topLeft) =
      ((start.growTo (place cell).2).copiedFormula f
        ((v.clipCell block cell).placed clip.origin) (place cell).2).expr? := by
    rw [all, Workbook.expr?, content_foldl_pasted_of_forall_ne _ apart]
    exact expr?_pasted_self (Content.eq_formula formula) there
  obtain ⟨e', copy, bare⟩ := follows.expr? tree
  exact ⟨_, names, extents, e', shown.trans copy, bare⟩

/-- Once a block is pasted, a reference leads to the cells that those of a zone of the block have
become if it names them. -/
theorem resolve_pastedAll_of_boundedZone? (copied : v.copyCells [block] = .ok clip)
    (several : block.isSingle = false) (exist : (w.sheet? target.sheet).isSome = true)
    (named : w.registry.resolve none target.sheet = some target.sheet)
    (within : block.containsZone z = true) (unqualified : r.sheet = none)
    (bounded : r.boundedZone? target.sheet = some (z.carried block target.topLeft)) :
    (w.pastedAll clip [target] .everything).resolve r target.sheet =
      .ok (z.carried block target.topLeft) := by
  obtain ⟨⟨rows, columns⟩, known⟩ := Option.isSome_iff_exists.mp (isSome_sheet?_eq w _ ▸ exist)
  obtain ⟨rows', columns', final, below, behind⟩ :=
    exists_extent_enlarged target.topLeft within known
  have extent : (w.pastedAll clip [target] .everything).extent? target.sheet =
      some (rows', columns') := by
    rw [pastedAll, extent?_foldl_pasted, pastings_of_copied copied several, List.map_map]
    exact final
  have registry : (w.pastedAll clip [target] .everything).registry = w.registry :=
    registry_foldl_pasted _
  exact resolve_of_boundedZone? (by rw [registry, unqualified, named]) bounded extent below behind

/-- When a block has been pasted, the formula copied from a cell of it leads the relative references
to zones of the block to what these have become, where they stay wired. The others are lost. -/
theorem wired_pastedAll (copied : v.copyCells [block] = .ok clip)
    (several : block.isSingle = false) (here : target.sheet = block.sheet)
    (exist : (w.sheet? target.sheet).isSome = true) (inside : block.contains cell = true)
    (typed : v.expr? cell = some e) :
    ∃ lead e', (w.pastedAll clip [target] .everything).expr?
          (cell.carried block target.topLeft) = some e' ∧
      e'.bare = e.led lead ∧
      ∀ r : Reference, r.sheet = none → r.IsRelative →
        ∀ z, r.boundedZone? block.sheet = some z → block.containsZone z = true →
          w.registry.resolve none target.sheet = some target.sheet →
          (w.StaysWired block target.topLeft cell r z →
            ∃ r', lead r = some r' ∧
              (w.pastedAll clip [target] .everything).resolve r' target.sheet =
                .ok (z.carried block target.topLeft)) ∧
          (¬w.StaysWired block target.topLeft cell r z → lead r = none) := by
  obtain ⟨before, after, listed⟩ := List.append_of_mem (Zone.mem_positions.mpr inside)
  obtain ⟨grown, names, extents, e', shown, bare⟩ :=
    expr?_pastedAll_carried listed copied several exist typed
  obtain ⟨⟨rows, columns⟩, known⟩ := Option.isSome_iff_exists.mp (isSome_sheet?_eq w _ ▸ exist)
  refine ⟨_, e', shown, bare, fun r unqualified relative z bounded within named => ?_⟩
  rw [← here] at bounded
  by_cases stays : target.topLeft = block.topLeft
  · have still : grown.copyLead target.sheet ((target.top : Int) - block.top)
        ((target.left : Int) - block.left) r = some r := by
      have tops : target.top = block.top := congrArg Position.row stays
      have lefts : target.left = block.left := congrArg Position.column stays
      rw [copyLead, if_pos ⟨by omega, by omega⟩]
    have zone : r.boundedZone? target.sheet = some (z.carried block target.topLeft) := by
      rw [bounded, stays, Zone.carried_topLeft within]
    exact ⟨fun _ => ⟨r, still, resolve_pastedAll_of_boundedZone? copied several exist named within
      unqualified zone⟩, fun lost => absurd (.inl stays) lost⟩
  · obtain ⟨rows, columns, enlarged, reached⟩ :=
      exists_extent_iff_reaches target.topLeft listed within known
    have wired : w.StaysWired block target.topLeft cell r z ↔
        (z.carried block target.topLeft).bottom < rows ∧
          (z.carried block target.topLeft).right < columns ∧
            r.CanName (z.carried block target.topLeft) := by
      unfold StaysWired
      rw [← reached, or_iff_right stays, and_assoc]
    obtain ⟨follows, lost⟩ := copyLead_of_containsZone target.topLeft unqualified relative
      bounded within stays (by rw [names]; exact named) ((extents _).trans enlarged)
    rw [wired]
    refine ⟨fun all => ?_, lost⟩
    obtain ⟨new, found, noSheet, zone⟩ := follows all
    exact ⟨new, found, resolve_pastedAll_of_boundedZone? copied several exist named within noSheet
      zone⟩

/-- A block of several cells that is copied and pasted elsewhere on its sheet keeps its wiring, as far
as the sheet had grown. A relative reference from a cell of the block to a zone of the block leads to
the pasted cells of that zone if the block is pasted where it is, or if the sheet reaches as far when
the formula is pasted and the reference can name these cells. Every other one becomes an error. -/
theorem wired_of_pasted_block (copied : w.copyCells [block] = .ok clip)
    (several : block.isSingle = false) (here : target.sheet = block.sheet)
    (inside : block.contains cell = true) (typed : w.expr? cell = some e) :
    ∃ lead e', ((w.after (.copy [block])).after (.paste [target] .everything)).expr?
          (cell.carried block target.topLeft) = some e' ∧
      e'.bare = e.led lead ∧
      ∀ r ∈ e.references, r.sheet = none → r.IsRelative →
        ∀ z, r.boundedZone? block.sheet = some z → w.resolve r block.sheet = .ok z →
          block.containsZone z = true →
          (w.StaysWired block target.topLeft cell r z →
            ∃ r', lead r = some r' ∧
              ((w.after (.copy [block])).after (.paste [target] .everything)).resolve r'
                target.sheet = .ok (z.carried block target.topLeft)) ∧
          (¬w.StaysWired block target.topLeft cell r z → lead r = none) := by
  have exist : (w.sheet? target.sheet).isSome = true :=
    here ▸ Option.isSome_of_any (copyCells_singleton_eq_ok_iff.mp copied).1
  rw [after_copy copied]
  generalize holding : ({ w with clipboard := some (.copied clip) } : Workbook) = w₁
  have prepared : w₁.prepared (.paste [target] .everything) =
      some (w₁.pastedAll clip [target] .everything) := by
    subst holding
    simp only [prepared, preparedPaste, List.all_cons, List.all_nil, Bool.and_true]
    exact if_pos exist
  have same := (w₁.pastedAll clip [target] .everything).sameSources_recalculate
  have registry : w₁.registry = w.registry := by rw [← holding]
  have extent : w₁.extent? = w.extent? := by
    subst holding
    rfl
  obtain ⟨lead, e', shown, bare, wiring⟩ := wired_pastedAll copied several here
    (isSome_sheet?_eq w₁ _ ▸ extent ▸ isSome_sheet?_eq w _ ▸ exist) inside typed
  rw [after_eq, prepared]
  refine ⟨lead, e', (same.expr? _).trans shown, bare,
    fun r _ unqualified relative z bounded leads within => ?_⟩
  have named : w₁.registry.resolve none target.sheet = some target.sheet := by
    have led := resolve_registry_of_resolve leads
    rwa [unqualified, Reference.sheet_of_boundedZone? bounded, ← here, ← registry] at led
  have wired : w.StaysWired block target.topLeft cell r z ↔
      w₁.StaysWired block target.topLeft cell r z := by
    unfold StaysWired Reaches
    rw [extent]
  obtain ⟨kept, lost⟩ := wiring r unqualified relative z bounded within named
  rw [wired]
  refine ⟨fun stays => ?_, lost⟩
  obtain ⟨r', found, leads'⟩ := kept stays
  exact ⟨r', found, (same.resolve r' target.sheet).trans leads'⟩

/-- A block of two rows is pasted over the end of its sheet. The formula in its first row refers to a
cell in the second, which the sheet does not reach yet, and loses the reference. -/
theorem lost_of_block_pasted_over_end :
    ∃ e', ((((new Settings.standard FunctionTable.empty).after (.setContent 0 0 0 "=B2")).after
        (.copy [.span 0 0 0 1 1])).after (.paste [.single ⟨0, 99, 0⟩] .everything)).expr?
          ⟨0, 99, 0⟩ = some e' ∧ e'.references = [] := by
  obtain ⟨e, typed, references⟩ := exists_expr?_after_setContent Settings.standard
    FunctionTable.empty ⟨0, 0, 0⟩ "=B2" [.cell none ⟨1, 1, false, false, by decide, by decide⟩]
    (by decide +kernel) (by decide +kernel)
  have sheets := (new Settings.standard FunctionTable.empty).sameSheets_after_setContent
    ⟨0, 0, 0⟩ "=B2"
  have extent : ((new Settings.standard FunctionTable.empty).after
      (.setContent 0 0 0 "=B2")).extent? 0 = some (100, 26) :=
    (sheets.extent 0).trans (by decide +kernel)
  have named : ((new Settings.standard FunctionTable.empty).after
      (.setContent 0 0 0 "=B2")).registry.resolve none 0 = some 0 := by
    rw [sheets.registry]
    decide +kernel
  generalize (new Settings.standard FunctionTable.empty).after (.setContent 0 0 0 "=B2") = w at *
  have copied : w.copyCells [.span 0 0 0 1 1] = .ok ⟨⟨0, 0, 0⟩, 2, 2,
      (Zone.span 0 0 0 1 1).positions.map (w.clipCell (.span 0 0 0 1 1))⟩ :=
    copyCells_singleton_eq_ok_iff.mpr
      ⟨any_hasRoomFor_of_extent? extent (by decide) (by decide), rfl⟩
  have here : (Zone.single ⟨0, 99, 0⟩).sheet = (Zone.span 0 0 0 1 1).sheet := rfl
  obtain ⟨lead, e', shown, bare, wiring⟩ :=
    wired_of_pasted_block copied (by decide) here (by decide) typed
  have lost := (wiring (.cell none ⟨1, 1, false, false, by decide, by decide⟩)
    (references ▸ List.mem_singleton_self _) rfl ⟨rfl, rfl⟩ (.single ⟨0, 1, 1⟩) rfl
    (resolve_of_boundedZone? named rfl extent (by decide) (by decide)) (by decide)).2
  refine ⟨e', shown, ?_⟩
  rw [← e'.references_bare, bare, Expr.references_led, references, List.filterMap_cons_none]
  · rfl
  · refine lost fun stays => ?_
    rcases stays with same | ⟨reaches, _⟩
    · exact absurd same (by decide)
    · exact absurd (reaches 100 26 extent).1 (by decide)

end Workbook

end Spreadsheet
