import Spreadsheet.Proofs.Redirection.MovedReferences
import Spreadsheet.Proofs.Workbook.CopiedCells
import Spreadsheet.Proofs.Workbook.Relocations
import Spreadsheet.Proofs.Workbook.TypedContents

/-!
# Moved blocks

When zones are cut and pasted, their cells move together with the smallest zone around them. References
follow if what they cover lies in that zone, so those to moved cells do, but also those to cells between
the zones, which stay where they are.
-/
namespace Spreadsheet

/-- The positions of zones that are cut. -/
def cutPositions (zones : List Zone) : List Position := zones.flatMap Zone.positions

/-- Where a cell ends up when the zones inside a zone are cut and pasted at an anchor. What is pasted
over another cell replaces it. -/
def cutMove (zones : List Zone) (source : Zone) (anchor p : Position) : Option Position :=
  if p ∈ cutPositions zones then some (p.carried source anchor)
  else if p ∈ (cutPositions zones).map (·.carried source anchor) then none
  else some p

/-- The zone that a reference in a formula on `home` denotes, if it gives every axis. -/
def Registry.denoted? (registry : Registry) (home : SheetId) (r : Reference) : Option Zone :=
  (registry.resolve r.sheet home).bind r.boundedZone?

namespace Content

variable {lead : Reference → Option Reference} {content content' : Content}

/-- Content can take the place in the order of entry that it has. -/
theorem exists_entered_eq (content : Content) : ∃ turn, content.entered turn = content := by
  cases content with
  | empty => exact ⟨0, rfl⟩
  | literal typed value => exact ⟨0, rfl⟩
  | formula f => exact ⟨f.sequence, rfl⟩

/-- Content that follows another one does so when both are entered again. -/
theorem Follows.entered (follows : content.Follows lead content') (turn : Nat) :
    (content.entered turn).Follows lead (content'.entered turn) := by
  cases follows with
  | empty => exact .empty
  | literal typed value => exact .literal typed value
  | formula follows => exact .formula ⟨follows.tree, rfl, follows.worded⟩

end Content

namespace Workbook

variable {w w' w₀ : Workbook} {clip : Clip} {zones rest : List Zone} {target source z : Zone}
  {anchor p q : Position} {home : SheetId} {r : Reference} {e : Expr}
  {move : Position → Option Position} {lead : SheetId → Reference → Option Reference}

/-! ### Cut cells -/

/-- A position is cut if one of the zones contains it. -/
theorem mem_cutPositions : p ∈ cutPositions zones ↔ ∃ z ∈ zones, z.contains p = true := by
  simp only [cutPositions, List.mem_flatMap, Zone.mem_positions]

/-- Cut positions are within the bounds. -/
theorem contains_of_mem_cutPositions
    (around : ∀ z ∈ zones, source.containsZone z = true) (cut : p ∈ cutPositions zones) :
    source.contains p = true := by
  obtain ⟨z, listed, inside⟩ := mem_cutPositions.mp cut
  exact Zone.contains_of_containsZone (around z listed) inside

/-! ### Cells that are taken and put down -/

/-- A format that is chosen for a position of a sheet is there. -/
theorem chosen_chooseFormat_self (w : Workbook) (p : Position) (format : Option String)
    (exist : (w.sheet? p.sheet).isSome = true) : (w.chooseFormat p format).chosen p = format := by
  unfold chooseFormat
  split
  · rename_i same
    exact same
  · show (w.updateCell p _).chosen p = format
    rw [chosen_updateCell, if_pos ⟨rfl, exist⟩]

/-- A cell that is cleared has no content. -/
theorem content_clearCell (w : Workbook) (p q : Position) :
    (w.clearCell p).content q = if q = p then .empty else w.content q := by
  unfold clearCell
  split
  · rename_i there
    rw [content_chooseFormat, content_replaceContent]
    obtain ⟨c, found⟩ := Option.isSome_iff_exists.mp there
    obtain ⟨s, sheet, _⟩ := Option.bind_eq_some_iff.mp found
    simp only [sheet, Option.isSome_some, and_true]
    rfl
  · rename_i blank
    rw [Option.not_isSome_iff_eq_none] at blank
    split
    · rename_i here
      rw [here, content, blank]
      rfl
    · rfl

/-- A cell that is cleared has no format. -/
theorem chosen_clearCell (w : Workbook) (p q : Position) :
    (w.clearCell p).chosen q = if q = p then none else w.chosen q := by
  unfold clearCell
  split
  · rename_i there
    obtain ⟨c, found⟩ := Option.isSome_iff_exists.mp there
    obtain ⟨s, sheet, _⟩ := Option.bind_eq_some_iff.mp found
    split
    · rename_i here
      rw [here]
      refine chosen_chooseFormat_self _ p none ?_
      rw [(sameSheets_replaceContent w p .empty).isSome_sheet?, sheet]
      rfl
    · rename_i elsewhere
      rw [chosen_chooseFormat _ _ elsewhere, chosen_replaceContent]
  · rename_i blank
    rw [Option.not_isSome_iff_eq_none] at blank
    split
    · rename_i here
      rw [here, chosen, blank]
      rfl
    · rfl

/-- Cells that are taken away are blank. -/
theorem content_taken (w : Workbook) (clip : Clip) (q : Position) :
    (w.taken clip).content q =
        (if q ∈ clip.cells.map (·.placed clip.origin) then .empty else w.content q) ∧
      (w.taken clip).chosen q =
        if q ∈ clip.cells.map (·.placed clip.origin) then none else w.chosen q := by
  unfold taken
  induction clip.cells using List.reverseRecOn with
  | nil => exact ⟨rfl, rfl⟩
  | append_singleton before cell ih =>
    rw [List.foldl_append, List.map_append, List.foldl_cons, List.foldl_nil, content_clearCell,
      chosen_clearCell, ih.1, ih.2]
    by_cases here : q = cell.placed clip.origin
    · simp [here]
    · simp [here]

/-- Where references lead depends on the names of sheets only, as a block is moved. -/
theorem movedContent_congr (names : w'.registry = w.registry) (source : Zone) (anchor : Position)
    (content : Content) : w'.movedContent source anchor content = w.movedContent source anchor content := by
  cases content with
  | formula f =>
    unfold movedContent moveRedirection
    rw [names]
  | _ => rfl

/-- When cells are put down, each position has what was put there, or else what it had before. -/
theorem content_putDown (source : Zone) (cells : List ClipCell) (exist : (w₀.sheet? anchor.sheet).isSome = true)
    (done : w' = cells.foldl (fun w cell => (w.growTo (cell.placed anchor)).placeCell source anchor
      cell (cell.placed anchor)) w₀) :
    (w'.registry = w₀.registry ∧ (w'.sheet? anchor.sheet).isSome = true) ∧ ∀ q,
      (∃ cell ∈ cells, cell.placed anchor = q ∧
        (∃ turn, w'.content q = (w₀.movedContent source anchor cell.content).entered turn) ∧
          w'.chosen q = cell.format) ∨
      (∀ cell ∈ cells, cell.placed anchor ≠ q) ∧ w'.content q = w₀.content q ∧
        w'.chosen q = w₀.chosen q := by
  subst done
  induction cells using List.reverseRecOn with
  | nil =>
    exact ⟨⟨rfl, exist⟩, fun q => .inr ⟨fun cell none => absurd none List.not_mem_nil, rfl, rfl⟩⟩
  | append_singleton before cell ih =>
    rw [List.foldl_append, List.foldl_cons, List.foldl_nil]
    generalize before.foldl (fun w cell => (w.growTo (cell.placed anchor)).placeCell source anchor
      cell (cell.placed anchor)) w₀ = w₁ at ih ⊢
    obtain ⟨⟨names, there⟩, earlier⟩ := ih
    have room : ((w₁.growTo (cell.placed anchor)).sheet? anchor.sheet).isSome = true :=
      (isSome_sheet?_growTo ..).trans there
    have sheets := sameSheets_placeCell (w₁.growTo (cell.placed anchor)) source anchor cell
      (cell.placed anchor)
    refine ⟨⟨sheets.registry.trans ((registry_growTo ..).trans names),
      (sheets.isSome_sheet? _).trans room⟩, fun q => ?_⟩
    by_cases here : cell.placed anchor = q
    · refine .inl ⟨cell, List.mem_append_right _ (List.mem_singleton_self _), here,
        ⟨(w₁.growTo (cell.placed anchor)).entered, ?_⟩, ?_⟩
      · rw [placeCell, content_chooseFormat, content_replaceContent, if_pos ⟨here.symm, room⟩,
          movedContent_congr ((registry_growTo ..).trans names)]
      · rw [placeCell, ← here]
        refine chosen_chooseFormat_self _ _ _ ?_
        exact ((sameSheets_replaceContent ..).isSome_sheet? _).trans room
    · have content : ((w₁.growTo (cell.placed anchor)).placeCell source anchor cell
          (cell.placed anchor)).content q = w₁.content q := by
        rw [placeCell, content_chooseFormat, content_replaceContent,
          if_neg fun both => here both.1.symm, content_growTo]
      have chosen : ((w₁.growTo (cell.placed anchor)).placeCell source anchor cell
          (cell.placed anchor)).chosen q = w₁.chosen q := by
        rw [placeCell, chosen_chooseFormat _ _ (Ne.symm here), chosen_replaceContent, chosen_growTo]
      rw [content, chosen]
      rcases earlier q with ⟨other, listed, rest⟩ | ⟨apart, rest⟩
      · exact .inl ⟨other, List.mem_append_left _ listed, rest⟩
      · refine .inr ⟨fun other listed => ?_, rest⟩
        rcases List.mem_append.mp listed with before' | last
        · exact apart other before'
        · rwa [List.mem_singleton.mp last]

/-! ### Cells that have moved -/

/-- The cells of one workbook have been moved in another one, formulas following with their
references and taking another place in the order of entry when they move. There is nothing where no
cell was moved. -/
structure Transferred (move : Position → Option Position)
    (lead : SheetId → Reference → Option Reference) (w w' : Workbook) : Prop where
  registry : w'.registry = w.registry
  follows : ∀ p q, move p = some q →
    ∃ turn, ((w.content p).entered turn).Follows (lead p.sheet) (w'.content q)
  chosen : ∀ p q, move p = some q → w'.chosen q = w.chosen p
  empty : ∀ q, (∀ p, move p ≠ some q) → w'.content q = .empty
  unchosen : ∀ q, (∀ p, move p ≠ some q) → w'.chosen q = none

/-- Results do not matter to what was moved. -/
theorem Transferred.of_sameSources {w'' : Workbook} (transferred : Transferred move lead w w')
    (same : SameSources w' w'') : Transferred move lead w w'' where
  registry := same.registry.trans transferred.registry
  follows p q moved := by
    obtain ⟨turn, follows⟩ := transferred.follows p q moved
    exact ⟨turn, follows.congr (same.source q)⟩
  chosen p q moved := (same.chosen q).trans (transferred.chosen p q moved)
  empty q nowhere := by
    have source := same.source q
    rw [transferred.empty q nowhere] at source
    cases typed : w''.content q with
    | empty => rfl
    | _ =>
      rw [typed] at source
      contradiction
  unchosen q nowhere := (same.chosen q).trans (transferred.unchosen q nowhere)

/-- A formula that was moved has a tree whose references were led. -/
theorem Transferred.expr? (transferred : Transferred move lead w w') (moved : move p = some q)
    (typed : w.expr? p = some e) : ∃ e', w'.expr? q = some e' ∧ e'.bare = e.led (lead p.sheet) := by
  obtain ⟨turn, follows⟩ := transferred.follows p q moved
  exact follows.expr? ((Content.expr?_entered turn _).trans typed)

/-- Where moving the cells of a zone leads a reference in a formula on a sheet: a reference that lies
in the zone follows. -/
def cutLead (w : Workbook) (source : Zone) (anchor : Position) (home : SheetId) (r : Reference) :
    Option Reference :=
  match w.registry.denoted? home r with
  | none => some r
  | some z =>
    if source.containsZone z then
      r.moved ((anchor.row : Int) - source.top) ((anchor.column : Int) - source.left)
        (if r.sheet.isSome || anchor.sheet != home then
          some ((w.registry.name? anchor.sheet).getD "") else none)
    else some r

/-- A redirected formula on the sheet follows. -/
theorem follows_moveRedirection (w : Workbook) (source : Zone) (anchor : Position) (home : SheetId)
    (f : Formula) :
    f.Follows (w.cutLead source anchor home)
      (match f.expr?.bind (w.moveRedirection source anchor home home) with
        | some e => f.withExpr e
        | none => f) := by
  have lead : w.cutLead source anchor home = fun r =>
      (match (w.registry.resolve r.sheet home).bind r.boundedZone? with
        | none => Fate.stays
        | some z =>
          if source.containsZone z then
            .ofTarget? (r.moved ((anchor.row : Int) - source.top)
              ((anchor.column : Int) - source.left) (if r.sheet.isSome || anchor.sheet != home then
                some ((w.registry.name? anchor.sheet).getD "") else none))
          else .stays).target? r := by
    funext r
    unfold cutLead Registry.denoted?
    cases (w.registry.resolve r.sheet home).bind r.boundedZone? with
    | none => rfl
    | some z =>
      dsimp only
      split
      · rw [Fate.target?_ofTarget?]
      · rfl
  rw [lead]
  exact f.follows_redirect? _

/-- Cut content that is pasted on its sheet follows. -/
theorem follows_movedContent (w : Workbook) (here : anchor.sheet = source.sheet) (content : Content) :
    content.Follows (w.cutLead source anchor source.sheet) (w.movedContent source anchor content) := by
  cases content with
  | empty => exact .empty
  | literal typed value => exact .literal typed value
  | formula f =>
    have follows := w.follows_moveRedirection source anchor source.sheet f.cleared
    unfold movedContent
    rw [here]
    dsimp only
    split
    · rename_i e found
      rw [found] at follows
      exact .formula ⟨follows.tree, follows.sequence, follows.worded⟩
    · rename_i found
      rw [found] at follows
      exact .formula ⟨follows.tree, follows.sequence, follows.worded⟩

/-- Content that is redirected on its sheet follows. -/
theorem follows_redirectedContent (w : Workbook) (source : Zone) (anchor : Position)
    (home : SheetId) (content : Content) :
    content.Follows (w.cutLead source anchor home) (content.mapFormula fun f =>
      match f.expr?.bind (w.moveRedirection source anchor home home) with
      | some e => f.withExpr e
      | none => f) := by
  cases content with
  | empty => exact .empty
  | literal typed value => exact .literal typed value
  | formula f => exact .formula (w.follows_moveRedirection source anchor home f)

/-- Where moving leads references depends on the names of sheets only. -/
theorem cutLead_congr (names : w'.registry = w.registry) (source : Zone) (anchor : Position) :
    w'.cutLead source anchor = w.cutLead source anchor := by
  unfold cutLead
  rw [names]

/-- The cells that were cut are those of the cut positions. -/
theorem mem_taken_iff (copied : w.copyCells zones = .ok clip) (q : Position) :
    q ∈ clip.cells.map (·.placed clip.origin) ↔ q ∈ cutPositions zones := by
  obtain ⟨clipped, _, around⟩ := copyCells_spec copied
  have cells : clip.cells = (distinctPositions (cutPositions zones)).map (w.clipCell clip.bounds) :=
    congrArg Clip.cells clipped
  have own : ∀ p ∈ cutPositions zones,
      (w.clipCell clip.bounds p).placed clip.origin = p := fun p cut =>
    Position.carried_topLeft (contains_of_mem_cutPositions around cut)
  simp only [cells, List.map_map, List.mem_map, mem_distinctPositions, Function.comp_apply]
  constructor
  · rintro ⟨p, cut, same⟩
    rwa [← same, own p cut]
  · exact fun cut => ⟨q, cut, own q cut⟩

/-- After a cut has been pasted on its sheet, each position has what was put there. Where nothing was
put, it is blank if it was cut and has its own content otherwise. -/
theorem content_moved (copied : w.copyCells zones = .ok clip)
    (here : anchor.sheet = clip.bounds.sheet) :
    (w.moved clip anchor).registry = w.registry ∧ ∀ q,
      (∃ p ∈ cutPositions zones, p.carried clip.bounds anchor = q ∧
        (∃ turn, (w.moved clip anchor).content q =
          (w.movedContent clip.bounds anchor (w.content p)).entered turn) ∧
        (w.moved clip anchor).chosen q = w.chosen p) ∨
      (∀ p ∈ cutPositions zones, p.carried clip.bounds anchor ≠ q) ∧
        (q ∈ cutPositions zones → (w.moved clip anchor).content q = .empty ∧
          (w.moved clip anchor).chosen q = none) ∧
        (q ∉ cutPositions zones →
          (w.content q).Follows (w.cutLead clip.bounds anchor q.sheet)
            ((w.moved clip anchor).content q) ∧
          (w.moved clip anchor).chosen q = w.chosen q) := by
  obtain ⟨clipped, exist, _⟩ := copyCells_spec copied
  have cells : clip.cells = (distinctPositions (cutPositions zones)).map (w.clipCell clip.bounds) :=
    congrArg Clip.cells clipped
  have sheets := sameSheets_taken w clip
  generalize before : (w.taken clip).redirectFormulas ((w.taken clip).follow clip anchor) = w₀
  have names : w₀.registry = w.registry := by
    rw [← before]
    exact sheets.registry
  have there : (w₀.sheet? anchor.sheet).isSome = true := by
    rw [← before, isSome_sheet?_eq, extent?_redirectFormulas, ← isSome_sheet?_eq,
      sheets.isSome_sheet?, here]
    exact exist
  have rebuilt : (w.moved clip anchor).sheets = (w₀.putDown clip anchor).sheets := by
    rw [← before]
    rfl
  have taken := mem_taken_iff copied
  obtain ⟨⟨registry, _⟩, put⟩ := content_putDown clip.bounds clip.cells there rfl
  have renamed : (w.moved clip anchor).registry = (w₀.putDown clip anchor).registry := by
    rw [← before]
    rfl
  refine ⟨renamed.trans (registry.trans names), fun q => ?_⟩
  obtain ⟨content, chosen⟩ := content_taken w clip q
  rw [content_congr rebuilt, chosen_congr rebuilt]
  rcases put q with ⟨cell, listed, arrives, ⟨turn, placed⟩, format⟩ | ⟨apart, same, format⟩
  · obtain ⟨p, cut, rfl⟩ := List.mem_map.mp (cells ▸ listed)
    rw [movedContent_congr names] at placed
    exact .inl ⟨p, mem_distinctPositions.mp cut, arrives, ⟨turn, placed⟩, format⟩
  · have still : (w₀.putDown clip anchor).content q = w₀.content q := same
    have still' : (w₀.putDown clip anchor).chosen q = w₀.chosen q := format
    rw [still, still', ← before, content_redirectFormulas, chosen_redirectFormulas, content, chosen]
    refine .inr ⟨fun p cut => ?_, fun cut => ?_, fun uncut => ?_⟩
    · exact apart (w.clipCell clip.bounds p)
        (cells ▸ List.mem_map_of_mem (mem_distinctPositions.mpr cut))
    · rw [if_pos ((taken q).mpr cut), if_pos ((taken q).mpr cut)]
      exact ⟨rfl, rfl⟩
    · rw [if_neg (mt (taken q).mp uncut), if_neg (mt (taken q).mp uncut),
        ← cutLead_congr sheets.registry]
      exact ⟨(w.taken clip).follows_redirectedContent clip.bounds anchor q.sheet (w.content q), rfl⟩

/-- Where cells are after a cut has been pasted: moved if they were cut, and in their place if they
were neither cut nor replaced. -/
theorem cutMove_eq_some_iff : cutMove zones source anchor p = some q ↔
    p ∈ cutPositions zones ∧ p.carried source anchor = q ∨
      p ∉ cutPositions zones ∧ (∀ c ∈ cutPositions zones, c.carried source anchor ≠ p) ∧ p = q := by
  unfold cutMove
  by_cases cut : p ∈ cutPositions zones
  · simp [cut]
  · by_cases replaced : p ∈ (cutPositions zones).map (·.carried source anchor)
    · simp only [cut, replaced, ↓reduceIte]
      obtain ⟨c, listed, same⟩ := List.mem_map.mp replaced
      simp only [reduceCtorEq, false_and, not_false_eq_true, true_and, false_or, false_iff, not_and]
      exact fun apart => absurd same (apart c listed)
    · simp only [cut, replaced, ↓reduceIte, Option.some.injEq, false_and, not_false_eq_true,
        true_and, false_or]
      exact (and_iff_right fun c listed same =>
        replaced (List.mem_map.mpr ⟨c, listed, same⟩)).symm

/-- Pasting a cut on its sheet moves the cells of its zones and all references to their bounds. -/
theorem transferred_moved (copied : w.copyCells zones = .ok clip)
    (here : anchor.sheet = clip.bounds.sheet) :
    Transferred (cutMove zones clip.bounds anchor) (w.cutLead clip.bounds anchor) w
      (w.moved clip anchor) := by
  obtain ⟨registry, final⟩ := content_moved copied here
  have around := (copyCells_spec copied).2.2
  have arrival : ∀ p q, cutMove zones clip.bounds anchor p = some q →
      (∃ turn, ((w.content p).entered turn).Follows (w.cutLead clip.bounds anchor p.sheet)
        ((w.moved clip anchor).content q)) ∧ (w.moved clip anchor).chosen q = w.chosen p := by
    intro p q moves
    rcases cutMove_eq_some_iff.mp moves with ⟨cut, arrives⟩ | ⟨uncut, unreplaced, rfl⟩
    · have inside := contains_of_mem_cutPositions around cut
      rcases final q with ⟨p', cut', arrives', ⟨turn, content⟩, chosen⟩ | ⟨apart, _⟩
      · obtain rfl : p' = p := Position.carried_injective
          (contains_of_mem_cutPositions around cut') inside (arrives'.trans arrives.symm)
        have sheet : p'.sheet = clip.bounds.sheet := (Zone.contains_iff.mp inside).1
        refine ⟨⟨turn, ?_⟩, chosen⟩
        rw [content, sheet]
        exact (w.follows_movedContent here (w.content p')).entered turn
      · exact absurd arrives (apart p cut)
    · obtain ⟨turn, still⟩ := (w.content p).exists_entered_eq
      rcases final p with ⟨c, cut, arrives, _⟩ | ⟨_, _, kept⟩
      · exact absurd arrives (unreplaced c cut)
      · obtain ⟨follows, chosen⟩ := kept uncut
        exact ⟨⟨turn, still.symm ▸ follows⟩, chosen⟩
  have vacated : ∀ q, (∀ p, cutMove zones clip.bounds anchor p ≠ some q) →
      (w.moved clip anchor).content q = .empty ∧ (w.moved clip anchor).chosen q = none := by
    intro q nowhere
    rcases final q with ⟨p, cut, arrives, _⟩ | ⟨apart, blank, _⟩
    · exact absurd (cutMove_eq_some_iff.mpr (.inl ⟨cut, arrives⟩)) (nowhere p)
    · by_cases cut : q ∈ cutPositions zones
      · exact blank cut
      · exact absurd (cutMove_eq_some_iff.mpr (.inr ⟨cut, apart, rfl⟩)) (nowhere q)
  exact ⟨registry, fun p q moves => (arrival p q moves).1, fun p q moves => (arrival p q moves).2,
    fun q nowhere => (vacated q nowhere).1, fun q nowhere => (vacated q nowhere).2⟩

/-! ### References to moved cells -/

/-- What becomes of a reference is as it should be when zones are cut: if it gives every axis, it
denotes what its positions have become if all of them were cut and the same zone otherwise, and else it
stays. -/
def FollowsCut (zones : List Zone) (source : Zone) (anchor : Position) (registry : Registry)
    (home newHome : SheetId) (r : Reference) (new : Option Reference) : Prop :=
  match registry.denoted? home r with
  | none => new = some r
  | some z =>
    ((∀ p, z.contains p = true → p ∈ cutPositions zones) →
      ∃ r', new = some r' ∧ registry.denoted? newHome r' = some (z.carried source anchor)) ∧
    (¬(∀ p, z.contains p = true → p ∈ cutPositions zones) →
      ∃ r', new = some r' ∧ registry.denoted? newHome r' = some z)

/-- The name that a reference with a qualifier gets when it follows moved cells leads to their sheet. -/
def NamesSheet (registry : Registry) (sheet : SheetId) (r : Reference) : Prop :=
  r.sheet.isSome = true → registry.id? ((registry.name? sheet).getD "") = some sheet

/-- A reference that lies in the smallest zone around cut ones denotes what its cells would become in
that zone, as far as it can name that. -/
theorem denoted?_cutLead (denoted : w.registry.denoted? home r = some z)
    (within : source.containsZone z = true) (here : anchor.sheet = source.sheet) :
    (r.CanName (z.carried source anchor) →
      ∃ new, w.cutLead source anchor home r = some new ∧
        (w.registry.denoted? home new = some (z.carried source anchor) ↔
          NamesSheet w.registry anchor.sheet r) ∧
        ∀ z', w.registry.denoted? home new = some z' →
          ∃ id, z' = { z.carried source anchor with sheet := id }) ∧
      (¬r.CanName (z.carried source anchor) → w.cutLead source anchor home r = none) := by
  obtain ⟨id, led, bounded⟩ := Option.bind_eq_some_iff.mp denoted
  have sheet : id = anchor.sheet :=
    (Reference.sheet_of_boundedZone? bounded).symm.trans
      ((Zone.containsZone_iff.mp within).1.trans here.symm)
  generalize qualifier : (if r.sheet.isSome || anchor.sheet != home then
    some ((w.registry.name? anchor.sheet).getD "") else none) = named
  have lead : w.cutLead source anchor home r =
      r.moved ((anchor.row : Int) - source.top) ((anchor.column : Int) - source.left) named := by
    rw [cutLead, denoted, ← qualifier]
    exact if_pos within
  obtain ⟨moved, lost⟩ := Reference.moved_of_containsZone bounded within anchor named
  rw [lead]
  refine ⟨fun nameable => ?_, lost⟩
  obtain ⟨new, found, own, zone⟩ := moved nameable
  refine ⟨new, found, ?_, fun z' denoted' => ?_⟩
  · have resolves : w.registry.resolve named home = some anchor.sheet ↔
        NamesSheet w.registry anchor.sheet r := by
      unfold NamesSheet
      cases qualified : r.sheet with
      | some name =>
        rw [qualified] at qualifier
        rw [← qualifier]
        simp [Registry.resolve]
      | none =>
        -- A reference without a qualifier leads to the sheet of its formula.
        rw [qualified] at led qualifier
        obtain ⟨_, _, rfl⟩ := Option.map_eq_some_iff.mp led
        have own : named = none := by
          rw [← qualifier, sheet]
          simp
        rw [own, led, sheet]
        simp
    rw [← resolves, Registry.denoted?, own]
    cases w.registry.resolve named home with
    | none => simp
    | some id' =>
      rw [Option.bind_some, zone id']
      constructor
      · exact fun same => congrArg some (congrArg Zone.sheet (Option.some.inj same))
      · rintro ⟨⟩
        rfl
  · obtain ⟨id', _, bounded'⟩ := Option.bind_eq_some_iff.mp denoted'
    rw [zone id'] at bounded'
    exact ⟨id', (Option.some.inj bounded').symm⟩

/-- A reference that was led with a zone denotes what it did exactly if the zone is pasted where it was
and its sheet is named. -/
theorem denoted?_led_eq_self_iff {new : Reference} (within : source.containsZone z = true)
    (here : anchor.sheet = source.sheet)
    (carried : w.registry.denoted? home new = some (z.carried source anchor) ↔
      NamesSheet w.registry anchor.sheet r)
    (only : ∀ z', w.registry.denoted? home new = some z' →
      ∃ id, z' = { z.carried source anchor with sheet := id }) :
    w.registry.denoted? home new = some z ↔
      anchor = source.topLeft ∧ NamesSheet w.registry anchor.sheet r := by
  constructor
  · intro still
    obtain ⟨id, same⟩ := only z still
    have rooted : anchor = source.topLeft := by
      by_contra away
      have sheet : z.sheet = anchor.sheet := (Zone.containsZone_iff.mp within).1.trans here.symm
      have own : id = anchor.sheet := (congrArg Zone.sheet same).symm.trans sheet
      rw [own] at same
      exact Zone.carried_ne within away same.symm
    refine ⟨rooted, carried.mp ?_⟩
    rw [still, rooted, Zone.carried_topLeft within]
  · rintro ⟨rooted, names⟩
    rw [carried.mpr names, rooted, Zone.carried_topLeft within]

/-- A reference goes astray when zones are cut and pasted: it lies in the smallest zone around them, but
it cannot name the cells there, or not all of its own cells move, or it would name the sheet by a name
that does not lead there. -/
def Astray (zones : List Zone) (source : Zone) (anchor : Position) (registry : Registry)
    (home : SheetId) (r : Reference) : Prop :=
  ∃ z, registry.denoted? home r = some z ∧ source.containsZone z = true ∧
    (¬r.CanName (z.carried source anchor) ∨
      anchor ≠ source.topLeft ∧ (∃ p, z.contains p = true ∧ p ∉ cutPositions zones) ∨
      ¬NamesSheet registry anchor.sheet r)

/-- A reference is led as it should be exactly if it does not go astray. -/
theorem followsCut_cutLead_iff (around : ∀ z ∈ zones, source.containsZone z = true)
    (here : anchor.sheet = source.sheet) :
    FollowsCut zones source anchor w.registry home home r (w.cutLead source anchor home r) ↔
      ¬Astray zones source anchor w.registry home r := by
  unfold FollowsCut Astray
  cases denoted : w.registry.denoted? home r with
  | none => simp [cutLead, denoted]
  | some z =>
    simp only [Option.some.injEq, exists_eq_left']
    by_cases within : source.containsZone z = true
    · obtain ⟨follows, lost⟩ := denoted?_cutLead denoted within here
      by_cases nameable : r.CanName (z.carried source anchor)
      · obtain ⟨new, lead, carried, only⟩ := follows nameable
        have stays := denoted?_led_eq_self_iff within here carried only
        have partly : (∃ p, z.contains p = true ∧ p ∉ cutPositions zones) ↔
            ¬∀ p, z.contains p = true → p ∈ cutPositions zones := by
          push Not
          rfl
        rw [lead, partly]
        simp only [Option.some.injEq, exists_eq_left', carried, stays, within, nameable,
          not_true_eq_false, true_and, false_or, ne_eq]
        by_cases all : ∀ p, z.contains p = true → p ∈ cutPositions zones
        · rw [eq_true all]
          simp
        · rw [eq_false all]
          by_cases rooted : anchor = source.topLeft
          · rw [eq_true rooted]
            simp
          · rw [eq_false rooted]
            simp
      · rw [lost nameable]
        refine iff_of_false (fun both => ?_) (fun fine => fine ⟨within, .inl nameable⟩)
        by_cases all : ∀ p, z.contains p = true → p ∈ cutPositions zones
        · obtain ⟨r', none', _⟩ := both.1 all
          contradiction
        · obtain ⟨r', none', _⟩ := both.2 all
          contradiction
    · -- A reference that is not within the bounds covers a cell that is not cut.
      have partly : ¬∀ p, z.contains p = true → p ∈ cutPositions zones := fun all =>
        within (Zone.containsZone_of_contains fun p inside =>
          contains_of_mem_cutPositions around (all p inside))
      have lead : w.cutLead source anchor home r = some r := by
        rw [cutLead, denoted]
        exact if_neg within
      rw [lead]
      exact iff_of_true ⟨fun all => absurd all partly, fun _ => ⟨r, rfl, denoted⟩⟩
        fun astray => within astray.1

/-- Pasting a cut follows the rules: the cut contents and formats are where they are pasted, what is
neither cut nor replaced stays, all else is blank, and every reference in a formula that is left
becomes what it should. -/
def CutFollowed (zones : List Zone) (source : Zone) (anchor : Position) (w w' : Workbook) : Prop :=
  ∃ lead, Transferred (cutMove zones source anchor) lead w w' ∧
    ∀ p q e, cutMove zones source anchor p = some q → w.expr? p = some e → ∀ r ∈ e.references,
      FollowsCut zones source anchor w.registry p.sheet q.sheet r (lead p.sheet r)

/-- Cells that are cut and pasted on one sheet stay on their sheet. -/
theorem sheet_of_cutMove (around : ∀ z ∈ zones, source.containsZone z = true)
    (here : anchor.sheet = source.sheet) (moves : cutMove zones source anchor p = some q) :
    q.sheet = p.sheet := by
  rcases cutMove_eq_some_iff.mp moves with ⟨cut, rfl⟩ | ⟨_, _, rfl⟩
  · have inside := contains_of_mem_cutPositions around cut
    exact here.trans (Zone.contains_iff.mp inside).1.symm
  · rfl

/-- When zones of one sheet are cut and pasted on it, contents, formats and references follow exactly
if no reference in a formula that is left goes astray. -/
theorem cutFollowed_iff_of_pasted (waits : w.clipboard = some (.cut zones))
    (copied : w.copyCells zones = .ok clip) (here : target.sheet = clip.bounds.sheet)
    (rest : List Zone) :
    CutFollowed zones clip.bounds target.topLeft w
        (w.after (.paste (target :: rest) .everything)) ↔
      ∀ p e, (cutMove zones clip.bounds target.topLeft p).isSome = true → w.expr? p = some e →
        ∀ r ∈ e.references, ¬Astray zones clip.bounds target.topLeft w.registry p.sheet r := by
  obtain ⟨_, exist, around⟩ := copyCells_spec copied
  have there : (w.sheet? target.sheet).isSome = true := here ▸ exist
  have prepared : w.prepared (.paste (target :: rest) .everything) =
      some (w.moved clip target.topLeft) := by
    simp only [prepared, waits, preparedMove, there, copied, ↓reduceIte]
    rfl
  have transferred : Transferred (cutMove zones clip.bounds target.topLeft)
      (w.cutLead clip.bounds target.topLeft) w
      (w.after (.paste (target :: rest) .everything)) := by
    rw [after_eq, prepared]
    exact (transferred_moved copied here).of_sameSources (sameSources_recalculate _)
  constructor
  · rintro ⟨lead, others, follows⟩ p e survives typed r listed
    obtain ⟨q, moves⟩ := Option.isSome_iff_exists.mp survives
    have fate := follows p q e moves typed r listed
    -- There is one tree there, so both ways lead its references to the same.
    obtain ⟨e', shown, bare⟩ := transferred.expr? moves typed
    obtain ⟨e'', shown', bare'⟩ := others.expr? moves typed
    rw [shown] at shown'
    obtain rfl := Option.some.inj shown'
    rw [Expr.led_eq_led_iff.mp (bare'.symm.trans bare) r listed,
      sheet_of_cutMove around here moves] at fate
    exact (followsCut_cutLead_iff around here).mp fate
  · intro straight
    refine ⟨_, transferred, fun p q e moves typed r listed => ?_⟩
    rw [sheet_of_cutMove around here moves]
    exact (followsCut_cutLead_iff around here).mpr
      (straight p e (Option.isSome_of_mem moves) typed r listed)

/-- A cell between two cut ones stays, but a reference to it is led to where it would be if the cells
had been cut with what lies between them. -/
theorem not_cutFollowed_of_gap :
    ¬CutFollowed [.single ⟨0, 0, 0⟩, .single ⟨0, 0, 2⟩] (.span 0 0 0 0 2) ⟨0, 4, 0⟩
      (((new Settings.standard FunctionTable.empty).after (.setContent 0 0 3 "=B1")).after
        (.cut [.single ⟨0, 0, 0⟩, .single ⟨0, 0, 2⟩]))
      ((((new Settings.standard FunctionTable.empty).after (.setContent 0 0 3 "=B1")).after
        (.cut [.single ⟨0, 0, 0⟩, .single ⟨0, 0, 2⟩])).after
          (.paste [.single ⟨0, 4, 0⟩] .everything)) := by
  obtain ⟨e, typed, references⟩ := exists_expr?_after_setContent Settings.standard
    FunctionTable.empty ⟨0, 0, 3⟩ "=B1" [.cell none ⟨0, 1, false, false, by decide, by decide⟩]
    (by decide +kernel) (by decide +kernel)
  have sheets := (new Settings.standard FunctionTable.empty).sameSheets_after_setContent
    ⟨0, 0, 3⟩ "=B1"
  have extent : ((new Settings.standard FunctionTable.empty).after
      (.setContent 0 0 3 "=B1")).extent? 0 = some (100, 26) :=
    (sheets.extent 0).trans (by decide +kernel)
  have denoted : ((new Settings.standard FunctionTable.empty).after
      (.setContent 0 0 3 "=B1")).registry.denoted? 0
        (.cell none ⟨0, 1, false, false, by decide, by decide⟩) = some (.single ⟨0, 0, 1⟩) := by
    rw [sheets.registry]
    decide +kernel
  generalize (new Settings.standard FunctionTable.empty).after (.setContent 0 0 3 "=B1") = w at *
  have copied : ∀ v : Workbook, v.extent? 0 = some (100, 26) →
      v.copyCells [.single ⟨0, 0, 0⟩, .single ⟨0, 0, 2⟩] =
        .ok (.ofZones v (.span 0 0 0 0 2) [.single ⟨0, 0, 0⟩, .single ⟨0, 0, 2⟩]) := by
    intro v extent
    refine copyCells_cons_eq_ok_iff.mpr ⟨?_, rfl⟩
    simp only [List.forall_mem_cons]
    exact ⟨⟨trivial, any_hasRoomFor_of_extent? extent (by decide) (by decide)⟩,
      ⟨rfl, any_hasRoomFor_of_extent? extent (by decide) (by decide)⟩,
      fun z none => absurd none List.not_mem_nil⟩
  rw [after_cut (copied w extent)]
  generalize holding : ({ w with
    clipboard := some (.cut [.single ⟨0, 0, 0⟩, .single ⟨0, 0, 2⟩]) } : Workbook) = v
  have waits : v.clipboard = some (.cut [.single ⟨0, 0, 0⟩, .single ⟨0, 0, 2⟩]) := by
    rw [← holding]
  have extent' : v.extent? 0 = some (100, 26) := holding ▸ extent
  have typed' : v.expr? ⟨0, 0, 3⟩ = some e := holding ▸ typed
  have denoted' : v.registry.denoted? 0
      (.cell none ⟨0, 1, false, false, by decide, by decide⟩) = some (.single ⟨0, 0, 1⟩) :=
    holding ▸ denoted
  have here : (Zone.single ⟨0, 4, 0⟩).sheet = (Clip.ofZones v (.span 0 0 0 0 2)
    [.single ⟨0, 0, 0⟩, .single ⟨0, 0, 2⟩]).bounds.sheet := rfl
  intro followed
  have straight := (cutFollowed_iff_of_pasted waits (copied v extent') here []).mp followed
  simp only [Clip.bounds_ofZones] at straight
  refine straight ⟨0, 0, 3⟩ e rfl typed' _ (references ▸ List.mem_singleton_self _)
    ⟨.single ⟨0, 0, 1⟩, denoted', by decide, .inr (.inl ⟨by decide, ⟨0, 0, 1⟩, by decide, ?_⟩)⟩
  decide

end Workbook

end Spreadsheet
