import Mathlib.Data.List.Induction
import Spreadsheet.Proofs.Workbook.Requests

/-!
# Dependencies that are up to date

The recorded zones of a formula are right if they are the ones its references lead to now. Every
request leaves them right except one: pasting a clip may enlarge a sheet without looking again at
the formulas that refer to it as a whole or beyond its border. Zones are wrong after such a paste
exactly where a reference covers another zone then than when it was recorded.
-/
namespace Spreadsheet

namespace Workbook

variable {w w' : Workbook} {p q : Position} {e : Expr}

/-- The zones that the formula at a position reads as things stand, in ascending order. -/
def zonesNow (w : Workbook) (p : Position) : List Zone :=
  match w.expr? p with
  | some e => sortedZones (w.zonesRead e p.sheet)
  | none => []

/-- The recorded zones are those that formulas read as things stand. -/
structure UpToDate (w : Workbook) : Prop where
  indexed : w.dependencies.Indexed
  zonesOf : ∀ p, w.dependencies.zonesOf p = w.zonesNow p

/-- What a formula reads depends on its tree, the names of sheets and their extents. -/
theorem zonesNow_congr (registry : w'.registry = w.registry)
    (extent : ∀ id, w'.extent? id = w.extent? id) (tree : w'.expr? p = w.expr? p) :
    w'.zonesNow p = w.zonesNow p := by
  unfold zonesNow
  rw [tree]
  cases w.expr? p with
  | none => rfl
  | some e => exact congrArg sortedZones (zonesRead_congr registry extent e p.sheet)

/-- Dependencies stay up to date where trees, names and extents stay. -/
theorem UpToDate.congr (current : w.UpToDate) (dependencies : w'.dependencies = w.dependencies)
    (registry : w'.registry = w.registry) (extent : ∀ id, w'.extent? id = w.extent? id)
    (tree : ∀ p, w'.expr? p = w.expr? p) : w'.UpToDate where
  indexed := by
    rw [dependencies]
    exact current.indexed
  zonesOf p := by
    rw [dependencies, current.zonesOf, zonesNow_congr registry extent (tree p)]

/-- The tree of a position is that of its formula. -/
theorem expr?_eq (w : Workbook) (p : Position) :
    w.expr? p = (w.formula? p).bind Formula.expr? := by
  rw [formula?_eq]
  rfl

/-- Only formulas have trees. -/
theorem isFormula_of_expr? (tree : w.expr? p = some e) : w.isFormula p = true := by
  rw [expr?_eq] at tree
  obtain ⟨f, formula, _⟩ := Option.bind_eq_some_iff.mp tree
  rw [isFormula, formula]
  rfl

/-- Record what one formula reads, if it has a tree. -/
def recordEntry (w : Workbook) (d : Dependencies) (entry : Position × Formula) : Dependencies :=
  match entry.2.expr? with
  | some e => d.record entry.1 (w.zonesRead e entry.1.sheet)
  | none => d

/-- Recording what one formula reads. -/
theorem zonesOf_recordEntry {entry : Position × Formula} {d : Dependencies}
    (listed : w.formula? entry.1 = some entry.2) (bare : ∀ p, w.expr? p = none → d.zonesOf p = [])
    (p : Position) :
    (w.recordEntry d entry).zonesOf p = if p = entry.1 then w.zonesNow p else d.zonesOf p := by
  have tree : w.expr? entry.1 = entry.2.expr? := by rw [expr?_eq, listed, Option.bind_some]
  unfold recordEntry
  cases found : entry.2.expr? with
  | none =>
    dsimp only
    split
    · rename_i here
      rw [here, bare _ (tree.trans found)]
      simp [zonesNow, tree, found]
    · rfl
  | some e =>
    dsimp only
    rw [Dependencies.zonesOf_record]
    split
    · rename_i here
      simp [zonesNow, here, tree, found]
    · rfl

/-- Recording what several formulas read. -/
theorem zonesOf_foldl_recordEntry (formulas : List (Position × Formula))
    (listed : ∀ entry ∈ formulas, w.formula? entry.1 = some entry.2) (d : Dependencies)
    (bare : ∀ p, w.expr? p = none → d.zonesOf p = []) (p : Position) :
    (formulas.foldl w.recordEntry d).zonesOf p =
      if p ∈ formulas.map Prod.fst then w.zonesNow p else d.zonesOf p := by
  induction formulas generalizing d with
  | nil => simp
  | cons entry rest ih =>
    have head := zonesOf_recordEntry (listed entry List.mem_cons_self) bare
    have bareNow : ∀ q, w.expr? q = none → w.zonesNow q = [] := fun q none => by
      simp [zonesNow, none]
    rw [List.foldl_cons, ih (fun other later => listed other (List.mem_cons_of_mem _ later)) _
      (fun q none => by rw [head, bareNow q none, bare q none, ite_self]), head]
    by_cases here : p = entry.1
    · simp [here]
    · simp only [here, ↓reduceIte, List.map_cons, List.mem_cons, false_or]

/-- Rebuilding records the dependencies of every formula. -/
theorem rebuildDependencies_eq (w : Workbook) :
    w.rebuildDependencies =
      { w with dependencies := w.formulas.foldl w.recordEntry .empty } := rfl

/-- Rebuilt dependencies are those that formulas have as things stand. -/
theorem zonesOf_rebuildDependencies (w : Workbook) (p : Position) :
    w.rebuildDependencies.dependencies.zonesOf p = w.zonesNow p := by
  rw [rebuildDependencies_eq]
  dsimp only
  rw [zonesOf_foldl_recordEntry w.formulas (fun _ listed => mem_formulas.mp listed)
    .empty (fun _ _ => rfl)]
  split
  · rfl
  · rename_i missing
    have none : w.formula? p = none := by
      cases found : w.formula? p with
      | none => rfl
      | some f => exact absurd (List.mem_map_of_mem (mem_formulas.mpr found)) missing
    simp [zonesNow, expr?_eq, none, Dependencies.zonesOf, Dependencies.empty]

/-- Rebuilt dependencies are indexed. -/
theorem indexed_rebuildDependencies (w : Workbook) :
    w.rebuildDependencies.dependencies.Indexed := by
  rw [rebuildDependencies_eq]
  refine List.foldlRecOn _ _ (motive := Dependencies.Indexed) Dependencies.indexed_empty ?_
  intro d indexed entry _
  unfold recordEntry
  split
  · exact indexed.record _ _
  · exact indexed

/-- Rebuilt dependencies are up to date. -/
theorem upToDate_rebuildDependencies (w : Workbook) : w.rebuildDependencies.UpToDate where
  indexed := w.indexed_rebuildDependencies
  zonesOf p := w.zonesOf_rebuildDependencies p

/-- Marks do not touch dependencies. -/
theorem UpToDate.markDirty (current : w.UpToDate) (positions : List Position) :
    (w.markDirty positions).UpToDate :=
  current.congr rfl rfl (fun _ => rfl) fun _ => rfl

/-- The clipboard does not touch dependencies. -/
theorem UpToDate.clipboard (current : w.UpToDate) (clipboard : Option Clipboard) :
    UpToDate { w with clipboard := clipboard } :=
  current.congr rfl rfl (fun _ => rfl) fun _ => rfl

/-- Dependencies are up to date for the same sources. -/
theorem UpToDate.of_sameSources (current : w.UpToDate) (same : SameSources w w') : w'.UpToDate :=
  current.congr same.dependencies same.registry same.extent same.expr?

/-- Dependencies that are up to date for the same sources were so before. -/
theorem UpToDate.of_later (current : w'.UpToDate) (same : SameSources w w') : w.UpToDate :=
  current.congr same.dependencies.symm same.registry.symm (fun id => (same.extent id).symm)
    fun p => (same.expr? p).symm

/-- A new workbook has no dependencies. -/
theorem upToDate_new (settings : Settings) (functions : FunctionTable) :
    (new settings functions).UpToDate where
  indexed := Dependencies.indexed_empty
  zonesOf p := by
    have blank : (new settings functions).expr? p = none := by
      rw [expr?, content, cell?_new]
      rfl
    have nothing : (new settings functions).zonesNow p = [] := by simp [zonesNow, blank]
    rw [nothing]
    simp [new, Dependencies.zonesOf, Dependencies.empty]

/-! ### Changes of contents -/

/-- The tree of a position after a replacement. -/
theorem expr?_replaceContent (w : Workbook) (p q : Position) (content : Content)
    (exist : (w.sheet? p.sheet).isSome = true) :
    (w.replaceContent p content).expr? q = if q = p then content.expr? else w.expr? q := by
  unfold expr?
  rw [content_replaceContent]
  by_cases here : q = p
  · rw [if_pos ⟨here, exist⟩, if_pos here, Content.expr?_entered]
  · rw [if_neg fun both => here both.1, if_neg here]

/-- The recorded zones after a replacement. -/
theorem zonesOf_replaceContent (w : Workbook) (p q : Position) (content : Content) :
    (w.replaceContent p content).dependencies.zonesOf q =
      if q = p then
        match content.expr? with
        | some e => sortedZones (w.zonesRead e p.sheet)
        | none => []
      else w.dependencies.zonesOf q := by
  rw [dependencies_replaceContent]
  cases content.expr? with
  | none => exact Dependencies.zonesOf_remove _ _ _
  | some e =>
    dsimp only
    rw [Dependencies.zonesOf_record, Dependencies.zonesOf_remove]
    split
    · rfl
    · rfl

/-- Replacing content keeps dependencies indexed. -/
theorem indexed_replaceContent (indexed : w.dependencies.Indexed) (p : Position)
    (content : Content) : (w.replaceContent p content).dependencies.Indexed := by
  rw [dependencies_replaceContent]
  split
  · exact (indexed.remove p).record p _
  · exact indexed.remove p

/-- Replacing content on a sheet keeps dependencies up to date. -/
theorem UpToDate.replaceContent (current : w.UpToDate) (p : Position) (content : Content)
    (exist : (w.sheet? p.sheet).isSome = true) : (w.replaceContent p content).UpToDate where
  indexed := indexed_replaceContent current.indexed p content
  zonesOf q := by
    have sheets := sameSheets_replaceContent w p content
    rw [zonesOf_replaceContent]
    unfold zonesNow
    rw [expr?_replaceContent w p q content exist]
    simp only [sheets.zonesRead]
    split
    · rename_i here
      rw [here]
    · exact current.zonesOf q

/-- A sheet with content exists. -/
theorem isSome_sheet?_of_hasContent (filled : w.hasContent p = true) :
    (w.sheet? p.sheet).isSome = true := by
  cases found : w.sheet? p.sheet with
  | some s => rfl
  | none =>
    unfold hasContent cell? at filled
    rw [found] at filled
    contradiction

/-- Deleting content keeps dependencies up to date. -/
theorem UpToDate.emptied (current : w.UpToDate) (positions : List Position) :
    (w.emptied positions).UpToDate :=
  emptied_induction (P := UpToDate) current (fun _ p filled kept =>
    kept.replaceContent p .empty (isSome_sheet?_of_hasContent filled)) positions

/-- The tree of a position does not depend on chosen formats. -/
theorem expr?_chooseFormat (w : Workbook) (p q : Position) (format : Option String) :
    (w.chooseFormat p format).expr? q = w.expr? q := by
  unfold expr?
  rw [content_chooseFormat]

/-- Choosing a format keeps dependencies up to date. -/
theorem UpToDate.chooseFormat (current : w.UpToDate) (p : Position) (format : Option String) :
    (w.chooseFormat p format).UpToDate :=
  current.congr (dependencies_chooseFormat w p format) (sameSheets_chooseFormat w p format).registry
    (sameSheets_chooseFormat w p format).extent (expr?_chooseFormat w p · format)

/-- Choosing formats keeps dependencies up to date. -/
theorem UpToDate.formatted (current : w.UpToDate) (positions : List Position)
    (format : Option String) : (w.formatted positions format).UpToDate :=
  formatted_induction (P := UpToDate) current fun _ p _ kept => kept.chooseFormat p format

/-! ### Pasting a clip -/

/-- The sheets are enlarged to hold positions. -/
def enlarged (w : Workbook) (positions : List Position) : Workbook := positions.foldl growTo w

/-- The workbook in whose extents the zones of a position were recorded, once a clip has been pasted
at some places: a formula that was pasted saw the sheets grow up to its own place, any other formula
did not see them grow. -/
def recordedIn (w : Workbook) (places : List Position) (mode : PasteMode) (p : Position) :
    Workbook :=
  if mode = .everything then w.enlarged (places.reverse.dropWhile (· != p)).reverse else w

/-- A paste leaves the recorded zones of a position stale: its formula reads other zones in the
sheets as the paste leaves them than it did when its zones were recorded. -/
def LeavesStale (w : Workbook) (clip : Clip) (targets : List Zone) (mode : PasteMode)
    (p : Position) : Prop :=
  ∃ e, (w.pastedAll clip targets mode).expr? p = some e ∧
    sortedZones ((w.recordedIn ((pastings clip targets).map Prod.snd) mode p).zonesRead e p.sheet) ≠
      sortedZones ((w.pastedAll clip targets mode).zonesRead e p.sheet)

/-- Enlarging sheets leaves their names. -/
theorem registry_enlarged (w : Workbook) (positions : List Position) :
    (w.enlarged positions).registry = w.registry :=
  List.foldlRecOn positions _ (motive := fun (w' : Workbook) => w'.registry = w.registry) rfl
    fun w' same p _ => (registry_growTo w' p).trans same

/-- Enlarging sheets of the same extents gives the same extents. -/
theorem extent?_growTo_congr (same : ∀ id, w'.extent? id = w.extent? id) (p : Position)
    (id : SheetId) : (w'.growTo p).extent? id = (w.growTo p).extent? id := by
  rw [extent?_growTo, extent?_growTo, same]

/-- Sheets are enlarged to hold one more position. -/
theorem enlarged_concat (w : Workbook) (positions : List Position) (p : Position) :
    w.enlarged (positions ++ [p]) = (w.enlarged positions).growTo p := by
  unfold enlarged
  rw [List.foldl_append]
  rfl

/-- A formula that is pasted sees all sheets that have grown so far. -/
theorem recordedIn_concat_self (w : Workbook) (places : List Position) (p : Position) :
    w.recordedIn (places ++ [p]) .everything p = w.enlarged (places ++ [p]) := by
  simp [recordedIn]

/-- A formula does not see sheets grow when another cell is pasted. -/
theorem recordedIn_concat_of_ne (w : Workbook) (places : List Position) (mode : PasteMode)
    {p q : Position} (other : q ≠ p) :
    w.recordedIn (places ++ [q]) mode p = w.recordedIn places mode p := by
  unfold recordedIn
  rw [List.reverse_append, List.reverse_singleton, List.singleton_append,
    List.dropWhile_cons_of_pos (by simpa using other)]

/-- What has become of a workbook when some cells of a clip have been pasted. -/
structure Pasting (w : Workbook) (mode : PasteMode) (places : List Position) (w' : Workbook) :
    Prop where
  registry : w'.registry = w.registry
  extent : ∀ id, w'.extent? id = (w.enlarged places).extent? id
  indexed : w'.dependencies.Indexed
  zonesOf : ∀ p, w'.dependencies.zonesOf p =
    match w'.expr? p with
    | some e => sortedZones ((w.recordedIn places mode p).zonesRead e p.sheet)
    | none => []

/-- Before any cell has been pasted. -/
theorem Pasting.start (current : w.UpToDate) (mode : PasteMode) : w.Pasting mode [] w where
  registry := rfl
  extent _ := rfl
  indexed := current.indexed
  zonesOf p := by
    have here : w.recordedIn [] mode p = w := by
      unfold recordedIn
      split <;> rfl
    rw [current.zonesOf, here]
    rfl

/-- Values are pasted as content that has no tree. -/
theorem expr?_contentOfValue (v : Value) : (contentOfValue v).expr? = none := by
  cases v <;> rfl

/-- One more cell has been pasted. -/
theorem Pasting.step {mode : PasteMode} {places : List Position} (pasting : w.Pasting mode places w')
    (clip : Clip) (cell : ClipCell) (p : Position) (exist : (w'.sheet? p.sheet).isSome = true) :
    w.Pasting mode (places ++ [p]) (pasted clip mode w' (cell, p)) := by
  have room : ((w'.growTo p).sheet? p.sheet).isSome = true := by
    rw [isSome_sheet?_growTo, exist]
  have sheets := sameSheets_pasteCell (w'.growTo p) cell (cell.placed clip.origin) p mode
  have grown : ∀ id, (w'.growTo p).extent? id = (w.enlarged (places ++ [p])).extent? id := by
    intro id
    rw [enlarged_concat]
    exact extent?_growTo_congr pasting.extent p id
  have names : (w'.growTo p).registry = (w.enlarged (places ++ [p])).registry := by
    rw [registry_growTo, pasting.registry, registry_enlarged]
  have trees : ∀ q, (w'.growTo p).expr? q = w'.expr? q := fun q => by
    unfold expr?
    rw [content_growTo]
  refine ⟨?_, ?_, ?_, ?_⟩
  · exact sheets.registry.trans ((registry_growTo w' p).trans pasting.registry)
  · exact fun id => (sheets.extent id).trans (grown id)
  · unfold pasted pasteCell
    cases mode with
    | everything =>
      rw [dependencies_chooseFormat]
      exact indexed_replaceContent (by rw [dependencies_growTo]; exact pasting.indexed) p _
    | value => exact indexed_replaceContent (by rw [dependencies_growTo]; exact pasting.indexed) p _
    | format =>
      rw [dependencies_chooseFormat, dependencies_growTo]
      exact pasting.indexed
  · intro q
    have before := pasting.zonesOf q
    unfold pasted pasteCell
    cases mode with
    | everything =>
      dsimp only
      rw [dependencies_chooseFormat, zonesOf_replaceContent, expr?_chooseFormat,
        expr?_replaceContent _ _ _ _ room, dependencies_growTo, trees]
      by_cases here : q = p
      · subst here
        rw [if_pos rfl, if_pos rfl, recordedIn_concat_self]
        split
        · rw [zonesRead_congr names grown]
        · rfl
      · rw [if_neg here, if_neg here, recordedIn_concat_of_ne _ _ _ (Ne.symm here), before]
    | value =>
      dsimp only
      rw [zonesOf_replaceContent, expr?_replaceContent _ _ _ _ room, dependencies_growTo, trees]
      by_cases here : q = p
      · subst here
        rw [if_pos rfl, if_pos rfl, expr?_contentOfValue]
      · rw [if_neg here, if_neg here, recordedIn_concat_of_ne _ _ _ (Ne.symm here), before]
    | format =>
      dsimp only
      rw [dependencies_chooseFormat, expr?_chooseFormat, dependencies_growTo, trees, before]
      rfl

/-- All cells have been pasted. -/
theorem pasting_pastedAll (current : w.UpToDate) (clip : Clip) (targets : List Zone)
    (mode : PasteMode) (exist : ∀ z ∈ targets, (w.sheet? z.sheet).isSome = true) :
    w.Pasting mode ((pastings clip targets).map Prod.snd) (w.pastedAll clip targets mode) := by
  have places : ∀ pasting ∈ pastings clip targets,
      (w.sheet? pasting.2.sheet).isSome = true := by
    intro pasting listed
    obtain ⟨anchor, anchored, cell, _, rfl⟩ := by
      simpa only [pastings, List.mem_flatMap, List.mem_map] using listed
    obtain ⟨z, target, inside⟩ := anchored
    show (w.sheet? anchor.sheet).isSome = true
    rw [sheet_of_mem_anchors inside, exist z target]
  unfold pastedAll
  generalize pastings clip targets = list at places
  induction list using List.reverseRecOn with
  | nil => exact .start current mode
  | append_singleton done last ih =>
    rw [List.foldl_append, List.map_append]
    refine (ih fun pasting listed => places pasting (List.mem_append_left _ listed)).step clip
      last.1 last.2 ?_
    rw [isSome_sheet?_foldl_pasted]
    exact places last (List.mem_append_right _ (List.mem_singleton.mpr rfl))

/-- After a paste the dependencies are up to date exactly if it leaves nothing stale. -/
theorem upToDate_pastedAll_iff (current : w.UpToDate) (clip : Clip) (targets : List Zone)
    (mode : PasteMode) (exist : ∀ z ∈ targets, (w.sheet? z.sheet).isSome = true) :
    (w.pastedAll clip targets mode).UpToDate ↔ ∀ p, ¬ w.LeavesStale clip targets mode p := by
  have pasting := pasting_pastedAll current clip targets mode exist
  constructor
  · rintro pasted p ⟨e, tree, stale⟩
    have recorded := pasting.zonesOf p
    rw [pasted.zonesOf, zonesNow, tree] at recorded
    exact stale recorded.symm
  · intro fresh
    refine ⟨pasting.indexed, fun p => ?_⟩
    rw [pasting.zonesOf, zonesNow]
    cases tree : (w.pastedAll clip targets mode).expr? p with
    | none => rfl
    | some e =>
      by_contra stale
      exact fresh p ⟨e, tree, stale⟩

/-! ### Requests -/

/-- The paste of a clip that a request asks for. -/
def pasteOf? (w : Workbook) : Request → Option (Clip × List Zone × PasteMode)
  | .paste targets mode =>
    match w.clipboard with
    | some (.copied clip) => some (clip, targets, mode)
    | _ => none
  | .pasteCells clip targets mode => some (clip, targets, mode)
  | _ => none

/-- A request pastes a clip and leaves the recorded zones of a formula stale. -/
def StalePaste (w : Workbook) (request : Request) : Prop :=
  ∃ clip targets mode, w.pasteOf? request = some (clip, targets, mode) ∧
    (∀ z ∈ targets, (w.sheet? z.sheet).isSome = true) ∧ ∃ p, w.LeavesStale clip targets mode p

/-- What was recorded for formulas is what they read as things stand: for every formula with a tree
the zones its references lead to, in strictly ascending order, and for every position the same zones
and the same readers as if all dependencies were recorded anew. -/
structure DependenciesCurrent (w : Workbook) : Prop where
  ascending : ∀ p, (w.dependencies.zonesOf p).Pairwise fun y z => compare y z = .lt
  members : ∀ p e, w.expr? p = some e → ∀ zone,
    zone ∈ w.dependencies.zonesOf p ↔ ∃ target ∈ e.references, w.resolve target p.sheet = .ok zone
  rebuilt : ∀ p, w.dependencies.zonesOf p = w.rebuildDependencies.dependencies.zonesOf p
  readers : ∀ p, w.dependencies.readersOf p = w.rebuildDependencies.dependencies.readersOf p

/-- The zones that a formula reads are those its references lead to. -/
theorem mem_zonesRead {home : SheetId} {zone : Zone} :
    zone ∈ w.zonesRead e home ↔ ∃ target ∈ e.references, w.resolve target home = .ok zone := by
  unfold zonesRead
  rw [List.mem_filterMap]
  refine exists_congr fun target => and_congr_right fun _ => ?_
  cases w.resolve target home <;> simp [Except.toOption]

/-- Indexed dependencies are current exactly if they are up to date. -/
theorem dependenciesCurrent_iff_upToDate (indexed : w.dependencies.Indexed) :
    w.DependenciesCurrent ↔ w.UpToDate := by
  constructor
  · intro current
    refine ⟨indexed, fun p => ?_⟩
    rw [current.rebuilt, zonesOf_rebuildDependencies]
  · intro current
    refine ⟨fun p => ?_, fun p e tree zone => ?_, fun p => ?_, fun p => ?_⟩
    · rw [current.zonesOf, zonesNow]
      split
      · exact Std.ExtTreeSet.ordered_toList
      · exact List.Pairwise.nil
    · rw [current.zonesOf, zonesNow, tree]
      dsimp only
      rw [mem_sortedZones, mem_zonesRead]
    · rw [current.zonesOf, zonesOf_rebuildDependencies]
    · refine indexed.readersOf_congr w.indexed_rebuildDependencies (fun reader => ?_) p
      rw [current.zonesOf, zonesOf_rebuildDependencies]

/-- A change that pastes no clip leaves dependencies up to date. -/
theorem UpToDate.prepares (current : w.UpToDate) {request : Request}
    (other : w.pasteOf? request = none) (prepares : w.Prepares request w') : w'.UpToDate := by
  cases prepares with
  | addSheet => exact (upToDate_rebuildDependencies _).markDirty _
  | deleteSheet => exact (upToDate_rebuildDependencies _).markDirty _
  | setContent found =>
    refine current.replaceContent _ _ ?_
    rw [found]
    rfl
  | deleteContent => exact current.emptied _
  | setFormat => exact current.formatted _ _
  | reevaluate => exact current.markDirty _
  | flush => exact current
  | insertLines => exact (upToDate_rebuildDependencies _).markDirty _
  | deleteLines => exact (upToDate_rebuildDependencies _).markDirty _
  | paste waits => simp [pasteOf?, waits] at other
  | move => exact ((upToDate_rebuildDependencies _).markDirty _).clipboard none
  | pasteCells => contradiction

/-- A request that only fills the clipboard leaves dependencies up to date. -/
theorem UpToDate.clipped (current : w.UpToDate) (request : Request) :
    (w.clipped request).UpToDate := by
  unfold Workbook.clipped
  split
  · split
    · exact current.clipboard _
    · exact current
  · split
    · exact current.clipboard _
    · exact current
  · exact current

/-- The paste that a request asks for is its change, if there are sheets for it. -/
theorem prepared_of_pasteOf? {request : Request} {clip : Clip} {targets : List Zone}
    {mode : PasteMode} (paste : w.pasteOf? request = some (clip, targets, mode)) :
    w.prepared request = w.preparedPaste clip targets mode := by
  cases request with
  | paste targets' mode' =>
    simp only [pasteOf?] at paste
    split at paste
    · rename_i clip' found
      obtain ⟨rfl, rfl, rfl⟩ := by simpa using paste
      simp only [prepared, found]
    · contradiction
  | pasteCells clip' targets' mode' =>
    obtain ⟨rfl, rfl, rfl⟩ := by simpa [pasteOf?] using paste
    rfl
  | _ => contradiction

/-- A request keeps dependencies up to date exactly if it is no stale paste, and keeps them indexed
in any case. -/
theorem UpToDate.after_iff (current : w.UpToDate) (request : Request) :
    (w.after request).dependencies.Indexed ∧
      ((w.after request).UpToDate ↔ ¬ w.StalePaste request) := by
  cases paste : w.pasteOf? request with
  | none =>
    have regular : ¬ w.StalePaste request := by
      rintro ⟨clip, targets, mode, found, _⟩
      rw [paste] at found
      contradiction
    have kept : (w.after request).UpToDate := by
      rw [after_eq]
      cases change : w.prepared request with
      | some w' => exact (current.prepares paste (prepares_of_prepared change)).of_sameSources w'.sameSources_recalculate
      | none => exact current.clipped request
    exact ⟨kept.indexed, iff_of_true kept regular⟩
  | some pasting =>
    obtain ⟨clip, targets, mode⟩ := pasting
    rw [after_eq, prepared_of_pasteOf? paste]
    unfold preparedPaste
    by_cases exist : (targets.all fun z => (w.sheet? z.sheet).isSome) = true
    · rw [if_pos exist]
      rw [List.all_eq_true] at exist
      have result := pasting_pastedAll current clip targets mode exist
      have recalculated := (w.pastedAll clip targets mode).sameSources_recalculate
      refine ⟨by rw [recalculated.dependencies]; exact result.indexed, ?_⟩
      have stale : w.StalePaste request ↔ ∃ p, w.LeavesStale clip targets mode p := by
        unfold StalePaste
        rw [paste]
        constructor
        · rintro ⟨clip', targets', mode', same, _, left⟩
          obtain ⟨rfl, rfl, rfl⟩ := by simpa using same
          exact left
        · exact fun left => ⟨clip, targets, mode, rfl, exist, left⟩
      rw [stale, not_exists, ← upToDate_pastedAll_iff current clip targets mode exist]
      exact ⟨fun kept => kept.of_later recalculated,
        fun kept => kept.of_sameSources recalculated⟩
    · rw [if_neg exist]
      have regular : ¬ w.StalePaste request := by
        rintro ⟨clip', targets', mode', same, exist', _⟩
        rw [paste] at same
        obtain ⟨rfl, rfl, rfl⟩ := by simpa using same
        exact exist (List.all_eq_true.mpr exist')
      have kept := current.clipped request
      exact ⟨kept.indexed, iff_of_true kept regular⟩

/-- Requests one after the other and one more. -/
theorem afterAll_concat (w : Workbook) (requests : List Request) (request : Request) :
    w.afterAll (requests ++ [request]) = (w.afterAll requests).after request := by
  unfold afterAll
  rw [List.foldl_append]
  rfl

/-- As long as no request is a stale paste, dependencies are up to date. -/
theorem UpToDate.afterAll (current : w.UpToDate) (requests : List Request)
    (fresh : ∀ before request, before ++ [request] <+: requests →
      ¬ (w.afterAll before).StalePaste request) : (w.afterAll requests).UpToDate := by
  induction requests using List.reverseRecOn with
  | nil => exact current
  | append_singleton before request ih =>
    have earlier := ih fun start next early =>
      fresh start next (early.trans (List.prefix_append before [request]))
    rw [afterAll_concat]
    exact (earlier.after_iff request).2.mpr (fresh before request (List.prefix_refl _))

/-- In a run of requests from a new workbook what was recorded for formulas is what they read, after
every request, exactly if no request of the run pastes a clip that enlarges a sheet under a formula
whose references cover more on it then. -/
theorem dependenciesCurrent_along_run_iff (settings : Settings) (functions : FunctionTable)
    (requests : List Request) :
    (∀ before, before <+: requests →
        ((new settings functions).afterAll before).DependenciesCurrent) ↔
      ∀ before request, before ++ [request] <+: requests →
        ¬ ((new settings functions).afterAll before).StalePaste request := by
  have start := upToDate_new settings functions
  constructor
  · intro current before request part
    -- Up to date before and after the request: so the request itself is no stale paste.
    have upToDate : ∀ before, before <+: requests →
        ((new settings functions).afterAll before).UpToDate := by
      intro before
      induction before using List.reverseRecOn with
      | nil => exact fun _ => start
      | append_singleton earlier last ih =>
        intro part
        have known := ih ((List.prefix_append earlier [last]).trans part)
        have now := current _ part
        rw [afterAll_concat] at now ⊢
        exact (dependenciesCurrent_iff_upToDate (known.after_iff last).1).mp now
    have known := upToDate before ((List.prefix_append before [request]).trans part)
    have now := upToDate _ part
    rw [afterAll_concat] at now
    exact (known.after_iff request).2.mp now
  · intro fresh before part
    have now := start.afterAll before fun earlier request early =>
      fresh earlier request (early.trans part)
    exact (dependenciesCurrent_iff_upToDate now.indexed).mpr now

end Workbook

end Spreadsheet
