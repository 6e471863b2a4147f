import Spreadsheet.Proofs.Redirection.OrderedReferences
import Spreadsheet.Proofs.Workbook.ShapedRequests

/-!
# Formulas along runs

What holds of the text and the tree of every formula that is typed, and of what redirections make of them,
holds of all formulas of a workbook and of what was copied, whatever is asked of the workbook. What holds of
references is one case of it.
-/
namespace Spreadsheet

/-- A tree becomes another one when cells are shifted, copied or moved, or when a sheet is taken away. -/
inductive Expr.Redirects (e e' : Expr) : Prop where
  | shifted {sheetOf : Option String → Option SheetId} {s : Shift} (changed : e.shift? sheetOf s = some e')
  | copied {extentOf : Option String → Option (Nat × Nat)} {rows columns : Int}
    (changed : e.offset? extentOf rows columns = some e')
  | moved {sheetOf : Option String → Option SheetId} {source : Zone} {rows columns : Int}
    {destination : SheetId} {name : String} {home : SheetId}
    (changed : e.move? sheetOf source rows columns destination name home = some e')
  | invalidated {name : String} (changed : e.invalidate? name = some e')

/-- A property of the text and the tree of formulas that are typed which redirections keep. -/
structure Formula.Law (Holds : String → Except FormulaError Expr → Prop) : Prop where
  typed : ∀ text, text.toList.head? = some '=' → Holds text (Expr.ofText text.toList)
  redirected : ∀ text e e', Holds text (.ok e) → e.Redirects e' → Holds e'.render (.ok e')

/-- The tree of a formula that has one. -/
theorem Formula.tree_of_expr? {f : Formula} {e : Expr} (typed : f.expr? = some e) : f.tree = .ok e := by
  unfold Formula.expr? at typed
  cases reading : f.tree with
  | error fault =>
    rw [reading] at typed
    contradiction
  | ok tree =>
    rw [reading] at typed
    exact congrArg Except.ok (Option.some.inj typed)

/-- A property holds of the text and the tree of the formula, if the content is one. -/
def Content.Lawful (Holds : String → Except FormulaError Expr → Prop) (content : Content) : Prop :=
  ∀ f, content.formula? = some f → Holds f.text f.tree

/-- A property holds of all formulas in copied cells. -/
def Clip.Lawful (Holds : String → Except FormulaError Expr → Prop) (clip : Clip) : Prop :=
  ∀ cell ∈ clip.cells, cell.content.Lawful Holds

variable {Holds : String → Except FormulaError Expr → Prop}

namespace Content

/-- Without content there is no formula. -/
theorem lawful_empty : (empty).Lawful Holds := fun _ none => by contradiction

/-- A literal is no formula. -/
theorem lawful_literal (typed : String) (v : Value) : (literal typed v).Lawful Holds :=
  fun _ none => by contradiction

/-- A formula of which the property holds is lawful content. -/
theorem lawful_formula {f : Formula} (holds : Holds f.text f.tree) : (formula f).Lawful Holds := by
  intro f' same
  obtain rfl := Option.some.inj same
  exact holds

/-- Content that is entered has the text and the tree it had. -/
theorem Lawful.entered {content : Content} (lawful : content.Lawful Holds) (turn : Nat) :
    (content.entered turn).Lawful Holds := by
  cases content with
  | empty => exact lawful_empty
  | literal typed v => exact lawful_literal typed v
  | formula f => exact lawful_formula (lawful f rfl)

/-- Typed content is lawful. -/
theorem lawful_ofText (law : Formula.Law Holds) (text : String) : (ofText text).Lawful Holds := by
  unfold ofText
  split
  · exact lawful_empty
  · split
    · rename_i formula
      exact lawful_formula (law.typed text formula)
    · exact lawful_literal _ _

/-- Content with the source of lawful content is lawful. -/
theorem Lawful.of_source {content content' : Content} (lawful : content.Lawful Holds)
    (same : content'.source = content.source) : content'.Lawful Holds := by
  intro f' found
  cases content' with
  | empty => contradiction
  | literal typed v => contradiction
  | formula f₁ =>
    obtain rfl := Option.some.inj found
    cases content with
    | empty => contradiction
    | literal typed v => contradiction
    | formula f =>
      have cleared : f₁.cleared = f.cleared := Content.formula.inj same
      have text : f₁.text = f.text := (congrArg Formula.text cleared :)
      have tree : f₁.tree = f.tree := (congrArg Formula.tree cleared :)
      rw [text, tree]
      exact lawful f rfl

/-- A lawful formula stays lawful when it is redirected, whether that changes it or not. -/
theorem lawful_redirected (law : Formula.Law Holds) (redirect : Expr → Option Expr)
    (kept : ∀ e e', redirect e = some e' → e.Redirects e') {f : Formula} (holds : Holds f.text f.tree) :
    (formula (match f.expr?.bind redirect with
      | some e => f.withExpr e
      | none => f)).Lawful Holds := by
  split
  · rename_i e' found
    obtain ⟨e, typed, changed⟩ := Option.bind_eq_some_iff.mp found
    rw [Formula.tree_of_expr? typed] at holds
    exact lawful_formula (law.redirected f.text e e' holds (kept e e' changed))
  · exact lawful_formula holds

end Content

namespace Workbook

variable {w w' : Workbook} {p : Position}

/-- A property holds of all formulas and of what was copied. -/
structure AllFormulas (Holds : String → Except FormulaError Expr → Prop) (w : Workbook) : Prop where
  content : ∀ p, (w.content p).Lawful Holds
  clipboard : ∀ clip, w.clipboard = some (.copied clip) → clip.Lawful Holds

/-- Copied content is lawful where it is pasted. -/
theorem lawful_copiedContent (law : Formula.Law Holds) (w : Workbook) {content : Content}
    (lawful : content.Lawful Holds) (source target : Position) :
    (w.copiedContent content source target).Lawful Holds := by
  cases content with
  | empty => exact lawful
  | literal typed v => exact lawful
  | formula f =>
    have cleared : Holds f.cleared.text f.cleared.tree := lawful f rfl
    exact Content.lawful_redirected law _ (fun _ _ changed => .copied changed) cleared

/-- Cut content is lawful where it is pasted. -/
theorem lawful_movedContent (law : Formula.Law Holds) (w : Workbook) {content : Content}
    (lawful : content.Lawful Holds) (source : Zone) (anchor : Position) :
    (w.movedContent source anchor content).Lawful Holds := by
  cases content with
  | empty => exact lawful
  | literal typed v => exact lawful
  | formula f =>
    have cleared : Holds f.cleared.text f.cleared.tree := lawful f rfl
    have shape : w.movedContent source anchor (.formula f) =
        .formula (match f.cleared.expr?.bind
          (w.moveRedirection source anchor source.sheet anchor.sheet) with
          | some e => f.cleared.withExpr e
          | none => f.cleared) := by
      unfold movedContent
      dsimp only
      cases f.cleared.expr?.bind (w.moveRedirection source anchor source.sheet anchor.sheet) <;> rfl
    rw [shape]
    exact Content.lawful_redirected law _ (fun _ _ changed => .moved changed) cleared

/-- A value as content is no formula. -/
theorem lawful_contentOfValue (v : Value) : (contentOfValue v).Lawful Holds := by
  intro f found
  unfold contentOfValue at found
  split at found <;> contradiction

namespace AllFormulas

/-- Copied cells have the formulas of the workbook. -/
theorem copyCells (all : w.AllFormulas Holds) {zones : List Zone} {clip : Clip}
    (copied : w.copyCells zones = .ok clip) : clip.Lawful Holds := by
  unfold Workbook.copyCells at copied
  split at copied
  · contradiction
  · obtain ⟨_, _, rest⟩ := exists_of_bind_eq_ok copied
    obtain rfl := Except.ok.inj rest
    intro cell listed
    obtain ⟨p, _, rfl⟩ := List.mem_map.mp listed
    exact all.content p

/-- Formulas stay lawful as long as contents and the clipboard do. -/
theorem congr (all : w.AllFormulas Holds) (content : ∀ p, (w'.content p).Lawful Holds)
    (clipboard : w'.clipboard = w.clipboard) : w'.AllFormulas Holds where
  content := content
  clipboard := by
    rw [clipboard]
    exact all.clipboard

/-- Results do not matter to texts and trees. -/
theorem of_sameSources (all : w.AllFormulas Holds) (same : SameSources w w') :
    w'.AllFormulas Holds :=
  all.congr (fun p => (all.content p).of_source (same.source p)) same.clipboard

/-- Replacing content by other content that is lawful. -/
theorem replaceContent (all : w.AllFormulas Holds) (p : Position) {content : Content}
    (lawful : content.Lawful Holds) : (w.replaceContent p content).AllFormulas Holds := by
  refine all.congr (fun q => ?_) (clipboard_replaceContent w p content)
  rw [content_replaceContent]
  split
  · exact lawful.entered _
  · exact all.content q

/-- Choosing a format leaves the formulas. -/
theorem chooseFormat (all : w.AllFormulas Holds) (p : Position) (format : Option String) :
    (w.chooseFormat p format).AllFormulas Holds := by
  refine all.congr (fun q => ?_) (clipboard_chooseFormat w p format)
  rw [content_chooseFormat]
  exact all.content q

/-- Redirecting formulas. -/
theorem redirectFormulas (law : Formula.Law Holds) (all : w.AllFormulas Holds)
    {redirect : SheetId → Expr → Option Expr}
    (kept : ∀ id e e', redirect id e = some e' → e.Redirects e') :
    (w.redirectFormulas redirect).AllFormulas Holds := by
  refine all.congr (fun q => ?_) rfl
  have lawful := all.content q
  rw [content_redirectFormulas]
  cases typed : w.content q with
  | empty => exact Content.lawful_empty
  | literal typed v => exact Content.lawful_literal _ v
  | formula f =>
    rw [typed] at lawful
    exact Content.lawful_redirected law (redirect q.sheet) (kept q.sheet) (lawful f rfl)

/-- Enlarging a sheet leaves the formulas. -/
theorem growTo (all : w.AllFormulas Holds) (p : Position) : (w.growTo p).AllFormulas Holds :=
  all.congr (fun q => by rw [content_growTo]; exact all.content q) (clipboard_growTo w p)

/-- Pasting a copied cell. -/
theorem pasteCell (law : Formula.Law Holds) (all : w.AllFormulas Holds) {cell : ClipCell}
    (lawful : cell.content.Lawful Holds) (source target : Position) (mode : PasteMode) :
    (w.pasteCell cell source target mode).AllFormulas Holds := by
  cases mode with
  | everything =>
    exact (all.replaceContent target
      (lawful_copiedContent law w lawful source target)).chooseFormat target cell.format
  | value => exact all.replaceContent target (lawful_contentOfValue _)
  | format => exact all.chooseFormat target cell.shownFormat

/-- Pasting a clip. -/
theorem pastedAll (law : Formula.Law Holds) (all : w.AllFormulas Holds) {clip : Clip}
    (lawful : clip.Lawful Holds) (targets : List Zone) (mode : PasteMode) :
    (w.pastedAll clip targets mode).AllFormulas Holds :=
  pastedAll_induction (P := AllFormulas Holds) all (fun _ pasting member kept =>
    (kept.growTo _).pasteCell law (lawful pasting.1 member) _ _ mode) targets

/-- Clearing a cell. -/
theorem clearCell (all : w.AllFormulas Holds) (p : Position) :
    (w.clearCell p).AllFormulas Holds := by
  unfold Workbook.clearCell
  split
  · exact (all.replaceContent p Content.lawful_empty).chooseFormat p none
  · exact all

/-- Moving the cells of a clip. -/
theorem moved (law : Formula.Law Holds) (all : w.AllFormulas Holds) {clip : Clip}
    (lawful : clip.Lawful Holds) (anchor : Position) :
    (w.moved clip anchor).AllFormulas Holds := by
  have taken : (w.taken clip).AllFormulas Holds :=
    List.foldlRecOn clip.cells _ (motive := AllFormulas Holds) all fun _ kept _ _ =>
      kept.clearCell _
  have redirected : ((w.taken clip).redirectFormulas
      ((w.taken clip).follow clip anchor)).AllFormulas Holds :=
    taken.redirectFormulas law fun _ _ _ changed => by
      unfold follow moveRedirection at changed
      exact .moved changed
  have put := List.foldlRecOn clip.cells
    (fun w cell => (w.growTo (cell.placed anchor)).placeCell
      (.fromAnchor clip.origin clip.rows clip.columns) anchor cell (cell.placed anchor))
    (motive := AllFormulas Holds) redirected fun w' kept cell listed =>
      ((kept.growTo _).replaceContent _
        (lawful_movedContent law _ (lawful cell listed) _ _)).chooseFormat _ _
  exact ⟨put.content, fun _ none => by contradiction⟩

/-- Forgetting what waits to be pasted. -/
theorem filterClipboard (all : w.AllFormulas Holds) (keep : Clipboard → Bool) :
    AllFormulas Holds { w with clipboard := w.clipboard.filter keep } :=
  ⟨all.content, fun clip found => all.clipboard clip (Option.filter_eq_some_iff.mp found).1⟩

/-- Shifting a sheet. -/
theorem applyShift (law : Formula.Law Holds) (all : w.AllFormulas Holds) (s : Shift) :
    (w.applyShift s).AllFormulas Holds := by
  have moved : (w.updateSheet s.sheet (moveCells s)).AllFormulas Holds := by
    refine all.congr (fun q => ?_) rfl
    rcases w.content_moveCells s q with blank | ⟨p, same⟩
    · rw [blank]
      exact Content.lawful_empty
    · rw [same]
      exact all.content p
  have redirected : ((w.updateSheet s.sheet (moveCells s)).redirectFormulas
      ((w.updateSheet s.sheet (moveCells s)).shiftRedirection s)).AllFormulas Holds :=
    moved.redirectFormulas law fun _ _ _ changed => .shifted changed
  exact redirected.congr redirected.content rfl

/-- Shifting a sheet several times. -/
theorem restructure (law : Formula.Law Holds) (all : w.AllFormulas Holds) (sheet : SheetId)
    (shifts : List Shift) : (w.restructure sheet shifts).AllFormulas Holds := by
  have filtered := all.filterClipboard fun c => !shifts.any fun s => c.isEndedBy s
  have forgotten : (Workbook.forgetResults { w with
      clipboard := w.clipboard.filter fun c => !shifts.any fun s => c.isEndedBy s }
      sheet).AllFormulas Holds := filtered.congr filtered.content rfl
  have shifted := List.foldlRecOn shifts Workbook.applyShift (motive := AllFormulas Holds) forgotten
    fun _ kept s _ => kept.applyShift law s
  exact shifted.congr shifted.content rfl

/-- Redirecting formulas and marking what changes. -/
theorem redirectAndMark (law : Formula.Law Holds) (all : w.AllFormulas Holds)
    {redirect : SheetId → Expr → Option Expr}
    (kept : ∀ id e e', redirect id e = some e' → e.Redirects e') :
    (w.redirectAndMark redirect).AllFormulas Holds := by
  have redirected := all.redirectFormulas law kept
  exact redirected.congr redirected.content rfl

/-- Taking a sheet away. -/
theorem eraseSheet (all : w.AllFormulas Holds) (id : SheetId) :
    (w.eraseSheet id).AllFormulas Holds := by
  refine (all.filterClipboard fun c => c.sheet != id).congr (fun q => ?_) rfl
  rw [content_eraseSheet]
  split
  · exact Content.lawful_empty
  · exact all.content q

/-- Adding a sheet. -/
theorem insertSheet (all : w.AllFormulas Holds) (name : String) (rows columns : Nat) :
    (w.insertSheet name rows columns).AllFormulas Holds := by
  refine all.congr (fun q => ?_) rfl
  rw [content_insertSheet]
  split
  · exact Content.lawful_empty
  · exact all.content q

/-- What a request prepares has lawful formulas if what it pastes has. -/
theorem prepares (law : Formula.Law Holds) (all : w.AllFormulas Holds) {request : Request}
    (given : ∀ clip targets mode, request = .pasteCells clip targets mode → clip.Lawful Holds)
    (prepares : w.Prepares request w') : w'.AllFormulas Holds := by
  cases prepares with
  | @addSheet name rows columns =>
    have inserted := all.insertSheet name rows columns
    exact inserted.congr inserted.content rfl
  | deleteSheet =>
    exact (all.eraseSheet _).redirectAndMark law fun _ _ _ changed => .invalidated changed
  | setContent => exact all.replaceContent _ (Content.lawful_ofText law _)
  | deleteContent =>
    exact emptied_induction (P := AllFormulas Holds) all
      (fun _ p _ kept => kept.replaceContent p Content.lawful_empty) _
  | setFormat =>
    exact formatted_induction (P := AllFormulas Holds) all fun _ p _ kept => kept.chooseFormat p _
  | reevaluate => exact all.congr all.content rfl
  | flush => exact all
  | insertLines => exact all.restructure law _ _
  | deleteLines => exact all.restructure law _ _
  | paste waits => exact all.pastedAll law (all.clipboard _ waits) _ _
  | move waits copied => exact all.moved law (all.copyCells copied) _
  | pasteCells => exact all.pastedAll law (given _ _ _ rfl) _ _

/-- A request leaves lawful formulas if what it pastes has some. -/
theorem after (law : Formula.Law Holds) (all : w.AllFormulas Holds) {request : Request}
    (given : ∀ clip targets mode, request = .pasteCells clip targets mode →
      clip.Lawful Holds) : (w.after request).AllFormulas Holds := by
  rw [after_eq]
  cases found : w.prepared request with
  | some w' =>
    exact (all.prepares law given (prepares_of_prepared found)).of_sameSources
      w'.sameSources_recalculate
  | none =>
    dsimp only
    unfold clipped
    split
    · split
      · rename_i clip copied
        refine ⟨all.content, fun other same => ?_⟩
        rw [← Clipboard.copied.inj (Option.some.inj same)]
        exact all.copyCells copied
      · exact all
    · split
      · refine ⟨all.content, fun other same => ?_⟩
        have kinds := Option.some.inj same
        contradiction
      · exact all
    · exact all

end AllFormulas

/-- The workbooks that requests and new functions can lead to. Cells that are pasted on request were
copied from such a workbook. -/
inductive Attainable : Workbook → Prop where
  | new (settings : Settings) (functions : FunctionTable) :
    Attainable (Workbook.new settings functions)
  | register {w : Workbook} (attained : Attainable w) (f : Function) :
    Attainable { w with functions := w.functions.register f }
  | after {w : Workbook} (attained : Attainable w) (request : Request)
    (own : ∀ clip targets mode, request ≠ .pasteCells clip targets mode) :
    Attainable (w.after request)
  | pasteCells {w source : Workbook} {zones : List Zone} {clip : Clip} (attained : Attainable w)
    (from' : Attainable source) (copied : source.copyCells zones = .ok clip) (targets : List Zone)
    (mode : PasteMode) : Attainable (w.after (.pasteCells clip targets mode))

/-- A law of formulas holds of all formulas in a workbook that is attained. -/
theorem Attainable.allFormulas (law : Formula.Law Holds) (attained : w.Attainable) :
    w.AllFormulas Holds := by
  induction attained with
  | new settings functions =>
    refine ⟨fun p => ?_, fun clip none => by contradiction⟩
    rw [content, cell?_new]
    exact Content.lawful_empty
  | register _ f all => exact ⟨all.content, all.clipboard⟩
  | after _ request own all =>
    exact all.after law fun clip targets mode same => absurd same (own clip targets mode)
  | @pasteCells w source zones clip _ _ copied targets mode all others =>
    refine all.after law fun other _ _ same => ?_
    obtain ⟨rfl, _, _⟩ := Request.pasteCells.inj same
    exact others.copyCells copied

end Workbook

/-! ### References -/

/-- A law of references is one of formulas. -/
theorem Formula.law_allReferences {Holds : Reference → Prop} (law : Reference.Law Holds) :
    Formula.Law fun _ tree => ∀ e, tree = .ok e → e.AllReferences Holds where
  typed _ _ _ read := (Expr.readerLaw_allReferences law).ofText (fun _ _ _ _ => trivial) read
  redirected _ e e' holds redirects tree same := by
    obtain rfl := Except.ok.inj same
    have all := holds e rfl
    cases redirects with
    | shifted changed => exact all.shift? law changed
    | copied changed => exact all.offset? law changed
    | moved changed => exact all.move? law changed
    | invalidated changed => exact all.invalidate? changed

/-- A law of references holds of all references in a workbook that is attained. -/
theorem Workbook.Attainable.allReferences {w : Workbook} {Holds : Reference → Prop}
    (law : Reference.Law Holds) (attained : w.Attainable) {p : Position} {e : Expr}
    (typed : (w.content p).expr? = some e) : e.AllReferences Holds := by
  obtain ⟨f, found, tree⟩ := Option.bind_eq_some_iff.mp typed
  exact (attained.allFormulas (Formula.law_allReferences law)).content p f found e
    (Formula.tree_of_expr? tree)

end Spreadsheet
