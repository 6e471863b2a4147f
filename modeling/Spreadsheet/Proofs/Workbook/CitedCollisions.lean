import Mathlib.Data.List.TakeWhile
import Spreadsheet.Proofs.Reference.Corners
import Spreadsheet.Proofs.Workbook.SettledFormulas

/-!
# What blocked arrays cite

The error of a blocked array names the position that its claim met, the first one in the way when the
zone is read row by row. The anchor is evaluated again when a position around which it is blocked is
typed into, or when an array gives one up, but not when another array takes one. So the position that
is named stays taken, nothing is typed before it, and it stays the first unless a formula that was
evaluated later has claimed an earlier one.
-/
namespace Spreadsheet

namespace Collision

variable {p q : Position}

/-- The report of a sheet that is too small starts in its own way. -/
theorem head?_more (what : String) : (report.more what).toList.head? = some 'R' := by
  unfold report.more
  rw [String.toList_append]
  rfl

/-- So does the report of a position that is taken. -/
theorem head?_taken (q : Position) : (report.taken q).toList.head? = some 'A' := by
  unfold report.taken
  rw [String.toList_append, String.toList_append]
  rfl

/-- Reports of positions that are taken name them. -/
theorem name_eq_of_taken (same : report.taken p = report.taken q) : p.name = q.name := by
  unfold report.taken at same
  exact (String.append_right_inj _).mp ((String.append_left_inj _).mp same)

/-- A report that a position is taken is that of a collision at a position of this name. -/
theorem exists_found?_of_report {collision : Collision} (same : collision.report = report.taken q) :
    ∃ u, collision.found? = some u ∧ u.name = q.name := by
  cases collision with
  | bounds rows columns =>
    have first : (Collision.bounds rows columns).report.toList.head? = some 'R' := by
      cases rows <;> cases columns <;> exact head?_more _
    rw [same, head?_taken] at first
    contradiction
  | content u => exact ⟨u, rfl, name_eq_of_taken same⟩
  | spill u owner => exact ⟨u, rfl, name_eq_of_taken same⟩

end Collision

namespace Workbook

variable {w w' : Workbook} {a p q : Position} {zone : Zone}

/-- A position holds content or lies in the zone of an anchor other than the given one. -/
def Occupied (w : Workbook) (anchor q : Position) : Prop :=
  w.hasContent q = true ∨
    ∃ b other, b ≠ anchor ∧ w.spills.activeZone? b = some other ∧ other.contains q = true

/-- Among the positions of a zone other than its anchor, the first that is occupied when the zone is
read row by row. -/
structure FirstOccupied (w : Workbook) (anchor : Position) (zone : Zone) (q : Position) : Prop where
  inside : zone.contains q = true
  other : q ≠ anchor
  occupied : w.Occupied anchor q
  first : ∀ u, zone.contains u = true → u ≠ anchor → u.Precedes q → ¬ w.Occupied anchor u

/-- The formulas that have been evaluated since a formula was, the latest first. -/
def evaluatedSince (w : Workbook) (p : Position) : List Position :=
  (w.journal.map JournalEntry.formula).takeWhile (· ≠ p)

/-- A formula is not evaluated after its last evaluation. -/
theorem ne_of_mem_evaluatedSince (later : q ∈ w.evaluatedSince p) : q ≠ p := by
  simpa using List.mem_takeWhile_imp later

/-- Which formulas have been evaluated since a formula was is read off the journal. -/
theorem evaluatedSince_congr (journal : w'.journal = w.journal) (p : Position) :
    w'.evaluatedSince p = w.evaluatedSince p := by
  unfold evaluatedSince
  rw [journal]

/-- A formula that is evaluated is the latest one that has been evaluated since another was. -/
theorem evaluatedSince_note (w : Workbook) (calls : List String) (other : a ≠ p) :
    evaluatedSince { w with journal := ⟨p, calls⟩ :: w.journal } a = p :: w.evaluatedSince a := by
  unfold evaluatedSince
  rw [List.map_cons, List.takeWhile_cons_of_pos (by simpa using Ne.symm other)]

/-- An array of a formula that has been evaluated since the anchor of a zone was covers a position of
the zone before another one. -/
def Overtaken (w : Workbook) (anchor : Position) (zone : Zone) (q : Position) : Prop :=
  ∃ b ∈ w.evaluatedSince anchor, ∃ other u, w.spills.activeZone? b = some other ∧
    other.contains u = true ∧ zone.contains u = true ∧ u ≠ anchor ∧ u.Precedes q

/-- A blocked anchor rightly cites a position of the zone that it could not claim: the position is
occupied, nothing is typed before it, and arrays that cover a position before it are those of formulas
that have been evaluated since. -/
structure Cites (w : Workbook) (anchor : Position) (zone : Zone) (q : Position) : Prop where
  inside : zone.contains q = true
  other : q ≠ anchor
  occupied : w.Occupied anchor q
  bare : ∀ u, zone.contains u = true → u ≠ anchor → u.Precedes q → w.hasContent u = false
  later : ∀ u b other, zone.contains u = true → u ≠ anchor → u.Precedes q → b ≠ anchor →
    w.spills.activeZone? b = some other → other.contains u = true → b ∈ w.evaluatedSince anchor

namespace Cites

/-- A position that is cited is the first occupied one unless it has been overtaken. -/
theorem firstOccupied_iff (cites : w.Cites a zone q) :
    w.FirstOccupied a zone q ↔ ¬ w.Overtaken a zone q := by
  constructor
  · rintro first ⟨b, since, other, u, active, within, inside, different, earlier⟩
    exact first.first u inside different earlier
      (.inr ⟨b, other, ne_of_mem_evaluatedSince since, active, within⟩)
  · intro leading
    refine ⟨cites.inside, cites.other, cites.occupied, fun u inside different earlier taken => ?_⟩
    rcases taken with filled | ⟨b, other, foreign, active, within⟩
    · rw [cites.bare u inside different earlier] at filled
      contradiction
    · exact leading ⟨b, cites.later u b other inside different earlier foreign active within, other,
        u, active, within, inside, different, earlier⟩

end Cites

/-- The error of a blocked anchor stems from a collision, and the anchor rightly cites the position
where that happened. -/
def Citation (w : Workbook) (a : Position) (zone : Zone) : Prop :=
  ∃ collision rows columns, w.result? a = some (.failure (.ofCollision collision rows columns)) ∧
    zone = .fromAnchor a rows columns ∧ ∀ q, collision.found? = some q → w.Cites a zone q

/-- A formula keeps the error of an array that would overwrite data at a position of its sheet. -/
def ErrorNames (w : Workbook) (a q : Position) : Prop :=
  q.sheet = a.sheet ∧
    ∃ rows columns, w.result? a = some (.failure (.ofCollision (.content q) rows columns))

/-- A blocked anchor rightly cites the position that its error names. -/
theorem Citation.cites (citation : w.Citation a zone) (names : w.ErrorNames a q) :
    w.Cites a zone q := by
  obtain ⟨collision, rows, columns, result, start, cites⟩ := citation
  obtain ⟨sheets, height, width, named⟩ := names
  rw [result] at named
  have reports : collision.report = (Collision.content q).report ∧ rows = height ∧
      columns = width := by
    simpa [Outcome.failure, CellError.ofCollision] using named
  obtain ⟨u, found, called⟩ := Collision.exists_found?_of_report reports.1
  have cited := cites u found
  have here : u.sheet = a.sheet := by
    rw [(Zone.contains_iff.mp cited.inside).1, start]
    rfl
  rwa [Position.eq_of_name (here.trans sheets.symm) called] at cited

/-! ### What spoils no citation -/

/-- Between two workbooks nothing spoils what an anchor cites of a zone: contents of the zone stay, no
array gives a position of it up, and only formulas that have been evaluated since the anchor was take
one. -/
structure Spares (w w' : Workbook) (a : Position) (zone : Zone) : Prop where
  content : ∀ u, zone.contains u = true → w'.hasContent u = w.hasContent u
  since : ∀ b, b ∈ w.evaluatedSince a → b ∈ w'.evaluatedSince a
  kept : ∀ b other u, b ≠ a → w.spills.activeZone? b = some other → other.contains u = true →
    zone.contains u = true →
      ∃ other', w'.spills.activeZone? b = some other' ∧ other'.contains u = true
  taken : ∀ b, b ≠ a → b ∈ w'.evaluatedSince a ∨
    w'.spills.activeZone? b = none ∨ w'.spills.activeZone? b = w.spills.activeZone? b

namespace Spares

/-- Where arrays stay nothing but a change of content spoils a citation. -/
theorem of_spills (spills : w'.spills = w.spills)
    (content : ∀ u, zone.contains u = true → w'.hasContent u = w.hasContent u)
    (since : ∀ b, b ∈ w.evaluatedSince a → b ∈ w'.evaluatedSince a) : Spares w w' a zone where
  content := content
  since := since
  kept b other u _ active within _ := ⟨other, by rw [spills, active], within⟩
  taken b _ := .inr (.inr (by rw [spills]))

/-- An array that is given up away from a zone spoils no citation of the zone. -/
theorem of_release (spills : w'.spills = w.spills.release p) (journal : w'.journal = w.journal)
    (content : ∀ u, zone.contains u = true → w'.hasContent u = w.hasContent u)
    (apart : ∀ given u, w.spills.activeZone? p = some given → zone.contains u = true →
      given.contains u = false) : Spares w w' a zone where
  content := content
  since b later := by rwa [evaluatedSince_congr journal]
  kept b other u _ active within inside := by
    have kept : b ≠ p := by
      rintro rfl
      rw [apart other u active inside] at within
      contradiction
    exact ⟨other, by rw [spills, Spills.activeZone?_release, if_neg kept, active], within⟩
  taken b _ := by
    rw [spills, Spills.activeZone?_release]
    split
    · exact .inr (.inl rfl)
    · exact .inr (.inr rfl)

/-- A position is still rightly cited if nothing spoils that. -/
theorem cites (spares : Spares w w' a zone) (cites : w.Cites a zone q) : w'.Cites a zone q where
  inside := cites.inside
  other := cites.other
  occupied := by
    rcases cites.occupied with filled | ⟨b, other, foreign, active, within⟩
    · exact .inl (by rw [spares.content q cites.inside, filled])
    · obtain ⟨other', active', within'⟩ := spares.kept b other q foreign active within cites.inside
      exact .inr ⟨b, other', foreign, active', within'⟩
  bare u inside different earlier := by
    rw [spares.content u inside, cites.bare u inside different earlier]
  later u b other inside different earlier foreign active within := by
    rcases spares.taken b foreign with since | gone | same
    · exact since
    · rw [gone] at active
      contradiction
    · rw [same] at active
      exact spares.since b (cites.later u b other inside different earlier foreign active within)

/-- A blocked anchor goes on citing rightly if its error stays and nothing spoils what it cites. -/
theorem citation (spares : Spares w w' a zone) (citation : w.Citation a zone)
    (result : w'.result? a = w.result? a) : w'.Citation a zone := by
  obtain ⟨collision, rows, columns, before, start, cites⟩ := citation
  exact ⟨collision, rows, columns, result.trans before, start, fun q found =>
    spares.cites (cites q found)⟩

end Spares

/-- Citations stay right when marks are taken off. -/
theorem Citation.unmarked (citation : w.Citation a zone) : w.unmarked.Citation a zone := by
  have spares : Spares w w.unmarked a zone := .of_spills rfl (fun _ _ => rfl) fun _ => id
  exact spares.citation citation rfl

end Workbook

end Spreadsheet
