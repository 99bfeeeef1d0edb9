import Pushdown.Proofs.Definition.Failures

/-!
# The line that a report names

A report names the line on which a text departs from the line format: the first row that does not
fit its place, or, if all rows fit but the header is not complete, the last line of the text
(`IsOffendingLine`). There is one exception, a text that fails right after its initial state
(`EndsAtState`), for no demand is noted there: the report names the line of the stack alphabet, at
whose end one more symbol was demanded.

The farthest demand stands on no later line, since all rows above a demand fit their places; and on
no earlier line, since some demand was noted where the reader was stuck:

> `OnTrack.eq_or_passed`: a demand beyond another is on the same row, or the row of the other is
> above it;
> `load_error_line`: the line that is named is the offending one, or that of the stack alphabet;
> `load_error_names_other_line`: the exception is a real one.
-/

namespace Pushdown.Definition

/-- Whether a line, counted from one, is where a text departs from the line format: it holds the
first row that does not fit its place, or there is no such row and the line is the last. -/
def IsOffendingLine (text : List Char) (line : Nat) : Prop :=
  (∃ fitting row below, significant 0 (rowsFrom 1 text) = fitting ++ row :: below ∧
    FitFrom 0 fitting ∧ ¬ FitsAt fitting.length row ∧ IsOnLine text line row) ∨
  (FitFrom 0 (significant 0 (rowsFrom 1 text)) ∧ line = (rowsFrom 1 text).length)

section

variable {text : List Char} {c d : Cursor} {above above' below : List Row} {part part' row : Row}

/-- What follows the start of a row that counts is part of a row that counts. -/
theorem isIdle_append {part : Row} (counts : isIdle part = false) (row : Row) :
    isIdle (part ++ row) = false := by
  cases part with
  | nil => cases counts
  | cons t part => exact counts

/-- Before a token the end of a definition is on a row that counts. -/
theorem Closing.onTrack (h : Closing text c above part) {t : Token}
    (after : c.rows = (t :: row) :: below) : OnTrack text c above part := by
  obtain ⟨-, fits⟩ := followsFormat_iff.1 h.follows
  refine ⟨h.position, (fitFrom_append.1 fits).1, fun row' next more hr => ?_⟩
  rcases Nat.lt_or_ge (counted above).length 5 with lt | le
  · exact h.busy lt row' next more hr
  · cases idle : isIdle part with
    | false => exact isIdle_append idle row'
    | true =>
      obtain ⟨rfl, shown⟩ := h.free le idle t row below after
      rw [after] at hr
      obtain ⟨rfl, -⟩ := List.cons.inj hr
      exact shown

theorem length_significant_singleton (before : Nat) (row : Row) :
    (significant before [row]).length ≤ 1 := by
  unfold significant
  split
  · exact Nat.zero_le 1
  · exact Nat.le_refl 1

/-- A demand is noted on a row that counts, or on the last one, and all rows above fit. In the place
of the initial state it is only noted where no name starts the row. -/
theorem Demanded.exists_onTrack {f : Failure} (h : Demanded text f) :
    ∃ c above part row below, f.offset = c.offset ∧ OnTrack text c above part ∧
      c.rows = row :: below ∧ ((counted above).length = 3 → ¬ FitsAt 3 ((part ++ row).take 1)) := by
  cases h with
  | @token c above below part row e track begins next after refused =>
    refine ⟨c, above, part, row, below, rfl, track, after, fun here fits => ?_⟩
    rw [here] at next
    cases part with
    | cons t part => cases next
    | nil =>
      obtain ⟨t, same, name⟩ := fits
      cases row with
      | nil => cases same
      | cons u row =>
        cases same
        cases next
        rw [Row.token?_eq_some_iff.2 ⟨rfl, accepts_name_iff.2 name⟩] at refused
        cases refused
  | @endOfInput c above below part row t closing after =>
    refine ⟨c, above, part, t :: row, below, rfl, closing.onTrack after, after, fun here => ?_⟩
    -- There are five rows where a definition may end, and only the last one is not counted yet.
    obtain ⟨enough, -⟩ := followsFormat_iff.1 closing.follows
    have one := length_significant_singleton (counted above).length part
    rw [List.length_append] at enough
    omega

/-- The row that counts at the place of a cursor is its own. -/
theorem OnTrack.row_eq (h : OnTrack text c above part) (after : c.rows = row :: below) {found : Row}
    (here : (significant 0 (rowsFrom 1 text))[(counted above).length]? = some found) :
    found = part ++ row := by
  rw [h.position.rows_eq after, significant_append, Nat.zero_add,
    List.getElem?_append_right (Nat.le_refl _), Nat.sub_self] at here
  cases idle : isIdle (part ++ row) with
  | false =>
    rw [significant_cons idle] at here
    exact (Option.some.inj here).symm
  | true =>
    cases below with
    | nil =>
      unfold significant at here
      split at here
      · cases here
      · exact (Option.some.inj here).symm
    | cons next more => exact absurd ((h.busy _ _ _ after).symm.trans idle) (by decide)

/-- A position beyond another is on the same row, or the row of the other is one of those above,
and counts. -/
theorem OnTrack.eq_or_passed (h : OnTrack text c above part) (h' : OnTrack text d above' part')
    (le : c.offset ≤ d.offset) (after : c.rows = row :: below) :
    above = above' ∨ (below ≠ [] ∧ ∃ passed,
      counted above' = counted above ++ (part ++ row) :: passed) := by
  rcases h.position.mono h'.position le with same | ⟨row₁, below₁, passed, after₁, rfl⟩
  · exact .inl same
  · obtain ⟨rfl, rfl⟩ := List.cons.inj (after.symm.trans after₁)
    obtain ⟨row', below', after'⟩ := d.exists_rows_eq_cons
    have rows := (h.position.rows_eq after).symm.trans (h'.position.rows_eq after')
    rw [List.append_assoc, List.cons_append] at rows
    have rest := (List.cons.inj (List.append_cancel_left rows)).2
    have more_rows : below ≠ [] := by
      rw [rest]
      exact List.append_ne_nil_of_right_ne_nil _ (List.cons_ne_nil _ _)
    obtain ⟨next, more, shape⟩ := List.exists_cons_of_ne_nil more_rows
    have counts := h.busy _ _ _ (shape ▸ after)
    refine .inr ⟨more_rows, counted passed, ?_⟩
    rw [counted_append, counted_cons counts]

/-- Rows that fit fit at each place. -/
theorem FitFrom.getElem {place : Nat} {rows : List Row} (h : FitFrom place rows) {i : Nat}
    {row : Row} (here : rows[i]? = some row) : FitsAt (place + i) row := by
  induction rows generalizing place i with
  | nil => cases here
  | cons first rows ih =>
    cases i with
    | zero =>
      cases here
      exact h.1
    | succ i =>
      rw [← Nat.succ_add_eq_add_succ]
      exact ih h.2 here

/-- **A position beyond the one where the reader was stuck is on the offending line.** -/
theorem isOffendingLine_of_stuck (h : OnTrack text c above part) (h' : OnTrack text d above' part')
    (le : c.offset ≤ d.offset) (after : c.rows = row :: below)
    (stuck : below = [] ∨ ¬ FitsAt (counted above).length (part ++ row)) :
    IsOffendingLine text (above'.length + 1) := by
  have rows := h.position.rows_eq after
  rcases h.eq_or_passed h' le after with rfl | ⟨more_rows, passed, counts⟩
  · have here : IsOnLine text (above.length + 1) (part ++ row) := ⟨above, below, rows, rfl⟩
    have split : significant 0 (rowsFrom 1 text) =
        counted above ++ significant (counted above).length ((part ++ row) :: below) := by
      rw [rows, significant_append, Nat.zero_add]
    by_cases fits : FitsAt (counted above).length (part ++ row)
    · obtain rfl := stuck.resolve_right (not_not_intro fits)
      refine .inr ⟨?_, ?_⟩
      · rw [split, fits.significant_singleton, fitFrom_append, Nat.zero_add]
        exact ⟨h.fits, fits, trivial⟩
      · rw [rows, List.length_append]
        rfl
    · -- The row counts and is the first that does not fit, or it is the last and does not count.
      by_cases nothing : significant (counted above).length ((part ++ row) :: below) = []
      · have last : below = [] := by
          cases below with
          | nil => rfl
          | cons next more =>
            rw [significant_cons (h.busy _ _ _ after)] at nothing
            cases nothing
        subst last
        refine .inr ⟨?_, ?_⟩
        · rw [split, nothing, List.append_nil]
          exact h.fits
        · rw [rows, List.length_append]
          rfl
      · obtain ⟨found, others, shape⟩ := List.exists_cons_of_ne_nil nothing
        have same : found = part ++ row := by
          refine h.row_eq after ?_
          rw [split, shape]
          exact getElem?_append_length ..
        subst same
        rw [shape] at split
        exact .inl ⟨counted above, part ++ row, others, split, h.fits, fits, here⟩
  · -- All rows above a position fit, those that were passed among them.
    have fits := h'.fits
    rw [counts, fitFrom_append, Nat.zero_add] at fits
    exact absurd fits.2.1 (stuck.resolve_left more_rows)

/-- **A text that fails right after its initial state fails on the line above it.** -/
theorem place_of_endsAtState (ends : EndsAtState text) {f g : Failure}
    (demanded : Demanded text f) (stuck : Stuck text g) (le : g.offset ≤ f.offset) :
    ∃ c above part row below, f.offset = c.offset ∧ OnTrack text c above part ∧
      c.rows = row :: below ∧ (counted above).length = 2 := by
  obtain ⟨header, state, more, rest, rows, three, fits, name, fails⟩ := ends
  obtain ⟨d, above', part', row', below', offset, track', after', no_name⟩ :=
    demanded.exists_onTrack
  obtain ⟨c, above, part, row, below, offset', track, after, reason⟩ := stuck
  have fourth : (significant 0 (rowsFrom 1 text))[3]? = some (state :: more) := by
    rw [rows, ← three]
    exact getElem?_append_length ..
  refine ⟨d, above', part', row', below', offset, track', after', Nat.le_antisymm ?_ ?_⟩
  · -- No demand is noted on the row of the initial state, and this row does not fit.
    by_contra beyond
    rcases Nat.lt_or_ge (counted above').length 4 with lt | ge
    · have here : (counted above').length = 3 := by omega
      have whole := track'.row_eq after' (here ▸ fourth)
      exact no_name here ⟨state, by rw [← whole]; rfl, name⟩
    · have split : counted above' ++ significant (counted above').length
          ((part' ++ row') :: below') = header ++ (state :: more) :: rest := by
        rw [← rows, track'.position.rows_eq after', significant_append, Nat.zero_add]
      rw [rows, ← split, List.getElem?_append_left ge] at fourth
      obtain ⟨_, alone, -⟩ := track'.fits.getElem fourth
      obtain ⟨rfl, last⟩ := fails.resolve_left (not_not_intro (List.cons.inj alone).2)
      have nothing : significant (counted above').length ((part' ++ row') :: below') = [] := by
        have lengths := congrArg List.length split
        rw [List.length_append, List.length_append, three, List.length_singleton] at lengths
        exact List.eq_nil_of_length_eq_zero (by omega)
      have counts : isIdle (part' ++ row') = false := by
        cases below' with
        | cons next more => exact track'.busy _ _ _ after'
        | nil =>
          rw [track'.position.rows_eq after', List.getLast?_concat] at last
          rw [Option.some.inj last]
          exact name
      rw [significant_cons counts] at nothing
      cases nothing
  · -- The reader was stuck no earlier, for all of the header above the initial state fits.
    have le' : (counted above).length ≤ (counted above').length := by
      rcases track.eq_or_passed track' (offset ▸ offset' ▸ le) after with rfl | ⟨-, passed, counts⟩
      · exact Nat.le_refl _
      · rw [counts, List.length_append]
        exact Nat.le_add_right _ _
    refine Nat.le_trans ?_ le'
    by_contra few
    have lt : (counted above).length < header.length := by omega
    have here : (significant 0 (rowsFrom 1 text))[(counted above).length]? =
        some header[(counted above).length] := by
      rw [rows, List.getElem?_append_left lt, List.getElem?_eq_getElem lt]
    rcases reason with rfl | unfit | ⟨-, two⟩
    · have length := congrArg List.length rows
      have one := length_significant_singleton (counted above).length (part ++ row)
      rw [track.position.rows_eq after, significant_append, Nat.zero_add, List.length_append,
        List.length_append, List.length_cons] at length
      omega
    · have fits_here := fits.getElem (List.getElem?_eq_getElem lt)
      rw [track.row_eq after here, Nat.zero_add] at fits_here
      exact unfit fits_here
    · omega

end

/-- The line of a report is the number of rows up to that of its position. -/
theorem line_ofFailure {text : List Char} (paired : Paired text) {f : Failure} {c : Cursor}
    {above : List Row} {part : Row} (h : At text c above part) (here : f.offset = c.offset) :
    (Report.ofFailure text f).line = above.length + 1 := by
  have line := h.line_eq
  rw [h.line_eq_length paired, ← here] at line
  show (text.take f.offset).count '\n' + 1 = above.length + 1
  omega

/-! ## Main result -/

/-- **A syntax error names the offending line**, unless the text fails right after its initial
state: then it names the line of the stack alphabet. -/
theorem load_error_line {text : String} (small : text.utf8ByteSize ≤ sizeLimit)
    (paired : Paired text.toList) (rejected : ∀ l, Layout.read text ≠ .ok l) :
    ∃ report, load text = .error (.layout report) ∧
      ((¬ EndsAtState text.toList ∧ IsOffendingLine text.toList report.line) ∨
        (EndsAtState text.toList ∧ ∃ stack, (significantRows text)[2]? = some stack ∧
          IsOnLine text.toList report.line stack)) := by
  obtain ⟨failure, mem, farthest, ⟨g, hg, stuck⟩, read⟩ := Layout.read_eq_error rejected
  have demanded := (Layout.definition_meets text.toList).noted failure mem
  have le := farthest g hg
  refine ⟨_, load_of_read_eq_error small read, ?_⟩
  by_cases ends : EndsAtState text.toList
  · obtain ⟨c, above, part, row, below, here, track, after, two⟩ :=
      place_of_endsAtState ends demanded stuck le
    rw [line_ofFailure paired track.position here]
    refine .inr ⟨ends, part ++ row, ?_, ?_⟩
    · obtain ⟨header, state, more, rest, rows, three, -⟩ := ends
      have third : (significantRows text)[2]? = some header[2] := by
        rw [significantRows, rows, List.getElem?_append_left (by omega), List.getElem?_eq_getElem]
      have same : header[2] = part ++ row := track.row_eq after (by rw [two]; exact third)
      rw [third, same]
    · exact ⟨above, below, track.position.rows_eq after, rfl⟩
  · obtain ⟨c, above, part, row, below, here, track, -⟩ := demanded.exists_onTrack
    obtain ⟨c', above', part', row', below', here', track', after', reason⟩ := stuck
    rw [line_ofFailure paired track.position here]
    have reason := reason.imp_right fun unfit => unfit.resolve_right fun h => ends h.1
    exact .inl ⟨ends, isOffendingLine_of_stuck track' track (here ▸ here' ▸ le) after' reason⟩

/-- A transition of four tokens on the seventh line, after a comment. -/
def shortTransition : String := "q\na\nZ\nq\nZ\n# moves\nq a Z q\nq a Z q .\n"

/-- The report of `shortTransition` names the seventh line. -/
theorem load_error_line_shortTransition :
    shortTransition.utf8ByteSize ≤ sizeLimit ∧ Paired shortTransition.toList ∧
      (∀ l, Layout.read shortTransition ≠ .ok l) ∧
      load shortTransition = .error (.layout ⟨7, 8, "q a Z q␊", .push⟩) ∧
      ¬ EndsAtState shortTransition.toList ∧ IsOffendingLine shortTransition.toList 7 := by
  have small : shortTransition.utf8ByteSize ≤ sizeLimit := by decide
  have paired : Paired shortTransition.toList := paired_of_not_mem (by decide)
  have refused : Layout.read shortTransition = .error ⟨7, 8, "q a Z q␊", .push⟩ := by
    decide +kernel
  have rejected : ∀ l, Layout.read shortTransition ≠ .ok l := fun l read => by
    rw [refused] at read
    cases read
  have loads := load_of_read_eq_error small refused
  obtain ⟨report, same, line⟩ := load_error_line small paired rejected
  obtain rfl : (⟨7, 8, "q a Z q␊", .push⟩ : Report) = report := by
    simpa using loads.symm.trans same
  refine ⟨small, paired, rejected, loads, ?_⟩
  rcases line with line | ⟨-, stack, third, seventh⟩
  · exact line
  · have third_row : (significantRows shortTransition)[2]? = some [⟨"Z", 3⟩] := by decide
    have seventh_row : (rowsFrom 1 shortTransition.toList)[6]? =
        some [⟨"q", 7⟩, ⟨"a", 7⟩, ⟨"Z", 7⟩, ⟨"q", 7⟩] := by decide
    have one_row : some ([⟨"Z", 3⟩] : Row) = some [⟨"q", 7⟩, ⟨"a", 7⟩, ⟨"Z", 7⟩, ⟨"q", 7⟩] :=
      (third_row.symm.trans third).trans (seventh_row.symm.trans seventh.getElem?).symm
    exact absurd one_row (by decide)

/-- A second token on the line of the initial state. -/
def twoStates : String := "q\na\nZ\nq p\nZ\n"

/-- What follows the initial state on its line is reported on the line above, as a missing stack
symbol: no demand is noted for the end of a line. -/
theorem load_error_names_other_line :
    ¬ ∀ text : String, text.utf8ByteSize ≤ sizeLimit → Paired text.toList →
      (∀ l, Layout.read text ≠ .ok l) →
      ∃ report, load text = .error (.layout report) ∧ IsOffendingLine text.toList report.line := by
  intro names_line
  have small : twoStates.utf8ByteSize ≤ sizeLimit := by decide
  have refused : Layout.read twoStates = .error ⟨3, 2, "Z␊", .symbol⟩ := by decide +kernel
  have rejected : ∀ l, Layout.read twoStates ≠ .ok l := fun l read => by
    rw [refused] at read
    cases read
  obtain ⟨report, same, line⟩ :=
    names_line twoStates small (paired_of_not_mem (by decide)) rejected
  obtain rfl : (⟨3, 2, "Z␊", .symbol⟩ : Report) = report := by
    simpa using (load_of_read_eq_error small refused).symm.trans same
  have rows : significant 0 (rowsFrom 1 twoStates.toList) =
      [[⟨"q", 1⟩], [⟨"a", 2⟩], [⟨"Z", 3⟩], [⟨"q", 4⟩, ⟨"p", 4⟩], [⟨"Z", 5⟩]] := by decide
  have third : (rowsFrom 1 twoStates.toList)[2]? = some [⟨"Z", 3⟩] := by decide
  rcases line with ⟨fitting, row, below, split, -, unfit, here⟩ | ⟨fits, -⟩
  · -- The third line fits its place: it is neither empty nor at any other place.
    obtain rfl := Option.some.inj (third.symm.trans here.getElem?)
    have place : (significant 0 (rowsFrom 1 twoStates.toList))[fitting.length]? =
        some [⟨"Z", 3⟩] := by
      rw [split]
      exact getElem?_append_length ..
    rw [rows] at place
    match length : fitting.length with
    | 2 =>
      rw [length] at unfit
      exact unfit (List.cons_ne_nil _ _)
    | 0 | 1 | 3 | 4 => rw [length] at place; exact absurd place (by decide)
    | _ + 5 => rw [length] at place; cases place
  · rw [rows] at fits
    have fourth : FitsAt 3 [⟨"q", 4⟩, ⟨"p", 4⟩] := fits.getElem (i := 3) rfl
    obtain ⟨_, same, -⟩ := fourth
    cases same

end Pushdown.Definition
