import Pushdown.Proofs.Definition.Rows

/-!
# Reading rows

`Layout.definition` goes through a text character by character and may pass over a line twice:
once in search of a transition, and once more as a line of the end. Here it is compared with a
reading of the rows that count (`layoutOf?`), which sees nothing else.

The comparison is made reader by reader. What a reader takes from the row at its cursor is a
function of that row (`Row.token?`, `Row.tokens?`, `Row.fields?`), and what is still to be read
after it is one of the rows below (`onRows`). Readings in sequence agree if their parts do:

> `map_result_bind`: the result of two readings in sequence is told by the results of the two.

The lines after the header are where the reader goes back. The transitions and the lines of the
end are found together, as the rows that count tell:

> `transitionLines_rows`: the transitions up to the end of the text are those of the rows that
> count, or the end is not reached.

The header is read row by row, each part the whole of a row that counts (`header_step`), so that

> `readRows_eq`: reading rows in the order of the text is seeing those that count;
> `Layout.definition_result`: the reader of characters and the reader of rows agree.
-/

namespace Pushdown.Definition

/-! ## What a row gives -/

/-- Whether a token may stand where something is expected: a name does not start like a
comment. -/
def accepts : Expected → Token → Bool
  | .name, t => !t.isComment
  | _, _ => true

namespace Row

/-- The first token of a row. -/
def token? (expected : Expected) : Row → Option (Token × Row)
  | t :: row => if accepts expected t then some (t, row) else none
  | [] => none

/-- The first tokens of a row, one or more. -/
def tokens? (expected : Expected) (row : Row) : Option (List Token × Row) := do
  let (t, row) ← token? expected row
  return (t :: row.takeWhile (accepts expected), row.dropWhile (accepts expected))

/-- The five tokens of a transition, from the start of a row. -/
def fields? (row : Row) : Option (TransitionLine × Row) := do
  let (source, row) ← token? .name row
  let (input, row) ← token? .symbol row
  let (top, row) ← token? .symbol row
  let (target, row) ← token? .name row
  let (push, row) ← token? .push row
  return (⟨source, input, top, target, push⟩, row)

/-- The transition that a row is, which at most a comment may follow. -/
def transition? (row : Row) : Option TransitionLine := do
  let (l, rest) ← fields? row
  if isIdle rest then some l else none

end Row

/-- Takes something from the first row. -/
def ofFirst {α : Type} (take : Row → Option (α × Row)) : List Row → Option (α × List Row)
  | row :: below => (take row).map fun found => (found.1, found.2 :: below)
  | [] => none

/-- Takes something that is the whole first row. -/
def allOfFirst {α : Type} (take : Row → Option (α × Row)) : List Row → Option (α × List Row)
  | row :: below =>
    match take row with
    | some (a, []) => some (a, below)
    | _ => none
  | [] => none

theorem ofFirst_bind {α β : Type} (take : Row → Option (α × Row))
    (next : α × Row → Option (β × Row)) (rows : List Row) :
    ofFirst (fun row => take row >>= next) rows =
      ofFirst take rows >>= fun found => ofFirst (fun row => next (found.1, row)) found.2 := by
  cases rows with
  | nil => rfl
  | cons row below =>
    unfold ofFirst
    dsimp only
    cases take row <;> rfl

/-- The layout of the rows that count. -/
def layoutOf? (rows : List Row) : Option Layout := do
  let (states, rows) ← allOfFirst (Row.tokens? .name) rows
  let (inputSymbols, rows) ← allOfFirst (Row.tokens? .symbol) rows
  let (stackSymbols, rows) ← allOfFirst (Row.tokens? .symbol) rows
  let (initialState, rows) ← allOfFirst (Row.token? .name) rows
  let (initialSymbol, rows) ← allOfFirst (Row.token? .symbol) rows
  let transitions ← rows.mapM Row.transition?
  return { states, inputSymbols, stackSymbols, initialState, initialSymbol, transitions }

/-! ## Readers on rows -/

/-- What a reader found, with the rows that are still to be read. -/
def onRows {α : Type} (found : α × Cursor) : α × List Row := (found.1, found.2.rows)

/-- Takes a transition from the next row that holds more than a comment. A comment after it empties
the rest of the row. -/
def takeTransition (rows : List Row) : Option (TransitionLine × List Row) := do
  let rows ← (nextRow? rows).map settle
  let (l, rows) ← ofFirst Row.fields? rows
  return (l, uncomment rows)

/-- Readings in sequence find what their parts find. -/
theorem map_result_bind {α α' β β' : Type} {r : Reading α} {s : Option α'} {f : α → Reading β}
    {g : α' → Option β'} {φ : α → α'} {ψ : β → β'} (h : r.result.map φ = s)
    (next : ∀ a, (f a).result.map ψ = g (φ a)) : (r >>= f).result.map ψ = s >>= g := by
  rw [Reading.result_bind, ← h]
  cases r.result with
  | none => rfl
  | some a => exact next a

namespace Layout

/-- A token that starts at the cursor is the first of the row, and conversely. -/
theorem token?_rows (expected : Expected) {c : Cursor} (h : c.Settled) :
    (token? expected c).map onRows = ofFirst (Row.token? expected) c.rows := by
  have no_token : c.rest.takeWhile isGlyph = [] → token? expected c = none := by
    intro nothing
    rw [token?, nothing]
  rcases h.cases with end_of_text | ⟨d, newline⟩ | ⟨first, more, run, -⟩
  · rw [no_token (by rw [end_of_text]; rfl), Cursor.rows_of_rest_eq_nil end_of_text]
    rfl
  · rw [no_token (Cursor.takeWhile_isGlyph_of_newline? newline), Cursor.rows_newline? newline]
    rfl
  · obtain ⟨row, below, before, after⟩ := Cursor.rows_of_run run
    have same : accepts expected ⟨String.ofList (first :: more), c.line⟩ =
        admits expected first := by
      cases expected with
      | name => exact congrArg not (isComment_ofList first more c.line)
      | symbol | push | endOfInput => rfl
    rw [token?, run, before, ofFirst, Row.token?, same]
    dsimp only
    cases admits expected first with
    | false => rfl
    | true => exact congrArg some (congrArg (Prod.mk _) after)

theorem token_rows (expected : Expected) (c : Cursor) :
    (token expected c).result.map onRows = ofFirst (Row.token? expected) c.rows := by
  have found := token?_rows expected c.settled_skipBlanks
  rw [Cursor.rows_skipBlanks] at found
  rw [← found]
  unfold token
  split
  · next h => rw [h]; rfl
  · next h => rw [h]; rfl

/-- The tokens after the first are all that fit, however many were found before. -/
theorem moreTokens_rows (expected : Expected) (before : List Token) (c : Cursor) {row : Row}
    {below : List Row} (h : c.rows = row :: below) :
    (moreTokens expected before c).result.map onRows =
      some (before.reverse ++ row.takeWhile (accepts expected),
        row.dropWhile (accepts expected) :: below) := by
  fun_induction moreTokens expected before c generalizing row with
  | case1 before c t d hd ih =>
    have found := token?_rows expected c.settled_skipBlanks
    rw [Cursor.rows_skipBlanks, hd, h] at found
    cases row with
    | nil => cases found
    | cons first row =>
      unfold ofFirst Row.token? at found
      dsimp only at found
      split at found
      · next fits =>
        simp only [Option.map_some, Option.some.injEq, onRows, Prod.mk.injEq] at found
        obtain ⟨rfl, rest⟩ := found
        rw [ih rest, List.takeWhile_cons_of_pos fits, List.dropWhile_cons_of_pos fits,
          List.reverse_cons, List.append_assoc]
        rfl
      · cases found
  | case2 before c none_found =>
    have found := token?_rows expected c.settled_skipBlanks
    rw [Cursor.rows_skipBlanks, none_found, h] at found
    cases row with
    | nil =>
      show some (before.reverse, c.rows) = _
      rw [h, List.takeWhile_nil, List.append_nil, List.dropWhile_nil]
    | cons first row =>
      unfold ofFirst Row.token? at found
      dsimp only at found
      split at found
      · cases found
      · next unfit =>
        show some (before.reverse, c.rows) = _
        rw [h, List.takeWhile_cons_of_neg unfit, List.dropWhile_cons_of_neg unfit, List.append_nil]

theorem tokens_rows (expected : Expected) (c : Cursor) :
    (tokens expected c).result.map onRows = ofFirst (Row.tokens? expected) c.rows := by
  unfold Row.tokens?
  rw [ofFirst_bind]
  refine map_result_bind (token_rows expected c) fun found => ?_
  obtain ⟨row, below, rest⟩ := found.2.exists_rows_eq_cons
  show (moreTokens expected [found.1] found.2).result.map onRows = ofFirst _ found.2.rows
  rw [moreTokens_rows expected [found.1] found.2 rest, rest]
  rfl

/-- The end of a line leads to the next row that holds more than a comment. -/
theorem separator_rows (c : Cursor) :
    (separator c).result.map Cursor.rows = (nextRow? c.rows).map settle := by
  have next := Cursor.newline?_rows c.settled_skipBlanks
  rw [Cursor.rows_skipBlanks] at next
  rw [← next]
  unfold separator
  split
  · next d h =>
    rw [h]
    exact congrArg some d.rows_skipEmptyLines
  · next h => rw [h]; rfl

theorem transitionLine_rows (c : Cursor) :
    (transitionLine c).result.map onRows = takeTransition c.rows := by
  unfold takeTransition Row.fields?
  refine map_result_bind (separator_rows c) fun c => ?_
  simp only [ofFirst_bind, bind_assoc]
  refine map_result_bind (token_rows .name c) fun source => ?_
  refine map_result_bind (token_rows .symbol source.2) fun input => ?_
  refine map_result_bind (token_rows .symbol input.2) fun top => ?_
  refine map_result_bind (token_rows .name top.2) fun target => ?_
  refine map_result_bind (token_rows .push target.2) fun push => ?_
  have rest := Cursor.rows_skipComment push.2.settled_skipBlanks
  rw [Cursor.rows_skipBlanks] at rest
  obtain ⟨row, below, hp⟩ := push.2.exists_rows_eq_cons
  show some (_, push.2.skipBlanks.skipComment.rows) = (ofFirst _ push.2.rows >>= _)
  rw [rest, hp]
  rfl

end Layout

/-! ## The lines after the header -/

/-- The transitions of the rows after the header, the last row of which has been read. -/
def closing : List Row → Option (List TransitionLine)
  | [] :: more => (significant 5 more).mapM Row.transition?
  | _ => none

/-- Whether nothing but comments is left, once a row has been read. -/
def isClosed : List Row → Bool
  | [] :: more => more.all isIdle
  | _ => false

/-- Emptying a row that starts like a comment is what passing over an idle row takes. -/
theorem isClosed_uncomment (row : Row) (below : List Row) :
    isClosed (uncomment (row :: below)) = isClosed ([] :: row :: below) := by
  cases row with
  | nil => rfl
  | cons t row =>
    show isClosed ((if t.isComment then [] else t :: row) :: below) =
      (t.isComment && below.all isIdle)
    cases t.isComment <;> rfl

theorem closing_uncomment (row : Row) (below : List Row) :
    closing (uncomment (row :: below)) =
      if isIdle row then (significant 5 below).mapM Row.transition? else none := by
  cases row with
  | nil => rfl
  | cons t row =>
    show closing ((if t.isComment then [] else t :: row) :: below) =
      if t.isComment then _ else none
    cases t.isComment <;> rfl

/-- The first row has to be one that counts for a transition to be read from it. -/
theorem Row.fields?_of_isIdle {row : Row} (h : isIdle row = true) : row.fields? = none := by
  cases row with
  | nil => rfl
  | cons t row =>
    have comment : t.isComment = true := h
    unfold fields? token?
    dsimp only
    rw [if_neg (by simp [accepts, comment])]
    rfl

theorem takeTransition_of_settle {next row : Row} {more below : List Row}
    (h : settle (next :: more) = row :: below) :
    takeTransition ([] :: next :: more) =
      row.fields?.map fun found => (found.1, uncomment (found.2 :: below)) := by
  unfold takeTransition
  show ofFirst Row.fields? (settle (next :: more)) >>= _ = _
  rw [h, ofFirst]
  cases row.fields? <;> rfl

/-- Where no transition can be taken, only the end of the text can follow. -/
theorem closing_of_takeTransition_eq_none {rows : List Row} (h : takeTransition rows = none) :
    closing rows = if isClosed rows then some [] else none := by
  match rows with
  | [] => rfl
  | [[]] => rfl
  | (t :: row) :: below => rfl
  | [] :: next :: more =>
    -- The row arrived at is no transition: it counts and spoils the rest, or is idle and the last.
    obtain ⟨row, below, arrived⟩ := exists_settle_eq_cons next more
    rw [takeTransition_of_settle arrived, Option.map_eq_none_iff] at h
    show (significant 5 (next :: more)).mapM Row.transition? =
      if (next :: more).all isIdle then some [] else none
    rcases significant_of_settle arrived with ⟨-, nothing⟩ | ⟨-, counted⟩
    · rw [nothing, (significant_eq_nil_iff _).1 nothing]
      rfl
    · have some_left : (next :: more).all isIdle = false := by
        rw [Bool.eq_false_iff, Ne, ← significant_eq_nil_iff, counted]
        exact List.cons_ne_nil _ _
      rw [counted, some_left, List.mapM_cons, Row.transition?, h]
      rfl

/-- A transition that is taken is the first of the rows that count. -/
theorem closing_of_takeTransition_eq_some {rows rest : List Row} {l : TransitionLine}
    (h : takeTransition rows = some (l, rest)) :
    closing rows = (closing rest).map (l :: ·) := by
  match rows with
  | [] => cases h
  | [[]] => cases h
  | (t :: row) :: below => cases h
  | [] :: next :: more =>
    obtain ⟨row, below, arrived⟩ := exists_settle_eq_cons next more
    rw [takeTransition_of_settle arrived, Option.map_eq_some_iff] at h
    obtain ⟨⟨l', row_rest⟩, taken, same⟩ := h
    cases same
    rcases significant_of_settle arrived with ⟨idle, -⟩ | ⟨-, counted⟩
    · rw [Row.fields?_of_isIdle idle] at taken
      cases taken
    · rw [closing_uncomment]
      show (significant 5 (next :: more)).mapM Row.transition? = _
      rw [counted, List.mapM_cons, Row.transition?, taken]
      show ((if isIdle row_rest then some l' else none) >>= fun l =>
        (significant 5 below).mapM Row.transition? >>= fun ls => pure (l :: ls)) = _
      split
      · rw [Option.map_eq_bind]
        rfl
      · rfl

namespace Layout

/-- The lines at the end can be passed over exactly where they hold nothing but comments. -/
theorem trailer_rows (c : Cursor) :
    (trailer c).skipBlanks.rest.isEmpty = isClosed c.rows := by
  fun_induction trailer c with
  | case1 c d h ih =>
    obtain ⟨row, below, hd⟩ := d.exists_rows_eq_cons
    rw [ih, Cursor.rows_skipComment d.settled_skipBlanks, Cursor.rows_skipBlanks, hd,
      isClosed_uncomment, ← hd, ← Cursor.rows_newline? h, Cursor.rows_skipBlanks]
  | case2 c h =>
    rw [← Cursor.rows_skipBlanks]
    rcases c.settled_skipBlanks.cases with end_of_text | ⟨d, newline⟩ | ⟨first, more, run, head⟩
    · rw [Cursor.rows_of_rest_eq_nil end_of_text, end_of_text]
      rfl
    · rw [h] at newline
      cases newline
    · obtain ⟨row, below, rows, -⟩ := Cursor.rows_of_run run
      obtain ⟨cs, hr⟩ := List.head?_eq_some_iff.1 head
      rw [rows, hr]
      rfl

theorem endOfInput_result (c : Cursor) :
    (endOfInput c).result = if c.skipBlanks.rest.isEmpty then some () else none := by
  unfold endOfInput
  split <;> rfl

/-- The transitions and the end of the text are found as the rows tell. -/
theorem transitionLines_rows (c : Cursor) :
    (transitionLines c >>= fun found => endOfInput (trailer found.2) >>= fun _ =>
      pure found.1).result = closing c.rows := by
  simp only [Reading.result_bind, endOfInput_result, trailer_rows]
  -- Along the transitions taken: the first line that is none is left for the end of the text.
  fun_induction transitionLines c with
  | case1 c failure h =>
    have taken := transitionLine_rows c
    rw [h] at taken
    rw [closing_of_takeTransition_eq_none taken.symm]
    show ((if isClosed c.rows then some () else none).bind fun _ => some []) = _
    split <;> rfl
  | case2 c l d failure h others ih =>
    have taken := transitionLine_rows c
    rw [h] at taken
    rw [closing_of_takeTransition_eq_some taken.symm]
    show _ = (closing d.rows).map (l :: ·)
    rw [← ih]
    show ((transitionLines d).result.map _).bind _ = ((transitionLines d).result.bind _).map _
    cases (transitionLines d).result with
    | none => rfl
    | some found =>
      show (if isClosed found.2.rows then some () else none).bind _ =
        ((if isClosed found.2.rows then some () else none).bind _).map _
      split <;> rfl

end Layout

/-! ## The header -/

/-- A part of the header is the whole of the next row that counts, if the rest of the definition
can only be read from the end of a row and depends on the rows that count below it. -/
theorem header_step {α β : Type} {take : Row → Option (α × Row)}
    {f g : α × List Row → Option β} (before : Nat) (header : before < 5) (nothing : take [] = none)
    (ends : ∀ a t row below, f (a, (t :: row) :: below) = none)
    (agree : ∀ a below, f (a, [] :: below) = g (a, significant (before + 1) below))
    (rows : List Row) :
    (ofFirst take (settle rows) >>= f) = (allOfFirst take (significant before rows) >>= g) := by
  -- A row that is taken from is all there is to it, or what is left of it stops the reader.
  have counted : ∀ row below, (ofFirst take (row :: below) >>= f) =
      (allOfFirst take (row :: significant (before + 1) below) >>= g) := by
    intro row below
    unfold ofFirst allOfFirst
    dsimp only
    cases take row with
    | none => rfl
    | some found =>
      obtain ⟨a, rest⟩ := found
      cases rest with
      | nil => exact agree a below
      | cons t rest => exact ends a t rest below
  rw [← significant_settle]
  match arrived : settle rows with
  | [] => rfl
  | [[]] =>
    have none_left : significant before [[]] = [] := rfl
    rw [none_left, ofFirst, nothing]
    rfl
  | [t :: row] =>
    have last : significant before [t :: row] = [t :: row] := by
      rw [significant, if_neg]
      simp [Nat.not_le.2 header]
    rw [last]
    exact counted (t :: row) []
  | row :: next :: more =>
    rw [significant_cons (not_isIdle_of_settle arrived)]
    exact counted row (next :: more)

/-- A definition, read from rows in the order of the text. -/
def readRows (rows : List Row) : Option Layout := do
  let (states, rows) ← ofFirst (Row.tokens? .name) (settle rows)
  let rows ← (nextRow? rows).map settle
  let (inputSymbols, rows) ← ofFirst (Row.tokens? .symbol) rows
  let rows ← (nextRow? rows).map settle
  let (stackSymbols, rows) ← ofFirst (Row.tokens? .symbol) rows
  let rows ← (nextRow? rows).map settle
  let (initialState, rows) ← ofFirst (Row.token? .name) rows
  let rows ← (nextRow? rows).map settle
  let (initialSymbol, rows) ← ofFirst (Row.token? .symbol) rows
  let transitions ← closing rows
  return { states, inputSymbols, stackSymbols, initialState, initialSymbol, transitions }

theorem Layout.definition_rows (c : Cursor) : (definition c).result = readRows c.rows := by
  have separated := separator_rows
  refine Option.map_id_apply.symm.trans ?_
  unfold readRows
  rw [← c.rows_skipEmptyLines]
  refine map_result_bind (tokens_rows .name _) fun states => ?_
  refine map_result_bind (separated states.2) fun c => ?_
  refine map_result_bind (tokens_rows .symbol c) fun inputs => ?_
  refine map_result_bind (separated inputs.2) fun c => ?_
  refine map_result_bind (tokens_rows .symbol c) fun stack => ?_
  refine map_result_bind (separated stack.2) fun c => ?_
  refine map_result_bind (token_rows .name c) fun state => ?_
  refine map_result_bind (separated state.2) fun c => ?_
  refine map_result_bind (token_rows .symbol c) fun symbol => ?_
  have rest := transitionLines_rows symbol.2
  show _ = closing symbol.2.rows >>= _
  rw [← rest]
  simp only [Reading.result_bind, Option.map_id_apply]
  cases (transitionLines symbol.2).result with
  | none => rfl
  | some found =>
    show (endOfInput (trailer found.2)).result.bind _ =
      ((endOfInput (trailer found.2)).result.bind _ >>= _)
    cases (endOfInput (trailer found.2)).result <;> rfl

/-- Reading rows in the order of the text is seeing those that count. -/
theorem readRows_eq (rows : List Row) : readRows rows = layoutOf? (significant 0 rows) := by
  unfold readRows layoutOf?
  refine header_step 0 (by decide) rfl (fun _ _ _ _ => rfl) (fun states below => ?_) rows
  rcases below with - | ⟨next, more⟩
  · rfl
  refine header_step 1 (by decide) rfl (fun _ _ _ _ => rfl) (fun inputs below => ?_) (next :: more)
  rcases below with - | ⟨next, more⟩
  · rfl
  refine header_step 2 (by decide) rfl (fun _ _ _ _ => rfl) (fun stack below => ?_) (next :: more)
  rcases below with - | ⟨next, more⟩
  · rfl
  refine header_step 3 (by decide) rfl (fun _ _ _ _ => rfl) (fun state below => ?_) (next :: more)
  rcases below with - | ⟨next, more⟩
  · rfl
  exact header_step 4 (by decide) rfl (fun _ _ _ _ => rfl) (fun _ _ => rfl) (next :: more)

/-- **The reader of characters and the reader of rows agree.** -/
theorem Layout.definition_result (c : Cursor) :
    (definition c).result = layoutOf? (significant 0 c.rows) := by
  rw [definition_rows, readRows_eq]

end Pushdown.Definition
