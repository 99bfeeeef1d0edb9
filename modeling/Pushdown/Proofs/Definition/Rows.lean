import Pushdown.Definition.Layout

/-!
# The rows of a text

What the line format means, said without a reader. A text is divided into lines at every `\n`,
`\r\n` and lone `\r` (`linesFrom`), a line into the maximal runs of characters that are no blanks
(`tokensOf`); the tokens of a line are a *row*. Rows that are empty or start like a comment do not
count, with one exception: the last line of a text, which no newline ends, counts even if it
starts like a comment, as long as fewer than five rows that count precede it (`significant`).

`Cursor.rows` are the rows that are still to be read at a cursor. The lemmas below say what the
steps of a cursor do to them:

> `rows_skipBlanks`: blanks hold no tokens;
> `rows_skipComment`: passing over a comment empties a row that starts like one;
> `rows_newline?`: a newline can be read exactly where a row is at its end and another follows;
> `rows_skipEmptyLines`: the rows that are passed over are those that do not count, but never
> the last one (`settle`).
-/

namespace Pushdown.Definition

/-! ## Lines and rows -/

/-- The lines of a text that starts on line `n`, with their numbers. A lone `\r` ends a line, but
the next one has the same number. -/
def linesFrom (n : Nat) : List Char → List (Nat × List Char)
  | [] => [(n, [])]
  | '\n' :: cs => (n, []) :: linesFrom (n + 1) cs
  | '\r' :: '\n' :: cs => (n, []) :: linesFrom (n + 1) cs
  | '\r' :: cs => (n, []) :: linesFrom n cs
  | c :: cs => (linesFrom n cs).modifyHead fun line => (line.1, c :: line.2)

/-- The tokens of a line. -/
abbrev Row := List Token

/-- The maximal runs of characters that are no blanks, as tokens on line `n`. -/
def tokensOf (n : Nat) (line : List Char) : Row :=
  ((line.splitOnP isBlank).filter fun run => !run.isEmpty).map fun run => ⟨String.ofList run, n⟩

/-- The rows of a text that starts on line `n`. -/
def rowsFrom (n : Nat) (cs : List Char) : List Row :=
  (linesFrom n cs).map fun line => tokensOf line.1 line.2

/-- Whether a token starts like a comment. -/
def Token.isComment (t : Token) : Bool := t.text.toList.head? == some '#'

/-- Whether a row starts like a comment. -/
def isCommentRow (row : Row) : Bool := row.head?.any Token.isComment

/-- Whether a row holds at most a comment. -/
def isIdle (row : Row) : Bool := row.isEmpty || isCommentRow row

/-- The rows that count, if `before` rows that count precede them. -/
def significant (before : Nat) : List Row → List Row
  | [] => []
  -- No newline ends the last row, so only the end of the definition may pass over it.
  | [last] => if last.isEmpty || (isCommentRow last && 5 ≤ before) then [] else [last]
  | row :: next :: more =>
    if isIdle row then significant before (next :: more)
    else row :: significant (before + 1) (next :: more)

/-- The rows of a text that count. -/
def significantRows (text : String) : List Row := significant 0 (rowsFrom 1 text.toList)

/-! ### Lines -/

/-- What stands before the first newline is the first line. -/
theorem linesFrom_eq (n : Nat) (cs : List Char) :
    linesFrom n cs =
      (n, cs.takeWhile isInLine) :: (linesFrom n (cs.dropWhile isInLine)).tail := by
  fun_induction linesFrom n cs with
  | case1 n => rfl
  | case2 n cs ih => rfl
  | case3 n cs ih => rfl
  | case4 n cs not_newline ih =>
    show _ = (n, []) :: (linesFrom n ('\r' :: cs)).tail
    rw [linesFrom.eq_4 n cs not_newline]
    rfl
  | case5 n c cs not_newline not_both not_return ih =>
    have in_line : isInLine c = true := by
      simp only [isInLine, Bool.not_eq_true', Bool.or_eq_false_iff, beq_eq_false_iff_ne]
      exact ⟨not_newline, not_return⟩
    rw [ih, List.takeWhile_cons_of_pos in_line, List.dropWhile_cons_of_pos in_line]
    rfl

/-- A line starts with whatever precedes it without a newline. -/
theorem linesFrom_append {run : List Char} (h : ∀ c ∈ run, isInLine c = true) (n : Nat)
    (rest : List Char) :
    linesFrom n (run ++ rest) =
      (linesFrom n rest).modifyHead fun line => (line.1, run ++ line.2) := by
  rw [linesFrom_eq n (run ++ rest), linesFrom_eq n rest, List.takeWhile_append_of_pos h,
    List.dropWhile_append_of_pos h]
  rfl

/-! ### The tokens of a line -/

/-- Blanks before a line are no tokens of it. -/
theorem tokensOf_blanks {blanks : List Char} (h : ∀ c ∈ blanks, isBlank c = true) (n : Nat)
    (line : List Char) : tokensOf n (blanks ++ line) = tokensOf n line := by
  induction blanks with
  | nil => rfl
  | cons b blanks ih =>
    obtain ⟨blank, blanks⟩ := List.forall_mem_cons.1 h
    rw [← ih blanks]
    simp only [tokensOf, List.cons_append, List.splitOnP_cons_eq_if_modifyHead, if_pos blank]
    rfl

/-- A run of characters that are no blanks is a token, if a blank or nothing follows it. -/
theorem tokensOf_run {run : List Char} (nonempty : run ≠ [])
    (h : ∀ c ∈ run, isBlank c = false) {line : List Char}
    (stops : ∀ c, line.head? = some c → isBlank c = true) (n : Nat) :
    tokensOf n (run ++ line) = ⟨String.ofList run, n⟩ :: tokensOf n line := by
  have kept : (!run.isEmpty) = true := by simp [nonempty]
  cases line with
  | nil =>
    simp only [tokensOf, List.append_nil, List.splitOnP_eq_singleton h, List.filter_cons, kept]
    rfl
  | cons c line =>
    have blank := stops c rfl
    rw [tokensOf, List.splitOnP_append_cons_of_forall_mem h c blank line, List.filter_cons,
      if_pos kept, List.map_cons, ← tokensOf,
      ← tokensOf_blanks (List.forall_mem_singleton.2 blank) n line]
    rfl

/-! ## The rows at a cursor -/

/-- Only the characters of a line can be no line end. -/
theorem isInLine_of_isBlank {c : Char} (h : isBlank c = true) : isInLine c = true := by
  simp only [isBlank, Bool.or_eq_true, beq_iff_eq] at h
  rcases h with rfl | rfl <;> rfl

theorem isInLine_of_isGlyph {c : Char} (h : isGlyph c = true) : isInLine c = true := by
  simp only [isGlyph, isInLine, Bool.not_eq_true', Bool.or_eq_false_iff] at h ⊢
  exact ⟨h.1.2, h.2⟩

/-- What stands on a line and belongs to no token is a blank. -/
theorem isBlank_of_not_isGlyph {c : Char} (h : isGlyph c = false) (hc : isInLine c = true) :
    isBlank c = true := by
  simp only [isGlyph, isInLine, Bool.not_eq_true', Bool.not_eq_false', Bool.or_eq_false_iff,
    Bool.or_eq_true] at h hc
  rcases h with (blank | newline) | return'
  · exact blank
  · exact absurd (hc.1.symm.trans newline) (by decide)
  · exact absurd (hc.2.symm.trans return') (by decide)

namespace Cursor

/-- The rows that are still to be read, the rest of the present one first. -/
def rows (c : Cursor) : List Row := rowsFrom c.line c.rest

/-- Passing over characters of a line changes its row alone. -/
theorem rows_passOver (c : Cursor) (kind : Char → Bool)
    (h : ∀ x, kind x = true → isInLine x = true) :
    ∃ below,
      c.rows = tokensOf c.line (c.rest.takeWhile kind ++
        (c.passOver kind).rest.takeWhile isInLine) :: below ∧
      (c.passOver kind).rows =
        tokensOf c.line ((c.passOver kind).rest.takeWhile isInLine) :: below := by
  have whole : c.rest = c.rest.takeWhile kind ++ (c.passOver kind).rest :=
    List.takeWhile_append_dropWhile.symm
  have run_in_line : ∀ x ∈ c.rest.takeWhile kind, isInLine x = true := fun x hx =>
    h x (List.all_eq_true.1 List.all_takeWhile x hx)
  refine ⟨(linesFrom c.line ((c.passOver kind).rest.dropWhile isInLine)).tail.map
    fun line => tokensOf line.1 line.2, ?_, ?_⟩
  · have split := linesFrom_append run_in_line c.line (c.passOver kind).rest
    rw [← whole] at split
    unfold rows rowsFrom
    rw [split, linesFrom_eq c.line (c.passOver kind).rest]
    rfl
  · unfold rows rowsFrom
    rw [linesFrom_eq]
    rfl

/-- Blanks hold no tokens. -/
theorem rows_skipBlanks (c : Cursor) : c.skipBlanks.rows = c.rows := by
  obtain ⟨below, before, after⟩ := c.rows_passOver isBlank fun _ => isInLine_of_isBlank
  unfold skipBlanks
  rw [before, after, tokensOf_blanks fun x hx => List.all_eq_true.1 List.all_takeWhile x hx]

/-- A newline can only be read where a row ends, and the next row follows it. -/
theorem rows_newline? {c d : Cursor} (h : c.newline? = some d) : c.rows = [] :: d.rows := by
  unfold newline? at h
  unfold rows rowsFrom
  split at h
  · next hr =>
    cases h
    rw [hr]
    rfl
  · next hr =>
    cases h
    rw [hr]
    rfl
  · next not_newline hr =>
    cases h
    rw [hr, linesFrom.eq_4 _ _ not_newline]
    rfl
  · cases h

/-- No token starts with a newline. -/
theorem takeWhile_isGlyph_of_newline? {c d : Cursor} (h : c.newline? = some d) :
    c.rest.takeWhile isGlyph = [] := by
  unfold newline? at h
  split at h
  case h_4 => cases h
  all_goals
    next hr =>
    rw [hr]
    rfl

/-- At the end of a text there is one row, and it is empty. -/
theorem rows_of_rest_eq_nil {c : Cursor} (h : c.rest = []) : c.rows = [[]] := by
  unfold rows rowsFrom
  rw [h]
  rfl

/-- The run of a token is the first token of its row. -/
theorem rows_of_run {c : Cursor} {first : Char} {more : List Char}
    (h : c.rest.takeWhile isGlyph = first :: more) :
    ∃ row below, c.rows = (⟨String.ofList (first :: more), c.line⟩ :: row) :: below ∧
      (c.passOver isGlyph).rows = row :: below := by
  obtain ⟨below, before, after⟩ := c.rows_passOver isGlyph fun _ => isInLine_of_isGlyph
  have glyphs : ∀ x ∈ first :: more, isBlank x = false := by
    intro x hx
    have glyph := List.all_eq_true.1 (List.all_takeWhile (p := isGlyph) (l := c.rest)) x (h ▸ hx)
    simp only [isGlyph, Bool.not_eq_true', Bool.or_eq_false_iff] at glyph
    exact glyph.1.1
  have stops : ∀ x, ((c.passOver isGlyph).rest.takeWhile isInLine).head? = some x →
      isBlank x = true := by
    intro x hx
    have in_line := List.all_eq_true.1 List.all_takeWhile x (List.mem_of_head? hx)
    refine isBlank_of_not_isGlyph ?_ in_line
    have stop := List.head?_dropWhile_not isGlyph c.rest
    rw [List.head?_takeWhile, Option.filter_eq_some_iff] at hx
    rw [show (c.rest.dropWhile isGlyph).head? = some x from hx.1] at stop
    exact stop
  refine ⟨_, below, ?_, after⟩
  rw [before, h, tokensOf_run (List.cons_ne_nil _ _) glyphs stops]

/-! ### Steps between rows -/

/-- No blank stands at the cursor. -/
def Settled (c : Cursor) : Prop := ∀ x, c.rest.head? = some x → isBlank x = false

theorem settled_skipBlanks (c : Cursor) : c.skipBlanks.Settled := by
  intro x hx
  have stop := List.head?_dropWhile_not isBlank c.rest
  rw [show (c.rest.dropWhile isBlank).head? = some x from hx] at stop
  exact stop

/-- Where no blank stands, the text ends, or a newline or a token starts. -/
theorem Settled.cases {c : Cursor} (h : c.Settled) :
    c.rest = [] ∨ (∃ d, c.newline? = some d) ∨
      ∃ first more, c.rest.takeWhile isGlyph = first :: more ∧ c.rest.head? = some first := by
  cases newline : c.newline? with
  | some d => exact .inr (.inl ⟨d, rfl⟩)
  | none =>
    unfold newline? at newline
    split at newline <;> try cases newline
    next not_newline _ not_return =>
    cases hr : c.rest with
    | nil => exact .inl rfl
    | cons x cs =>
      have not_blank : isBlank x = false := h x (by rw [hr]; rfl)
      have glyph : isGlyph x = true := by
        simp only [isGlyph, not_blank, Bool.false_or, Bool.not_eq_true', Bool.or_eq_false_iff,
          beq_eq_false_iff_ne]
        exact ⟨fun hx => not_newline cs (hx ▸ hr), fun hx => not_return cs (hx ▸ hr)⟩
      exact .inr (.inr ⟨x, cs.takeWhile isGlyph, List.takeWhile_cons_of_pos glyph, rfl⟩)

/-- There is always a row, be it an empty one. -/
theorem exists_rows_eq_cons (c : Cursor) : ∃ row below, c.rows = row :: below := by
  unfold rows rowsFrom
  rw [linesFrom_eq]
  exact ⟨_, _, rfl⟩

end Cursor

/-- The rows after the end of a row, if it is not the last. -/
def nextRow? : List Row → Option (List Row)
  | [] :: next :: more => some (next :: more)
  | _ => none

/-- Empties a row that starts like a comment. -/
def uncomment : List Row → List Row
  | row :: below => (if isCommentRow row then [] else row) :: below
  | [] => []

/-- Passes over the rows that hold at most a comment, but not over the last row. -/
def settle : List Row → List Row
  | row :: next :: more => if isIdle row then settle (next :: more) else row :: next :: more
  | rows => rows

/-- The first character tells whether a token starts like a comment. -/
theorem isComment_ofList (first : Char) (more : List Char) (n : Nat) :
    Token.isComment ⟨String.ofList (first :: more), n⟩ = (first == '#') := by
  simp [Token.isComment]

namespace Cursor

/-- A newline can be read exactly where a row is at its end and another one follows. -/
theorem newline?_rows {c : Cursor} (h : c.Settled) : c.newline?.map rows = nextRow? c.rows := by
  rcases h.cases with end_of_text | ⟨d, newline⟩ | ⟨first, more, run, head⟩
  · rw [rows_of_rest_eq_nil end_of_text, newline?, end_of_text]
    rfl
  · obtain ⟨row, below, hd⟩ := d.exists_rows_eq_cons
    rw [newline, rows_newline? newline, Option.map_some, hd]
    rfl
  · obtain ⟨row, below, hc, -⟩ := rows_of_run run
    rw [hc]
    cases newline : c.newline? with
    | none => rfl
    | some d => exact absurd (hc.symm.trans (rows_newline? newline)) (by simp)

/-- Passing over a comment empties the row. -/
theorem rows_skipComment {c : Cursor} (h : c.Settled) : c.skipComment.rows = uncomment c.rows := by
  unfold skipComment
  split
  · next more hr =>
    have run : c.rest.takeWhile isGlyph = '#' :: more.takeWhile isGlyph := by
      rw [hr]
      rfl
    obtain ⟨row, below, hc, -⟩ := rows_of_run run
    obtain ⟨below', before, after⟩ := c.rows_passOver isInLine fun _ h => h
    have nothing : (c.passOver isInLine).rest.takeWhile isInLine = [] := by
      rw [← List.head?_eq_none_iff, List.head?_takeWhile, Option.filter_eq_none_iff]
      intro x hx
      have stop := List.head?_dropWhile_not isInLine c.rest
      rw [show (c.rest.dropWhile isInLine).head? = some x from hx] at stop
      simp [stop]
    rw [after, nothing, hc, uncomment, if_pos]
    · rw [hc] at before
      rw [(List.cons.inj before).2]
      rfl
    · exact isComment_ofList '#' _ _
  · next no_comment =>
    rcases h.cases with end_of_text | ⟨d, newline⟩ | ⟨first, more, run, head⟩
    · rw [rows_of_rest_eq_nil end_of_text]
      rfl
    · rw [rows_newline? newline]
      rfl
    · obtain ⟨row, below, hc, -⟩ := rows_of_run run
      have other : (first == '#') = false := by
        rw [beq_eq_false_iff_ne]
        rintro rfl
        obtain ⟨cs, hr⟩ := List.head?_eq_some_iff.1 head
        exact no_comment cs hr
      rw [hc, uncomment, if_neg]
      rw [isCommentRow, List.head?_cons, Option.any_some, isComment_ofList, other]
      exact Bool.false_ne_true

theorem settled_skipComment {c : Cursor} (h : c.Settled) : c.skipComment.Settled := by
  unfold skipComment
  split
  · intro x hx
    have stop := List.head?_dropWhile_not isInLine c.rest
    rw [show (c.rest.dropWhile isInLine).head? = some x from hx] at stop
    cases blank : isBlank x with
    | false => rfl
    | true => exact absurd stop (by simp [isInLine_of_isBlank blank])
  · exact h

/-- A line can be passed over if it holds at most a comment and is not the last. -/
theorem emptyLine?_rows (c : Cursor) : c.emptyLine?.map rows = nextRow? (uncomment c.rows) := by
  unfold emptyLine?
  rw [newline?_rows (settled_skipComment c.settled_skipBlanks),
    rows_skipComment c.settled_skipBlanks, rows_skipBlanks]

end Cursor

/-- What follows some rows, or tokens, is found at their number. -/
theorem getElem?_append_length {α : Type} (before : List α) (x : α) (after : List α) :
    (before ++ x :: after)[before.length]? = some x := by
  rw [List.getElem?_append_right (Nat.le_refl _), Nat.sub_self]
  rfl

/-! ## Rows that do not count -/

/-- A line that is blank or starts with `#`, blanks apart, is an idle row. -/
theorem isIdle_tokensOf {line : List Char}
    (h : ∀ c, (line.dropWhile isBlank).head? = some c → c = '#') (n : Nat) :
    isIdle (tokensOf n line) = true := by
  have unblanked : tokensOf n line = tokensOf n (line.dropWhile isBlank) := by
    rw [← tokensOf_blanks (fun c hc => List.all_eq_true.1 List.all_takeWhile c hc) n
      (line.dropWhile isBlank), List.takeWhile_append_dropWhile]
  rw [unblanked]
  cases rest : line.dropWhile isBlank with
  | nil => rfl
  | cons c cs =>
    obtain rfl : c = '#' := h c (by rw [rest]; rfl)
    have run : ('#' :: cs).takeWhile (!isBlank ·) = '#' :: cs.takeWhile (!isBlank ·) := rfl
    have glyphs : ∀ c ∈ '#' :: cs.takeWhile (!isBlank ·), isBlank c = false := fun c hc => by
      have kept := List.all_eq_true.1 (List.all_takeWhile (p := (!isBlank ·)) (l := '#' :: cs)) c
        (run ▸ hc)
      simpa using kept
    have stops : ∀ c, (('#' :: cs).dropWhile (!isBlank ·)).head? = some c → isBlank c = true :=
      fun c hc => by
        have stop := List.head?_dropWhile_not (!isBlank ·) ('#' :: cs)
        rw [hc] at stop
        simpa using stop
    rw [← List.takeWhile_append_dropWhile (p := (!isBlank ·)) (l := '#' :: cs), run,
      tokensOf_run (List.cons_ne_nil _ _) glyphs stops]
    exact isComment_ofList '#' _ n

/-- A row that holds at most a comment can be passed over, unless it is the last. -/
theorem nextRow?_uncomment (row next : Row) (more : List Row) :
    nextRow? (uncomment (row :: next :: more)) =
      if isIdle row then some (next :: more) else none := by
  cases row with
  | nil => rfl
  | cons t row =>
    show nextRow? ((if t.isComment then [] else t :: row) :: next :: more) =
      if t.isComment then some (next :: more) else none
    cases t.isComment <;> rfl

theorem nextRow?_uncomment_last (last : Row) : nextRow? (uncomment [last]) = none := by
  show nextRow? [if isCommentRow last then [] else last] = none
  cases (if isCommentRow last then [] else last) <;> rfl

theorem settle_of_nextRow? {rows rest : List Row} (h : nextRow? (uncomment rows) = some rest) :
    settle rows = settle rest := by
  match rows with
  | [] => cases h
  | [last] => rw [nextRow?_uncomment_last] at h; cases h
  | row :: next :: more =>
    rw [nextRow?_uncomment] at h
    split at h
    · next idle =>
      cases h
      rw [settle, if_pos idle]
    · cases h

theorem settle_of_nextRow?_eq_none {rows : List Row} (h : nextRow? (uncomment rows) = none) :
    settle rows = rows := by
  match rows with
  | [] => rfl
  | [last] => rfl
  | row :: next :: more =>
    rw [nextRow?_uncomment] at h
    split at h
    · cases h
    · next busy => rw [settle, if_neg busy]

/-- The lines that are passed over are those that do not count, but never the last one. -/
theorem Cursor.rows_skipEmptyLines (c : Cursor) : c.skipEmptyLines.rows = settle c.rows := by
  fun_induction skipEmptyLines c with
  | case1 c d h ih =>
    have next := c.emptyLine?_rows
    rw [h, Option.map_some] at next
    rw [ih, settle_of_nextRow? next.symm]
  | case2 c h =>
    have next := c.emptyLine?_rows
    rw [h, Option.map_none] at next
    rw [settle_of_nextRow?_eq_none next.symm]

/-! ## Rows that count -/

/-- Rows that were passed over do not count. -/
theorem significant_settle (before : Nat) (rows : List Row) :
    significant before (settle rows) = significant before rows := by
  fun_induction settle rows with
  | case1 row next more idle ih => rw [ih, significant, if_pos idle]
  | case2 row next more busy => rfl
  | case3 rows short => rfl

/-- The row that is arrived at counts, unless it is the last. -/
theorem not_isIdle_of_settle {rows : List Row} {row next : Row} {more : List Row}
    (h : settle rows = row :: next :: more) : isIdle row = false := by
  fun_induction settle rows with
  | case1 row' next' more' idle ih => exact ih h
  | case2 row' next' more' busy =>
    cases h
    simpa using busy
  | case3 rows short => exact absurd h (short row next more)

/-- A row that holds more than a comment counts wherever it stands. -/
theorem significant_cons {row : Row} (busy : isIdle row = false) (before : Nat)
    (below : List Row) :
    significant before (row :: below) = row :: significant (before + 1) below := by
  have parts := busy
  rw [isIdle, Bool.or_eq_false_iff] at parts
  cases below with
  | nil =>
    simp only [significant, parts.1, parts.2, Bool.false_and, Bool.or_self, Bool.false_eq_true,
      if_false]
  | cons next more => rw [significant, busy]; rfl

/-- Beyond five rows it does not matter how many there were. -/
theorem significant_of_le {before : Nat} (h : 5 ≤ before) (rows : List Row) :
    significant before rows = significant 5 rows := by
  induction rows generalizing before with
  | nil => rfl
  | cons row below ih =>
    cases below with
    | nil => simp [significant, h]
    | cons next more =>
      unfold significant
      rw [ih h, ih (Nat.le_succ_of_le h), ih (Nat.le_succ 5)]

/-- After the header nothing counts exactly where every row holds at most a comment. -/
theorem significant_eq_nil_iff (rows : List Row) :
    significant 5 rows = [] ↔ rows.all isIdle = true := by
  induction rows with
  | nil => exact ⟨fun _ => rfl, fun _ => rfl⟩
  | cons row below ih =>
    cases idle : isIdle row with
    | false => rw [significant_cons idle, List.all_cons, idle]; simp
    | true =>
      rw [List.all_cons, idle, Bool.true_and, ← ih]
      cases below with
      | nil =>
        have last : (row.isEmpty || (isCommentRow row && 5 ≤ 5)) = true := by
          rw [← idle, isIdle, decide_eq_true (Nat.le_refl 5), Bool.and_true]
        rw [significant.eq_2, if_pos last]
        rfl
      | cons next more => rw [significant, if_pos idle]

/-- There is always a row to arrive at. -/
theorem exists_settle_eq_cons (next : Row) (more : List Row) :
    ∃ row below, settle (next :: more) = row :: below := by
  induction more generalizing next with
  | nil => exact ⟨next, [], rfl⟩
  | cons next' more ih =>
    unfold settle
    split
    · exact ih next'
    · exact ⟨next, next' :: more, rfl⟩

/-- After the header, the row that is arrived at is the next that counts, or else there is none. -/
theorem significant_of_settle {rows : List Row} {row : Row} {below : List Row}
    (h : settle rows = row :: below) :
    (isIdle row = true ∧ significant 5 rows = []) ∨
      (isIdle row = false ∧ significant 5 rows = row :: significant 5 below) := by
  rw [← significant_settle, h]
  cases idle : isIdle row with
  | false => exact .inr ⟨rfl, by rw [significant_cons idle, significant_of_le (Nat.le_succ 5)]⟩
  | true =>
    refine .inl ⟨rfl, ?_⟩
    cases below with
    | nil => rw [significant_eq_nil_iff, List.all_cons, idle]; rfl
    | cons next more => exact absurd (not_isIdle_of_settle h) (by simp [idle])

end Pushdown.Definition
