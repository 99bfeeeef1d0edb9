import Pushdown.Proofs.Definition.Printing

/-!
# Positions among the rows

What stands before a cursor, in rows. A text may be cut wherever no token and no `\r\n` is cut
(`Apart`), and then the last row of the one part and the first of the other are one row:

> `rowsFrom_cut`: the rows of a text, told by the rows of its two parts.

A cursor only stops where a text may be cut. What a step passes over is a piece of text of its own
(`Cursor.Passes`), and its rows say how the rows before the cursor change: the rows that are
complete, and the tokens before it on the row it is on (`At`).

> `At.skipBlanks`, `At.token`, `At.newline`, `At.skipComment`: what the steps of a cursor do to
> the rows before it;
> `At.skipEmptyLines`: no row that counts is passed over;
> `At.rows_eq`: the rows of the text are those before a cursor and those still to be read;
> `At.mono`: of two cursors, the one that is farther has at least as many rows before it.

Lines are numbered by the `\n` before them, so if a `\r` never stands alone a token tells the line
of its row (`Paired.isOnLine`).
-/

namespace Pushdown.Definition

/-! ## Cutting a text -/

/-- Whether a text that consists of two parts may be cut between them. -/
def Apart (front rest : List Char) : Prop :=
  ∀ x y, front.getLast? = some x → rest.head? = some y →
    (isGlyph x = true → isGlyph y = false) ∧ (x = '\r' → y ≠ '\n')

theorem apart_nil (rest : List Char) : Apart [] rest := fun _ _ hx => by cases hx

/-- Nothing is cut at the end of a text. -/
theorem Apart.nil_right (front : List Char) : Apart front [] := fun _ _ _ hy => by cases hy

theorem Apart.of_cons {c : Char} {front rest : List Char} (h : Apart (c :: front) rest) :
    Apart front rest := by
  intro x y hx hy
  refine h x y ?_ hy
  rw [List.getLast?_cons, hx]
  rfl

/-- What is cut off may be cut short. -/
theorem Apart.of_append {front run rest : List Char} (h : Apart front (run ++ rest)) :
    Apart front run := by
  intro x y hx hy
  refine h x y hx ?_
  rw [List.head?_append, hy]
  rfl

theorem Apart.append {front run rest : List Char} (h : Apart front (run ++ rest))
    (h' : Apart run rest) : Apart (front ++ run) rest := by
  intro x y hx hy
  rw [List.getLast?_append] at hx
  cases last : run.getLast? with
  | some z =>
    rw [last] at hx
    exact h' x y (last.trans hx) hy
  | none =>
    rw [List.getLast?_eq_none_iff] at last
    subst last
    exact h x y hx hy

/-- Where a text is cut, the last line of the one part and the first of the other are one line. -/
theorem linesFrom_cut {front rest : List Char} (apart : Apart front rest) (n : Nat) :
    ∃ above last first below,
      linesFrom n front = above ++ [(n + front.count '\n', last)] ∧
      linesFrom (n + front.count '\n') rest = (n + front.count '\n', first) :: below ∧
      linesFrom n (front ++ rest) = above ++ (n + front.count '\n', last ++ first) :: below ∧
      last <:+ front ∧ (above = [] → last = front) := by
  fun_induction linesFrom n front with
  | case1 n => exact ⟨[], [], _, _, rfl, linesFrom_eq n rest, linesFrom_eq n rest, List.suffix_rfl,
      fun _ => rfl⟩
  | case2 n cs ih =>
    obtain ⟨above, last, first, below, front_eq, rest_eq, whole_eq, suffix, -⟩ := ih apart.of_cons
    have count : n + ('\n' :: cs).count '\n' = n + 1 + cs.count '\n' := by
      rw [List.count_cons_self]
      omega
    rw [count]
    refine ⟨(n, []) :: above, last, first, below, ?_, rest_eq, ?_,
      suffix.trans (List.suffix_cons ..), fun h => by cases h⟩
    · rw [front_eq]
      rfl
    · show (n, []) :: linesFrom (n + 1) (cs ++ rest) = _
      rw [whole_eq]
      rfl
  | case3 n cs ih =>
    obtain ⟨above, last, first, below, front_eq, rest_eq, whole_eq, suffix, -⟩ :=
      ih apart.of_cons.of_cons
    have count : n + ('\r' :: '\n' :: cs).count '\n' = n + 1 + cs.count '\n' := by
      rw [List.count_cons_of_ne (by decide), List.count_cons_self]
      omega
    rw [count]
    refine ⟨(n, []) :: above, last, first, below, ?_, rest_eq, ?_,
      suffix.trans ((List.suffix_cons ..).trans (List.suffix_cons ..)), fun h => by cases h⟩
    · rw [front_eq]
      rfl
    · show (n, []) :: linesFrom (n + 1) (cs ++ rest) = _
      rw [whole_eq]
      rfl
  | case4 n cs not_newline ih =>
    obtain ⟨above, last, first, below, front_eq, rest_eq, whole_eq, suffix, -⟩ := ih apart.of_cons
    have count : n + ('\r' :: cs).count '\n' = n + cs.count '\n' := by
      rw [List.count_cons_of_ne (by decide)]
    -- The `\r` does not become half of a `\r\n`, not even at the cut.
    have lone : ∀ more, cs ++ rest = '\n' :: more → False := by
      intro more h
      cases cs with
      | nil => exact (apart '\r' '\n' rfl (by rw [show rest = '\n' :: more from h]; rfl)).2 rfl rfl
      | cons c cs =>
        obtain ⟨rfl, -⟩ := List.cons.inj h
        exact not_newline cs rfl
    rw [count]
    refine ⟨(n, []) :: above, last, first, below, ?_, rest_eq, ?_,
      suffix.trans (List.suffix_cons ..), fun h => by cases h⟩
    · rw [front_eq]
      rfl
    · show linesFrom n ('\r' :: (cs ++ rest)) = _
      rw [linesFrom.eq_4 n _ lone, whole_eq]
      rfl
  | case5 n c cs not_newline not_both not_return ih =>
    obtain ⟨above, last, first, below, front_eq, rest_eq, whole_eq, suffix, only⟩ :=
      ih apart.of_cons
    have count : n + (c :: cs).count '\n' = n + cs.count '\n' := by
      rw [List.count_cons_of_ne fun h => not_newline h]
    have whole : linesFrom n (c :: (cs ++ rest)) =
        (linesFrom n (cs ++ rest)).modifyHead fun line => (line.1, c :: line.2) :=
      linesFrom.eq_5 n c _ not_newline (fun _ h => absurd h not_return) not_return
    rw [count, List.cons_append, whole, front_eq, whole_eq]
    -- The first line grows, be it the last one or not.
    cases above with
    | nil =>
      obtain rfl := only rfl
      have number : n = n + last.count '\n' := by
        rw [linesFrom_eq] at front_eq
        exact congrArg Prod.fst (List.cons.inj front_eq).1
      rw [← number] at rest_eq ⊢
      exact ⟨[], c :: last, first, below, rfl, rest_eq, rfl, List.suffix_rfl, fun _ => rfl⟩
    | cons line above =>
      exact ⟨(line.1, c :: line.2) :: above, last, first, below, rfl, rest_eq, rfl,
        suffix.trans (List.suffix_cons ..), fun h => by cases h⟩

/-- A blank divides the tokens of a line. -/
theorem tokensOf_blank (n : Nat) (front : List Char) {b : Char} (blank : isBlank b = true)
    (rest : List Char) :
    tokensOf n (front ++ b :: rest) = tokensOf n front ++ tokensOf n rest := by
  unfold tokensOf
  rw [List.splitOnP_append_cons front rest blank, List.filter_append, List.map_append]

/-- Two parts of a line have the tokens of the line, if no token is cut. -/
theorem tokensOf_append (n : Nat) {front rest : List Char}
    (apart : ∀ x y, front.getLast? = some x → rest.head? = some y →
      isBlank x = false → isBlank y = true) :
    tokensOf n (front ++ rest) = tokensOf n front ++ tokensOf n rest := by
  rcases List.eq_nil_or_concat front with rfl | ⟨init, x, rfl⟩
  · rfl
  cases rest with
  | nil => rw [List.append_nil]; exact (List.append_nil _).symm
  | cons y rest =>
    rw [List.concat_eq_append] at apart ⊢
    cases blank : isBlank x with
    | true =>
      rw [List.append_assoc, List.singleton_append, tokensOf_blank n init blank,
        tokensOf_blank n init blank []]
      show _ = tokensOf n init ++ [] ++ _
      rw [List.append_nil]
    | false =>
      have blank_after := apart x y List.getLast?_concat rfl blank
      rw [tokensOf_blank n _ blank_after rest,
        ← tokensOf_blanks (List.forall_mem_singleton.2 blank_after) n rest]
      rfl

/-- **The rows of a text that is cut.** The last row of the one part and the first of the other are
one row. -/
theorem rowsFrom_cut {front rest : List Char} (apart : Apart front rest) {n : Nat}
    {above below : List Row} {part row : Row} (front_eq : rowsFrom n front = above ++ [part])
    (rest_eq : rowsFrom (n + front.count '\n') rest = row :: below) :
    rowsFrom n (front ++ rest) = above ++ (part ++ row) :: below := by
  obtain ⟨lines, last, first, more, front_lines, rest_lines, whole_lines, suffix, -⟩ :=
    linesFrom_cut apart n
  have tokens : tokensOf (n + front.count '\n') (last ++ first) =
      tokensOf (n + front.count '\n') last ++ tokensOf (n + front.count '\n') first := by
    refine tokensOf_append _ fun x y hx hy not_blank => ?_
    have in_last : isInLine x = true :=
      isInLine_of_mem_linesFrom (front_lines ▸ List.mem_append_right _ (List.mem_singleton_self _))
        x (List.mem_of_getLast? hx)
    have in_first : isInLine y = true :=
      isInLine_of_mem_linesFrom (rest_lines ▸ List.mem_cons_self ..) y (List.mem_of_head? hy)
    have at_end : front.getLast? = some x := by
      obtain ⟨init, rfl⟩ := suffix
      rw [List.getLast?_append, hx]
      rfl
    have at_start : rest.head? = some y := by
      rw [linesFrom_eq] at rest_lines
      obtain rfl := (Prod.mk.inj (List.cons.inj rest_lines).1).2
      rw [List.head?_takeWhile, Option.filter_eq_some_iff] at hy
      exact hy.1
    have no_glyph := (apart x y at_end at_start).1 (isGlyph_of_isInLine in_last not_blank)
    exact isBlank_of_not_isGlyph no_glyph in_first
  unfold rowsFrom at front_eq rest_eq ⊢
  rw [front_lines, List.map_append] at front_eq
  rw [rest_lines, List.map_cons] at rest_eq
  obtain ⟨rfl, last_eq⟩ := List.append_inj' front_eq rfl
  obtain ⟨rfl, rfl⟩ := List.cons.inj rest_eq
  obtain rfl := (List.cons.inj last_eq).1
  rw [whole_lines, List.map_append, List.map_cons, tokens]

/-! ## What a step passes over -/

namespace Cursor

/-- Whether reading a run of characters leads from one cursor to another, where the text may be
cut after the run. -/
structure Passes (c : Cursor) (run : List Char) (d : Cursor) : Prop where
  rest_eq : c.rest = run ++ d.rest
  offset_eq : d.offset = c.offset + run.length
  line_eq : d.line = c.line + run.count '\n'
  apart : Apart run d.rest

theorem Passes.refl (c : Cursor) : c.Passes [] c := ⟨rfl, rfl, rfl, apart_nil _⟩

theorem Passes.trans {c d e : Cursor} {run more : List Char} (h : c.Passes run d)
    (h' : d.Passes more e) : c.Passes (run ++ more) e where
  rest_eq := by rw [h.rest_eq, h'.rest_eq, List.append_assoc]
  offset_eq := by rw [h'.offset_eq, h.offset_eq, List.length_append, Nat.add_assoc]
  line_eq := by rw [h'.line_eq, h.line_eq, List.count_append, Nat.add_assoc]
  apart := by
    have cut := h.apart
    rw [h'.rest_eq] at cut
    exact cut.append h'.apart

/-- The longest run of characters of one kind may be cut off, if it stands on a line, and what
follows it on the line is no part of its last token. -/
theorem passes_passOver (c : Cursor) {kind : Char → Bool}
    (in_line : ∀ x, kind x = true → isInLine x = true)
    (whole : ∀ x y, kind x = true → kind y = false → isGlyph x = true → isGlyph y = false) :
    c.Passes (c.rest.takeWhile kind) (c.passOver kind) where
  rest_eq := List.takeWhile_append_dropWhile.symm
  offset_eq := rfl
  line_eq := by
    have no_newline : '\n' ∉ c.rest.takeWhile kind := fun mem =>
      absurd (in_line _ (List.all_eq_true.1 List.all_takeWhile _ mem)) (by decide)
    rw [List.count_eq_zero_of_not_mem no_newline]
    rfl
  apart := by
    intro x y hx hy
    have is_kind : kind x = true :=
      List.all_eq_true.1 List.all_takeWhile x (List.mem_of_getLast? hx)
    have stop := List.head?_dropWhile_not kind c.rest
    rw [show (c.rest.dropWhile kind).head? = some y from hy] at stop
    refine ⟨whole x y is_kind stop, ?_⟩
    rintro rfl
    exact absurd (in_line _ is_kind) (by decide)

theorem passes_skipBlanks (c : Cursor) : c.Passes (c.rest.takeWhile isBlank) c.skipBlanks :=
  c.passes_passOver (fun _ => isInLine_of_isBlank) fun _ _ blank _ glyph =>
    absurd (blank.symm.trans (isBlank_of_isGlyph glyph)) (by decide)

theorem passes_glyphs (c : Cursor) : c.Passes (c.rest.takeWhile isGlyph) (c.passOver isGlyph) :=
  c.passes_passOver (fun _ => isInLine_of_isGlyph) fun _ _ _ other _ => other

theorem passes_line (c : Cursor) : c.Passes (c.rest.takeWhile isInLine) (c.passOver isInLine) := by
  refine c.passes_passOver (fun _ h => h) fun _ y _ other _ => ?_
  cases glyph : isGlyph y with
  | false => rfl
  | true => exact absurd ((isInLine_of_isGlyph glyph).symm.trans other) (by decide)

end Cursor

/-! ## The rows before a cursor -/

/-- The rows that count of rows none of which is the last. -/
def counted (rows : List Row) : List Row := rows.filter fun row => !isIdle row

theorem counted_cons {row : Row} (busy : isIdle row = false) (rows : List Row) :
    counted (row :: rows) = row :: counted rows := List.filter_cons_of_pos (by simp [busy])

theorem counted_cons_of_isIdle {row : Row} (idle : isIdle row = true) (rows : List Row) :
    counted (row :: rows) = counted rows := List.filter_cons_of_neg (by simp [idle])

theorem counted_append (above below : List Row) :
    counted (above ++ below) = counted above ++ counted below := List.filter_append ..

/-- The rows of what precedes a cursor in a text: those above it and the tokens before it on its
own. -/
structure At (text : List Char) (c : Cursor) (above : List Row) (part : Row) : Prop where
  passes : (Cursor.start text).Passes (text.take c.offset) c
  before : rowsFrom 1 (text.take c.offset) = above ++ [part]

theorem take_of_passes {text front : List Char} {c : Cursor}
    (h : (Cursor.start text).Passes front c) : text.take c.offset = front := by
  have whole : text = front ++ c.rest := h.rest_eq
  have length : c.offset = 0 + front.length := h.offset_eq
  rw [length, Nat.zero_add, whole, List.take_left']
  rfl

theorem at_start (text : List Char) : At text (.start text) [] [] :=
  ⟨Cursor.Passes.refl _, rfl⟩

namespace At

variable {text : List Char} {c d : Cursor} {above : List Row} {part : Row}

theorem append_rest (h : At text c above part) : text.take c.offset ++ c.rest = text :=
  h.passes.rest_eq.symm

theorem line_eq (h : At text c above part) : c.line = 1 + (text.take c.offset).count '\n' :=
  h.passes.line_eq

theorem offset_le (h : At text c above part) : c.offset ≤ text.length := by
  have length : c.offset = 0 + (text.take c.offset).length := h.passes.offset_eq
  rw [length, Nat.zero_add]
  exact List.length_take_le' ..

/-- The rows of a text are those before a cursor and those still to be read. -/
theorem rows_eq (h : At text c above part) {row : Row} {below : List Row}
    (after : c.rows = row :: below) : rowsFrom 1 text = above ++ (part ++ row) :: below := by
  rw [← h.append_rest]
  refine rowsFrom_cut h.passes.apart h.before ?_
  rw [← h.line_eq]
  exact after

/-- The rows before a cursor are told by its offset. -/
theorem unique (h : At text c above part) {above' : List Row} {part' : Row}
    (h' : At text d above' part') (same : c.offset = d.offset) : above = above' ∧ part = part' := by
  have before := h.before
  rw [same, h'.before] at before
  obtain ⟨rfl, last⟩ := List.append_inj' before rfl
  exact ⟨rfl, (List.cons.inj last).1.symm⟩

/-- The rows of a run that is passed over continue the rows before it. -/
theorem step (h : At text c above part) {run : List Char} (pass : c.Passes run d) {row : Row}
    {below above' : List Row} {part' : Row} (rows : rowsFrom c.line run = row :: below)
    (together : above ++ (part ++ row) :: below = above' ++ [part']) : At text d above' part' := by
  have passes := h.passes.trans pass
  have cut : Apart (text.take c.offset) run := by
    have apart := h.passes.apart
    rw [pass.rest_eq] at apart
    exact apart.of_append
  refine ⟨(take_of_passes passes).symm ▸ passes, ?_⟩
  rw [take_of_passes passes, ← together]
  refine rowsFrom_cut cut h.before ?_
  rw [← h.line_eq]
  exact rows

/-- A run within a line adds its tokens to the row. -/
theorem step_in_line (h : At text c above part) {run : List Char} (pass : c.Passes run d)
    (in_line : ∀ x ∈ run, isInLine x = true) :
    At text d above (part ++ tokensOf c.line run) := by
  have rows : rowsFrom c.line run = [tokensOf c.line run] := by
    have lines := linesFrom_append in_line c.line []
    rw [List.append_nil] at lines
    rw [rowsFrom, lines]
    show [tokensOf c.line (run ++ [])] = _
    rw [List.append_nil]
  exact h.step pass rows rfl

theorem skipBlanks (h : At text c above part) : At text c.skipBlanks above part := by
  have blanks : ∀ x ∈ c.rest.takeWhile isBlank, isBlank x = true :=
    List.all_eq_true.1 List.all_takeWhile
  have none : tokensOf c.line (c.rest.takeWhile isBlank) = [] := by
    have := tokensOf_blanks blanks c.line []
    rw [List.append_nil] at this
    exact this
  have moved := h.step_in_line c.passes_skipBlanks fun x hx => isInLine_of_isBlank (blanks x hx)
  rwa [none, List.append_nil] at moved

/-- A token is one more of its row. -/
theorem token (h : At text c above part) {expected : Expected} {t : Token}
    (found : Layout.token? expected c = some (t, d)) : At text d above (part ++ [t]) := by
  unfold Layout.token? at found
  split at found
  · cases found
  next first more run =>
    split at found
    · cases found
      have glyphs : ∀ x ∈ c.rest.takeWhile isGlyph, isGlyph x = true :=
        List.all_eq_true.1 List.all_takeWhile
      have moved := h.step_in_line c.passes_glyphs fun x hx => isInLine_of_isGlyph (glyphs x hx)
      have tokens : tokensOf c.line (c.rest.takeWhile isGlyph ++ []) = _ :=
        tokensOf_run (run ▸ List.cons_ne_nil _ _) (fun x hx => isBlank_of_isGlyph (glyphs x hx))
          (fun _ hx => by cases hx) c.line
      rw [List.append_nil] at tokens
      rw [tokens, run] at moved
      exact moved
    · cases found

/-- A newline completes its row. -/
theorem newline (h : At text c above part) (next : c.newline? = some d) :
    At text d (above ++ [part]) [] := by
  have step (run : List Char) (pass : c.Passes run d) (rows : rowsFrom c.line run = [[], []]) :
      At text d (above ++ [part]) [] := by
    refine h.step pass rows ?_
    rw [List.append_nil, List.append_assoc]
    rfl
  unfold Cursor.newline? at next
  split at next
  · next rest hr =>
    cases next
    refine step ['\n'] ⟨hr, rfl, rfl, fun x y hx _ => ?_⟩ rfl
    cases hx
    exact ⟨fun glyph => absurd glyph (by decide), fun h => absurd h (by decide)⟩
  · next rest hr =>
    cases next
    refine step ['\r', '\n'] ⟨hr, rfl, rfl, fun x y hx _ => ?_⟩ rfl
    cases hx
    exact ⟨fun glyph => absurd glyph (by decide), fun h => absurd h (by decide)⟩
  · next rest not_newline hr =>
    cases next
    refine step ['\r'] ⟨hr, rfl, rfl, fun x y hx hy => ?_⟩ rfl
    cases hx
    refine ⟨fun glyph => absurd glyph (by decide), fun _ hn => ?_⟩
    subst hn
    obtain ⟨more, hmore⟩ := List.head?_eq_some_iff.1 hy
    exact not_newline more hmore
  · cases next

/-- A comment that is passed over is part of its row. -/
theorem skipComment (h : At text c above part) :
    ∃ comment, At text c.skipComment above (part ++ comment) ∧ isIdle comment = true := by
  unfold Cursor.skipComment
  split
  · next more hr =>
    have in_line : ∀ x ∈ c.rest.takeWhile isInLine, isInLine x = true :=
      List.all_eq_true.1 List.all_takeWhile
    refine ⟨_, h.step_in_line c.passes_line in_line, isIdle_tokensOf (fun x hx => ?_) _⟩
    rw [hr] at hx
    cases hx
    rfl
  · exact ⟨[], by rwa [List.append_nil], rfl⟩

/-- Where a token follows, no comment was passed over, and it is none. -/
theorem comment_eq_nil (h : At text c above part) (settled : c.Settled) {comment : Row}
    (moved : At text c.skipComment above (part ++ comment)) {t : Token} {row : Row}
    {below : List Row} (after : c.skipComment.rows = (t :: row) :: below) :
    comment = [] ∧ t.isComment = false := by
  obtain ⟨row', below', before⟩ := c.exists_rows_eq_cons
  have same := c.rows_skipComment settled
  rw [after, before] at same
  cases shown : isCommentRow row' with
  | true => exact absurd (List.cons.inj same).1 (by simp [shown])
  | false =>
    obtain ⟨rfl, rfl⟩ : row' = t :: row ∧ below' = below := by
      simpa [uncomment, shown] using same.symm
    have rows := (h.rows_eq before).symm.trans (moved.rows_eq after)
    have together := (List.cons.inj (List.append_cancel_left rows)).1
    rw [List.append_assoc] at together
    refine ⟨?_, shown⟩
    have lengths := congrArg List.length (List.append_cancel_left together)
    rw [List.length_append] at lengths
    exact List.eq_nil_of_length_eq_zero (by omega)

/-- No row that counts is passed over from the start of a row. -/
theorem skipEmptyLines (h : At text c above []) :
    ∃ more, At text c.skipEmptyLines (above ++ more) [] ∧ counted more = [] := by
  fun_induction Cursor.skipEmptyLines c generalizing above with
  | case1 c d next ih =>
    obtain ⟨comment, moved, idle⟩ := h.skipBlanks.skipComment
    obtain ⟨more, arrived, none⟩ := ih (moved.newline next)
    refine ⟨comment :: more, ?_, ?_⟩
    · rw [List.nil_append, List.append_assoc] at arrived
      exact arrived
    · rw [counted_cons_of_isIdle idle, none]
  | case2 c none =>
    exact ⟨[], by rwa [List.append_nil], rfl⟩

/-- Of two cursors, the one that is farther is on the same row, or has passed the row of the
other. -/
theorem mono (h : At text c above part) {above' : List Row} {part' : Row}
    (h' : At text d above' part') (le : c.offset ≤ d.offset) :
    above = above' ∨ ∃ row below passed,
      c.rows = row :: below ∧ above' = above ++ (part ++ row) :: passed := by
  -- The text between the cursors is cut off at both of them, if there is any.
  have front_eq : text.take d.offset = text.take c.offset ++ c.rest.take (d.offset - c.offset) := by
    have length : (text.take c.offset).length = c.offset := List.length_take_of_le h.offset_le
    have split : text.take d.offset = (text.take c.offset ++ c.rest).take d.offset := by
      rw [h.append_rest]
    rw [split, List.take_append, length, List.take_of_length_le (by rw [length]; exact le)]
  have rest_eq : c.rest = c.rest.take (d.offset - c.offset) ++ d.rest := by
    have whole := h.append_rest.trans h'.append_rest.symm
    rw [front_eq, List.append_assoc] at whole
    exact List.append_cancel_left whole
  generalize c.rest.take (d.offset - c.offset) = run at front_eq rest_eq
  have cut : Apart run d.rest := by
    intro x y hx hy
    refine h'.passes.apart x y ?_ hy
    rw [front_eq, List.getLast?_append, hx]
    rfl
  have cut_before : Apart (text.take c.offset) run := by
    have apart := h.passes.apart
    rw [rest_eq] at apart
    exact apart.of_append
  obtain ⟨above₀, part₀, run_rows⟩ : ∃ above₀ part₀, rowsFrom c.line run = above₀ ++ [part₀] := by
    obtain ⟨lines, last, -, -, run_lines, -⟩ := linesFrom_cut (Apart.nil_right run) c.line
    exact ⟨_, _, by rw [rowsFrom, run_lines, List.map_append]; rfl⟩
  obtain ⟨row₁, below₁, rest_rows⟩ := d.exists_rows_eq_cons
  have after : c.rows = above₀ ++ (part₀ ++ row₁) :: below₁ := by
    rw [Cursor.rows, rest_eq]
    refine rowsFrom_cut cut run_rows ?_
    rw [← show d.line = c.line + run.count '\n' by
      rw [h'.line_eq, h.line_eq, front_eq, List.count_append, Nat.add_assoc]]
    exact rest_rows
  have before := h'.before
  rw [h.line_eq] at run_rows
  rw [front_eq] at before
  cases above₀ with
  | nil =>
    rw [rowsFrom_cut cut_before h.before run_rows] at before
    exact .inl (List.append_inj' before rfl).1
  | cons row passed =>
    rw [rowsFrom_cut cut_before h.before run_rows] at before
    have together : (above ++ (part ++ row) :: passed) ++ [part₀] = above' ++ [part'] :=
      (List.append_assoc ..).trans before
    exact .inr ⟨row, _, passed, after, (List.append_inj' together rfl).1.symm⟩

end At

/-! ## Rows that count, from a position on -/

/-- Where a row is not the last, it counts if it is not idle. -/
theorem significant_append (before : Nat) (above : List Row) (row : Row) (below : List Row) :
    significant before (above ++ row :: below) =
      counted above ++ significant (before + (counted above).length) (row :: below) := by
  induction above generalizing before with
  | nil => rfl
  | cons first above ih =>
    obtain ⟨next, more, rest⟩ : ∃ next more, above ++ row :: below = next :: more :=
      List.exists_cons_of_ne_nil (by simp)
    cases idle : isIdle first with
    | true =>
      rw [counted_cons_of_isIdle idle, ← ih, List.cons_append, rest, significant, if_pos idle]
    | false =>
      rw [counted_cons idle, List.cons_append, List.cons_append, significant_cons idle, ih,
        List.length_cons, Nat.add_assoc, Nat.add_comm 1]

/-! ## Lines by their numbers -/

/-- Whether a `\n` follows every `\r` of a text. -/
def Paired (text : List Char) : Prop :=
  ∀ front rest, text = front ++ '\r' :: rest → rest.head? = some '\n'

theorem paired_of_not_mem {text : List Char} (h : '\r' ∉ text) : Paired text := by
  intro front rest split
  refine absurd ?_ h
  rw [split]
  exact List.mem_append_right _ (List.mem_cons_self ..)

theorem Paired.of_cons {c : Char} {cs : List Char} (h : Paired (c :: cs)) : Paired cs := by
  intro front rest split
  exact h (c :: front) rest (by rw [split]; rfl)

theorem Paired.of_apart {front rest : List Char} (h : Paired (front ++ rest))
    (apart : Apart front rest) : Paired front := by
  intro init more split
  have newline := h init (more ++ rest) (by rw [split, List.append_assoc]; rfl)
  cases more with
  | nil => exact absurd rfl ((apart '\r' '\n' (by rw [split, List.getLast?_concat]) newline).2 rfl)
  | cons c more => exact newline

/-- Where a `\n` follows every `\r`, every line has a number of its own. -/
theorem Paired.length_rowsFrom {cs : List Char} (h : Paired cs) (n : Nat) :
    (rowsFrom n cs).length = cs.count '\n' + 1 := by
  rw [rowsFrom, List.length_map]
  fun_induction linesFrom n cs with
  | case1 n => rfl
  | case2 n cs ih => rw [List.length_cons, ih h.of_cons, List.count_cons_self]
  | case3 n cs ih =>
    rw [List.length_cons, ih h.of_cons.of_cons, List.count_cons_of_ne (by decide),
      List.count_cons_self]
  | case4 n cs not_newline ih =>
    obtain ⟨more, newline⟩ := List.head?_eq_some_iff.1 (h [] cs rfl)
    exact absurd newline (not_newline more)
  | case5 n c cs not_newline not_both not_return ih =>
    rw [List.length_modifyHead, ih h.of_cons, List.count_cons_of_ne fun h => not_newline h]

/-- Then lines are numbered as they are counted. -/
theorem Paired.number_eq {cs : List Char} (h : Paired cs) {n i : Nat} {line : Nat × List Char}
    (here : (linesFrom n cs)[i]? = some line) : line.1 = n + i := by
  fun_induction linesFrom n cs generalizing i line with
  | case1 n =>
    obtain ⟨rfl, rfl⟩ : i = 0 ∧ (n, []) = line := by
      cases i with
      | zero => exact ⟨rfl, Option.some.inj here⟩
      | succ i => cases here
    rfl
  | case2 n cs ih =>
    cases i with
    | zero => cases here; rfl
    | succ i => rw [ih h.of_cons here]; omega
  | case3 n cs ih =>
    cases i with
    | zero => cases here; rfl
    | succ i => rw [ih h.of_cons.of_cons here]; omega
  | case4 n cs not_newline ih =>
    obtain ⟨more, newline⟩ := List.head?_eq_some_iff.1 (h [] cs rfl)
    exact absurd newline (not_newline more)
  | case5 n c cs not_newline not_both not_return ih =>
    rw [linesFrom_eq, List.modifyHead_cons] at here
    cases i with
    | zero => cases here; rfl
    | succ i => exact ih h.of_cons (by rw [linesFrom_eq]; exact here)

/-- Whether a row stands on a line of a text, counted from one. -/
def IsOnLine (text : List Char) (line : Nat) (row : Row) : Prop :=
  ∃ above below, rowsFrom 1 text = above ++ row :: below ∧ line = above.length + 1

theorem IsOnLine.getElem? {text : List Char} {line : Nat} {row : Row}
    (h : IsOnLine text line row) : (rowsFrom 1 text)[line - 1]? = some row := by
  obtain ⟨above, below, rows, rfl⟩ := h
  rw [rows, Nat.add_sub_cancel]
  exact getElem?_append_length ..

/-- A row stands on the line of its tokens. -/
theorem Paired.isOnLine {cs : List Char} (h : Paired cs) {row : Row}
    (mem : row ∈ rowsFrom 1 cs) {t : Token} (ht : t ∈ row) : IsOnLine cs t.line row := by
  obtain ⟨line, among, rfl⟩ := List.mem_map.1 mem
  obtain ⟨above, below, split⟩ := List.append_of_mem among
  obtain ⟨run, -, rfl⟩ := List.mem_map.1 ht
  have here : (linesFrom 1 cs)[above.length]? = some line := by
    rw [split]
    exact getElem?_append_length ..
  refine ⟨above.map fun line => tokensOf line.1 line.2,
    below.map fun line => tokensOf line.1 line.2, ?_, ?_⟩
  · rw [rowsFrom, split, List.map_append, List.map_cons]
  · rw [List.length_map, Nat.add_comm]
    exact h.number_eq here

/-- The line of a cursor is the number of rows up to its own. -/
theorem At.line_eq_length {text : List Char} {c : Cursor} {above : List Row} {part : Row}
    (h : At text c above part) (paired : Paired text) : c.line = above.length + 1 := by
  have front : Paired (text.take c.offset) := by
    rw [← h.append_rest] at paired
    exact paired.of_apart h.passes.apart
  have count := front.length_rowsFrom 1
  rw [h.before, List.length_append, List.length_singleton] at count
  rw [h.line_eq]
  omega

end Pushdown.Definition
