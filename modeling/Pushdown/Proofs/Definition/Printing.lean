import Pushdown.Proofs.Definition.LineFormat

/-!
# Printing rows

Rows can be printed, one space between tokens and one newline between rows (`textOf`). Where all
tokens are words, which a blank or a line end would divide, the rows of that text are those that
were printed:

> `rowsFrom_textOf`: a text is taken apart where it was put together;
> `read_textOf`: a layout whose rows start like no comment is read back from their text, if its
> tokens tell the lines they are then on.

Conversely all tokens that are read are words (`Layout.isWord_of_read`), so nothing that was read
once is lost by printing it.
-/

namespace Pushdown.Definition

/-! ## Words -/

/-- Whether a text can be a token: there is something of it, without blanks and line ends. -/
def IsWord (text : String) : Prop := text ≠ "" ∧ ∀ c ∈ text.toList, isGlyph c = true

theorem isBlank_of_isGlyph {c : Char} (h : isGlyph c = true) : isBlank c = false := by
  simp only [isGlyph, Bool.not_eq_true', Bool.or_eq_false_iff] at h
  exact h.1.1

/-- Whatever stands on a line and is no blank belongs to a token. -/
theorem isGlyph_of_isInLine {c : Char} (h : isInLine c = true) (not_blank : isBlank c = false) :
    isGlyph c = true := by
  cases glyph : isGlyph c with
  | true => rfl
  | false => exact absurd ((isBlank_of_not_isGlyph glyph h).symm.trans not_blank) (by decide)

theorem isWord_singleton {s : Symbol} : IsWord (String.singleton s) ↔ isGlyph s = true := by
  have nonempty : String.singleton s ≠ "" := by
    rw [Ne, ← String.toList_inj, String.toList_singleton]
    exact List.cons_ne_nil _ _
  rw [IsWord, and_iff_right nonempty, String.toList_singleton, List.forall_mem_singleton]

/-! ## Printed rows -/

/-- The line that shows a row. -/
def lineOf (row : Row) : String := " ".intercalate (row.map Token.text)

/-- The text that shows rows. -/
def textOf (rows : List Row) : String := "\n".intercalate (rows.map lineOf)

/-- Whether the tokens of rows tell the lines of the rows, the first of which is `n`. -/
def Numbered (n : Nat) : List Row → Prop
  | [] => True
  | row :: below => (∀ t ∈ row, t.line = n) ∧ Numbered (n + 1) below

theorem lineOf_singleton (t : Token) : lineOf [t] = t.text := String.intercalate_singleton

theorem toList_lineOf_cons (t u : Token) (row : Row) :
    (lineOf (t :: u :: row)).toList = t.text.toList ++ ' ' :: (lineOf (u :: row)).toList := by
  unfold lineOf
  rw [List.map_cons, List.map_cons, String.intercalate_cons_cons, String.toList_append,
    String.toList_append, List.append_assoc]
  rfl

theorem toList_textOf_cons (row next : Row) (more : List Row) :
    (textOf (row :: next :: more)).toList =
      (lineOf row).toList ++ '\n' :: (textOf (next :: more)).toList := by
  unfold textOf
  rw [List.map_cons, List.map_cons, String.intercalate_cons_cons, String.toList_append,
    String.toList_append, List.append_assoc]
  rfl

/-- No line end is printed within a row of words. -/
theorem isInLine_of_mem_lineOf {row : Row} (words : ∀ t ∈ row, IsWord t.text) :
    ∀ c ∈ (lineOf row).toList, isInLine c = true := by
  induction row with
  | nil => exact fun c hc => absurd hc List.not_mem_nil
  | cons t row ih =>
    obtain ⟨word, words⟩ := List.forall_mem_cons.1 words
    have in_token : ∀ c ∈ t.text.toList, isInLine c = true := fun c hc =>
      isInLine_of_isGlyph (word.2 c hc)
    cases row with
    | nil =>
      rw [lineOf_singleton]
      exact in_token
    | cons u row =>
      rw [toList_lineOf_cons, List.forall_mem_append, List.forall_mem_cons]
      exact ⟨in_token, rfl, ih words⟩

/-- A line is taken apart into the tokens that it shows. -/
theorem tokensOf_lineOf {n : Nat} {row : Row} (words : ∀ t ∈ row, IsWord t.text)
    (numbered : ∀ t ∈ row, t.line = n) : tokensOf n (lineOf row).toList = row := by
  induction row with
  | nil => rfl
  | cons t row ih =>
    obtain ⟨⟨nonempty, glyphs⟩, words⟩ := List.forall_mem_cons.1 words
    obtain ⟨here, numbered⟩ := List.forall_mem_cons.1 numbered
    have run : t.text.toList ≠ [] := by
      rw [Ne, String.toList_eq_nil_iff]
      exact nonempty
    have not_blank : ∀ c ∈ t.text.toList, isBlank c = false := fun c hc =>
      isBlank_of_isGlyph (glyphs c hc)
    have token : (⟨String.ofList t.text.toList, n⟩ : Token) = t := by
      rw [String.ofList_toList, ← here]
    cases row with
    | nil =>
      have alone : tokensOf n (t.text.toList ++ []) = _ :=
        tokensOf_run run not_blank (fun c hc => by cases hc) n
      rw [List.append_nil, token] at alone
      rw [lineOf_singleton]
      exact alone
    | cons u row =>
      have space : ∀ c ∈ [' '], isBlank c = true := List.forall_mem_singleton.2 rfl
      have stops : ∀ c, (' ' :: (lineOf (u :: row)).toList).head? = some c → isBlank c = true := by
        intro c hc
        cases hc
        rfl
      rw [toList_lineOf_cons, tokensOf_run run not_blank stops, token]
      show t :: tokensOf n ([' '] ++ (lineOf (u :: row)).toList) = t :: u :: row
      rw [tokensOf_blanks space, ih words numbered]

/-- A text is taken apart into the rows that it shows. -/
theorem rowsFrom_textOf {n : Nat} {row : Row} {below : List Row}
    (words : ∀ r ∈ row :: below, ∀ t ∈ r, IsWord t.text) (numbered : Numbered n (row :: below)) :
    rowsFrom n (textOf (row :: below)).toList = row :: below := by
  induction below generalizing n row with
  | nil =>
    have in_line := isInLine_of_mem_lineOf (words row (List.mem_cons_self ..))
    have whole : textOf [row] = lineOf row := String.intercalate_singleton
    have line := linesFrom_append in_line n []
    rw [List.append_nil] at line
    rw [rowsFrom, whole, line]
    show [tokensOf n ((lineOf row).toList ++ [])] = [row]
    rw [List.append_nil, tokensOf_lineOf (words row (List.mem_cons_self ..)) numbered.1]
  | cons next more ih =>
    obtain ⟨words_here, words⟩ := List.forall_mem_cons.1 words
    obtain ⟨here, numbered⟩ := numbered
    rw [rowsFrom, toList_textOf_cons, linesFrom_append (isInLine_of_mem_lineOf words_here)]
    show tokensOf n ((lineOf row).toList ++ []) :: rowsFrom (n + 1) _ = _
    rw [List.append_nil, tokensOf_lineOf words_here here, ih words numbered]

/-! ## Layouts that are read back -/

/-- Rows that hold more than comments all count. -/
theorem significant_of_forall {rows : List Row} (h : ∀ row ∈ rows, isIdle row = false)
    (before : Nat) : significant before rows = rows := by
  induction rows generalizing before with
  | nil => rfl
  | cons row below ih =>
    obtain ⟨busy, others⟩ := List.forall_mem_cons.1 h
    rw [significant_cons busy, ih others]

/-- The rows of a layout, if they follow the format, are laid out as it. -/
theorem layoutOf?_rows {l : Layout} (h : FollowsFormat l.rows) : layoutOf? l.rows = some l := by
  have all_five : l.transitions.map TransitionLine.row =
      (l.transitions.map TransitionLine.row).map (List.take 5) := by
    rw [List.map_map]
    rfl
  exact layoutOf?_eq_some_iff.2 ⟨h, congrArg (_ ++ ·) all_five⟩

/-- A layout that can be printed: its tokens are words and tell the lines that they will be on, and
no row of symbols starts like a comment. -/
structure Layout.Printable (l : Layout) : Prop where
  follows_format : FollowsFormat l.rows
  words : ∀ row ∈ l.rows, ∀ t ∈ row, IsWord t.text
  numbered : Numbered 1 l.rows
  inputs_shown : isCommentRow l.inputSymbols = false
  stack_shown : isCommentRow l.stackSymbols = false
  initialSymbol_shown : l.initialSymbol.isComment = false

/-- What holds of all rows of a layout. -/
theorem Layout.forall_rows_iff {l : Layout} {P : Row → Prop} :
    (∀ row ∈ l.rows, P row) ↔
      P l.states ∧ P l.inputSymbols ∧ P l.stackSymbols ∧ P [l.initialState] ∧
        P [l.initialSymbol] ∧ ∀ line ∈ l.transitions, P line.row := by
  have nothing : (∀ row ∈ ([] : List Row), P row) ↔ True :=
    iff_of_true (fun row hr => absurd hr List.not_mem_nil) trivial
  rw [rows, List.forall_mem_append, List.forall_mem_map]
  simp only [List.forall_mem_cons, nothing, and_true, and_assoc]

theorem isIdle_eq_false {row : Row} (nonempty : row ≠ []) (shown : isCommentRow row = false) :
    isIdle row = false := by
  rw [isIdle, shown, Bool.or_false, List.isEmpty_eq_false_iff]
  exact nonempty

/-- All rows of a layout that can be printed count. -/
theorem Layout.Printable.isIdle_eq_false {l : Layout} (h : l.Printable) :
    ∀ row ∈ l.rows, isIdle row = false := by
  obtain ⟨⟨states, names⟩, inputs, stack, state, shapes⟩ := h.follows_format
  refine forall_rows_iff.2 ⟨Definition.isIdle_eq_false states ?_,
    Definition.isIdle_eq_false inputs h.inputs_shown,
    Definition.isIdle_eq_false stack h.stack_shown, state, h.initialSymbol_shown, fun line hl => ?_⟩
  · cases first : l.states with
    | nil => exact absurd first states
    | cons t ts => exact names t (first ▸ List.mem_cons_self ..)
  · exact (shapes line.row (List.mem_map_of_mem hl)).1

/-- **What is printed is read.** -/
theorem Layout.read_textOf {l : Layout} (h : l.Printable) :
    Layout.read (textOf l.rows) = .ok l := by
  have rows : rowsFrom 1 (textOf l.rows).toList = l.rows := rowsFrom_textOf h.words h.numbered
  rw [read_eq_ok_iff, significantRows, rows, significant_of_forall h.isIdle_eq_false]
  exact layoutOf?_rows h.follows_format

/-! ## Tokens that were read -/

theorem mem_of_mem_significant {before : Nat} {rows : List Row} {row : Row}
    (h : row ∈ significant before rows) : row ∈ rows := by
  fun_induction significant before rows with
  | case1 => exact h
  | case2 => cases h
  | case3 => exact h
  | case4 before row' next more idle ih => exact List.mem_cons_of_mem _ (ih h)
  | case5 before row' next more busy ih =>
    rcases List.mem_cons.1 h with rfl | later
    · exact List.mem_cons_self ..
    · exact List.mem_cons_of_mem _ (ih later)

/-- What is split at some elements consists of others. -/
theorem mem_of_mem_splitOnP {α : Type} {p : α → Bool} {xs run : List α}
    (h : run ∈ xs.splitOnP p) : ∀ x ∈ run, x ∈ xs ∧ p x = false := by
  induction xs generalizing run with
  | nil =>
    rw [List.splitOnP_nil, List.mem_singleton] at h
    subst h
    exact fun x hx => absurd hx List.not_mem_nil
  | cons y ys ih =>
    have later {run : List α} (h : run ∈ ys.splitOnP p) (x : α) (hx : x ∈ run) :
        x ∈ y :: ys ∧ p x = false :=
      ⟨List.mem_cons_of_mem _ (ih h x hx).1, (ih h x hx).2⟩
    rw [List.splitOnP_cons_eq_if_modifyHead] at h
    split at h
    · rcases List.mem_cons.1 h with rfl | h
      · exact fun x hx => absurd hx List.not_mem_nil
      · exact later h
    · next kept =>
      cases split : ys.splitOnP p with
      | nil => exact absurd split (List.splitOnP_ne_nil p ys)
      | cons first others =>
        rw [split, List.modifyHead_cons] at h
        rcases List.mem_cons.1 h with rfl | h
        · refine List.forall_mem_cons.2 ⟨⟨List.mem_cons_self .., by simpa using kept⟩, ?_⟩
          exact later (split ▸ List.mem_cons_self ..)
        · exact later (split ▸ List.mem_cons_of_mem _ h)

/-- No line holds a line end. -/
theorem isInLine_of_mem_linesFrom {n : Nat} {cs : List Char} {line : Nat × List Char}
    (h : line ∈ linesFrom n cs) : ∀ c ∈ line.2, isInLine c = true := by
  have nothing (n : Nat) (c : Char) (hc : c ∈ (n, ([] : List Char)).2) : isInLine c = true :=
    absurd hc List.not_mem_nil
  fun_induction linesFrom n cs generalizing line with
  | case1 n =>
    cases List.mem_singleton.1 h
    exact nothing n
  | case2 n cs ih | case3 n cs ih =>
    rcases List.mem_cons.1 h with rfl | h
    · exact nothing n
    · exact ih h
  | case4 n cs not_newline ih =>
    rcases List.mem_cons.1 h with rfl | h
    · exact nothing n
    · exact ih h
  | case5 n c cs not_newline not_both not_return ih =>
    rw [linesFrom_eq] at h ih
    rcases List.mem_cons.1 h with rfl | h
    · have in_line : isInLine c = true := by
        simp only [isInLine, Bool.not_eq_true', Bool.or_eq_false_iff, beq_eq_false_iff_ne]
        exact ⟨not_newline, not_return⟩
      exact List.forall_mem_cons.2 ⟨in_line, ih (List.mem_cons_self ..)⟩
    · exact ih (List.mem_cons_of_mem _ h)

/-- The tokens of a line are words. -/
theorem isWord_of_mem_tokensOf {n : Nat} {line : List Char}
    (in_line : ∀ c ∈ line, isInLine c = true) {t : Token} (h : t ∈ tokensOf n line) :
    IsWord t.text := by
  obtain ⟨run, hr, rfl⟩ := List.mem_map.1 h
  obtain ⟨split, nonempty⟩ := List.mem_filter.1 hr
  refine ⟨?_, fun c hc => ?_⟩
  · rw [Ne, ← String.toList_eq_nil_iff, String.toList_ofList, ← List.isEmpty_iff]
    simpa using nonempty
  · rw [String.toList_ofList] at hc
    obtain ⟨on_line, not_blank⟩ := mem_of_mem_splitOnP split c hc
    exact isGlyph_of_isInLine (in_line c on_line) not_blank

/-- The tokens of a text are words. -/
theorem isWord_of_mem_significantRows {text : String} {row : Row} (h : row ∈ significantRows text) :
    ∀ t ∈ row, IsWord t.text := by
  obtain ⟨line, on_text, rfl⟩ := List.mem_map.1 (mem_of_mem_significant h)
  exact fun t ht => isWord_of_mem_tokensOf (isInLine_of_mem_linesFrom on_text) ht

/-- All tokens of a layout that was read are words. -/
theorem Layout.isWord_of_read {text : String} {l : Layout} (h : Layout.read text = .ok l) :
    ∀ row ∈ l.rows, ∀ t ∈ row, IsWord t.text := by
  obtain ⟨-, tokens⟩ := layoutOf?_eq_some_iff.1 (read_eq_ok_iff.1 h)
  rw [tokens, List.forall_mem_append]
  constructor
  · intro row hr
    exact isWord_of_mem_significantRows (List.mem_of_mem_take hr)
  · intro row hr t ht
    obtain ⟨whole, hw, rfl⟩ := List.mem_map.1 hr
    exact isWord_of_mem_significantRows (List.mem_of_mem_drop hw) t (List.mem_of_mem_take ht)

/-- No state of a layout that was read is named like a comment. -/
theorem Layout.isComment_of_read {text : String} {l : Layout} (h : Layout.read text = .ok l) :
    ∀ t ∈ l.states, t.isComment = false := by
  obtain ⟨format, tokens⟩ := layoutOf?_eq_some_iff.1 (read_eq_ok_iff.1 h)
  match significantRows text, format, tokens with
  | states :: _ :: _ :: [_] :: [_] :: _, ⟨⟨_, names⟩, _⟩, tokens =>
    have same : l.states = states := (List.cons.inj tokens).1
    rw [same]
    exact names

end Pushdown.Definition
