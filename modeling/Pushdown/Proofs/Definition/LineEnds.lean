import Mathlib.Data.List.Forall2
import Pushdown.Proofs.Definition.LineFormat

/-!
# Line ends

The lines of a definition may end in `\r\n` as well as in `\n`. A text without `\r` and the same
text with a `\r` before every `\n` (`withReturns`) are read in lockstep: after every step the two
readers are at the same place (`Cursor.Twin`), have found the same tokens on the same lines, and
have failed to find the same things at the same places (`Reading.Twin`).

> `Layout.definition_twin`: so the two texts have the same tokens on the same lines, or neither
> follows the format, and the failures of the two readings are at the same places, one by one;
> `load_withReturns`: they load the same automaton, are refused for the same fault, or are reported
> at the same line and column with the same thing expected there.

No position between `\r` and `\n` is ever a place of a reader. The line that a report shows may end
in the picture of a `\r` in one text only.
-/

namespace Pushdown.Definition

/-! ## Related options -/

section
variable {α β : Type} {same : α → β → Prop} {x : Option α} {y : Option β}

theorem exists_of_rel (h : Option.Rel same x y) {a : α} (found : x = some a) :
    ∃ b, y = some b ∧ same a b := by
  cases h with
  | some related =>
    cases found
    exact ⟨_, rfl, related⟩
  | none => cases found

theorem eq_none_of_rel (h : Option.Rel same x y) (missing : x = none) : y = none := by
  cases h with
  | some => cases missing
  | none => rfl

theorem rel_map (h : Option.Rel same x y) {γ δ : Type} {same' : γ → δ → Prop} {f : α → γ}
    {g : β → δ} (keeps : ∀ a b, same a b → same' (f a) (g b)) : Option.Rel same' (x.map f) (y.map g) := by
  cases h with
  | some related => exact .some (keeps _ _ related)
  | none => exact .none

end

/-! ## Lines that end in two characters -/

/-- A text with a `\r` before every `\n`. -/
def withReturns (cs : List Char) : List Char :=
  cs.flatMap fun x => if x = '\n' then ['\r', '\n'] else [x]

@[simp] theorem withReturns_nil : withReturns [] = [] := rfl

@[simp] theorem withReturns_newline (cs : List Char) :
    withReturns ('\n' :: cs) = '\r' :: '\n' :: withReturns cs := rfl

theorem withReturns_cons {x : Char} (h : x ≠ '\n') (cs : List Char) :
    withReturns (x :: cs) = x :: withReturns cs := by
  simp [withReturns, h]

theorem withReturns_append (before rest : List Char) :
    withReturns (before ++ rest) = withReturns before ++ withReturns rest :=
  List.flatMap_append

theorem withReturns_eq_nil_iff {cs : List Char} : withReturns cs = [] ↔ cs = [] := by
  cases cs with
  | nil => simp
  | cons x cs => by_cases h : x = '\n' <;> simp [h, withReturns_cons]

section
variable {kind : Char → Bool} (in_line : ∀ x, kind x = true → isInLine x = true)
include in_line

/-- A run of characters on a line is the same in both texts. -/
theorem takeWhile_withReturns (cs : List Char) :
    (withReturns cs).takeWhile kind = cs.takeWhile kind := by
  induction cs with
  | nil => rfl
  | cons x cs ih =>
    by_cases newline : x = '\n'
    · subst newline
      have stops (y : Char) (h : isInLine y = false) : kind y = false :=
        Bool.eq_false_iff.2 fun h' => absurd ((in_line y h').symm.trans h) (by decide)
      rw [withReturns_newline, List.takeWhile_cons_of_neg (by simp [stops '\r' rfl]),
        List.takeWhile_cons_of_neg (by simp [stops '\n' rfl])]
    · rw [withReturns_cons newline, List.takeWhile_cons, List.takeWhile_cons, ih]

theorem withReturns_takeWhile (cs : List Char) :
    withReturns (cs.takeWhile kind) = cs.takeWhile kind := by
  have none : '\n' ∉ cs.takeWhile kind := fun mem =>
    absurd (in_line _ (List.all_eq_true.1 List.all_takeWhile _ mem)) (by decide)
  generalize cs.takeWhile kind = run at none
  induction run with
  | nil => rfl
  | cons x run ih =>
    have ⟨first, more⟩ := List.ne_and_not_mem_of_not_mem_cons none
    rw [withReturns_cons first.symm, ih more]

/-- What follows a run of characters on a line in one text follows it in the other. -/
theorem dropWhile_withReturns (cs : List Char) :
    (withReturns cs).dropWhile kind = withReturns (cs.dropWhile kind) := by
  have whole := withReturns_append (cs.takeWhile kind) (cs.dropWhile kind)
  rw [List.takeWhile_append_dropWhile, withReturns_takeWhile in_line,
    ← takeWhile_withReturns in_line] at whole
  exact List.append_cancel_left (List.takeWhile_append_dropWhile.trans whole)

end

/-! ## Places -/

/-- Two cursors at the same place of a text and of the text with returns. -/
structure Cursor.Twin (text : List Char) (c d : Cursor) : Prop where
  place : ∃ before, text = before ++ c.rest ∧ c.offset = before.length ∧
    d.offset = (withReturns before).length
  rest_eq : d.rest = withReturns c.rest
  line_eq : d.line = c.line

/-- Two failures to find the same thing at the same place of a text and of the text with returns. -/
structure Failure.Twin (text : List Char) (f g : Failure) : Prop where
  place : ∃ before rest, text = before ++ rest ∧ f.offset = before.length ∧
    g.offset = (withReturns before).length
  expected_eq : g.expected = f.expected

/-- Readings of a text and of the text with returns that found what is said to be the same, and
failed at the same places. -/
structure Reading.Twin {α β : Type} (text : List Char) (same : α → β → Prop) (r : Reading α)
    (s : Reading β) : Prop where
  result : Option.Rel same r.result s.result
  failures : List.Forall₂ (Failure.Twin text) r.failures s.failures

/-- The same was found, up to the same place. -/
def FoundTwins {α : Type} (text : List Char) (x y : α × Cursor) : Prop :=
  x.1 = y.1 ∧ x.2.Twin text y.2

variable {text : List Char} {c d : Cursor}

theorem Cursor.Twin.failure (h : c.Twin text d) (expected : Expected) :
    Failure.Twin text ⟨c.offset, expected⟩ ⟨d.offset, expected⟩ :=
  have ⟨before, whole, offset, offset'⟩ := h.place
  ⟨⟨before, c.rest, whole, offset, offset'⟩, rfl⟩

namespace Reading.Twin

variable {α β γ δ : Type} {P : α → β → Prop} {Q : γ → δ → Prop}

theorem found {a : α} {b : β} (h : P a b) : (Reading.found a).Twin text P (Reading.found b) :=
  ⟨.some h, .nil⟩

theorem failed (h : c.Twin text d) (expected : Expected) :
    (Reading.failed c expected).Twin text P (Reading.failed d expected) :=
  ⟨.none, .cons (h.failure expected) .nil⟩

theorem bind {r : Reading α} {s : Reading β} (h : r.Twin text P s) {next : α → Reading γ}
    {next' : β → Reading δ} (go_on : ∀ a b, P a b → (next a).Twin text Q (next' b)) :
    (r >>= next).Twin text Q (s >>= next') := by
  show (andThen r next).Twin text Q (andThen s next')
  obtain ⟨result, failures⟩ := h
  obtain ⟨found, noted⟩ := r
  obtain ⟨found', noted'⟩ := s
  cases result with
  | none => exact ⟨.none, failures⟩
  | some related =>
    have later := go_on _ _ related
    exact ⟨later.result, List.rel_append failures later.failures⟩

end Reading.Twin

/-! ## Steps of a reader -/

namespace Cursor.Twin

theorem start (text : List Char) : (Cursor.start text).Twin text (.start (withReturns text)) :=
  ⟨⟨[], rfl, rfl, rfl⟩, rfl, rfl⟩

/-- Passing over a run of characters, with returns in one text. -/
theorem advance (h : c.Twin text d) {run : List Char} {c' d' : Cursor}
    (rest : c.rest = run ++ c'.rest) (rest' : d'.rest = withReturns c'.rest)
    (offset : c'.offset = c.offset + run.length)
    (offset' : d'.offset = d.offset + (withReturns run).length) (line : d'.line = c'.line) :
    c'.Twin text d' := by
  obtain ⟨before, whole, place, place'⟩ := h.place
  refine ⟨⟨before ++ run, ?_, ?_, ?_⟩, rest', line⟩
  · rw [whole, rest, List.append_assoc]
  · rw [offset, place, List.length_append]
  · rw [offset', place', withReturns_append, List.length_append]

theorem passOver (h : c.Twin text d) {kind : Char → Bool}
    (in_line : ∀ x, kind x = true → isInLine x = true) :
    (c.passOver kind).Twin text (d.passOver kind) := by
  have split : c.rest = c.rest.takeWhile kind ++ (c.passOver kind).rest :=
    List.takeWhile_append_dropWhile.symm
  have after : (d.passOver kind).rest = withReturns (c.passOver kind).rest :=
    (congrArg _ h.rest_eq).trans (dropWhile_withReturns in_line c.rest)
  have passed : (d.passOver kind).offset =
      d.offset + (withReturns (c.rest.takeWhile kind)).length := by
    rw [withReturns_takeWhile in_line, ← takeWhile_withReturns in_line, ← h.rest_eq]
    rfl
  exact h.advance split after rfl passed h.line_eq

theorem skipBlanks (h : c.Twin text d) : c.skipBlanks.Twin text d.skipBlanks :=
  h.passOver fun _ => isInLine_of_isBlank

theorem skipComment (h : c.Twin text d) : c.skipComment.Twin text d.skipComment := by
  have moved := h.passOver fun _ (inside : isInLine _ = true) => inside
  have rest_eq := h.rest_eq
  unfold Cursor.skipComment
  split
  · next more start =>
    rw [start, withReturns_cons (by decide)] at rest_eq
    rw [rest_eq]
    exact moved
  · next other =>
    split
    · next more start =>
      -- Only `#` itself is written as a `#`.
      cases rest : c.rest with
      | nil => simp [rest, rest_eq] at start
      | cons x cs =>
        by_cases newline : x = '\n'
        · simp [rest, rest_eq, newline] at start
        · simp only [rest, rest_eq, withReturns_cons newline, List.cons.injEq] at start
          exact absurd (start.1 ▸ rest) (other cs)
    · exact h

/-- A newline of the one text is a newline of the other, and both are passed over whole. -/
theorem newline? (plain : '\r' ∉ text) (h : c.Twin text d) :
    Option.Rel (Cursor.Twin text) c.newline? d.newline? := by
  obtain ⟨before, whole, -, -⟩ := h.place
  have rest_eq := h.rest_eq
  unfold Cursor.newline?
  cases rest : c.rest with
  | nil =>
    rw [rest, withReturns_nil] at rest_eq
    rw [rest_eq]
    exact .none
  | cons x cs =>
    by_cases newline : x = '\n'
    · subst newline
      rw [rest, withReturns_newline] at rest_eq
      rw [rest_eq]
      have split : c.rest = ['\n'] ++ cs := rest
      exact .some (h.advance split rfl rfl rfl (congrArg (· + 1) h.line_eq))
    · have no_return : x ≠ '\r' := by
        rintro rfl
        exact plain (whole ▸ List.mem_append_right _ (rest ▸ List.mem_cons_self ..))
      rw [rest, withReturns_cons newline] at rest_eq
      rw [rest_eq]
      simp [newline, no_return]

theorem emptyLine? (plain : '\r' ∉ text) (h : c.Twin text d) :
    Option.Rel (Cursor.Twin text) c.emptyLine? d.emptyLine? :=
  h.skipBlanks.skipComment.newline? plain

theorem skipEmptyLines (plain : '\r' ∉ text) (h : c.Twin text d) :
    c.skipEmptyLines.Twin text d.skipEmptyLines := by
  fun_induction Cursor.skipEmptyLines c generalizing d with
  | case1 c next empty ih =>
    obtain ⟨next', empty', twin⟩ := exists_of_rel (h.emptyLine? plain) empty
    rw [Cursor.skipEmptyLines.eq_def d, empty']
    exact ih twin
  | case2 c busy =>
    rw [Cursor.skipEmptyLines.eq_def d, eq_none_of_rel (h.emptyLine? plain) busy]
    exact h

end Cursor.Twin

/-! ## Readers of parts of the format -/

namespace Layout

theorem token?_twin (h : c.Twin text d) (expected : Expected) :
    Option.Rel (FoundTwins text) (token? expected c) (token? expected d) := by
  have glyphs : d.rest.takeWhile isGlyph = c.rest.takeWhile isGlyph := by
    rw [h.rest_eq, takeWhile_withReturns fun _ => isInLine_of_isGlyph]
  unfold token?
  rw [glyphs, h.line_eq]
  split
  · exact .none
  · split
    · exact .some ⟨rfl, h.passOver fun _ => isInLine_of_isGlyph⟩
    · exact .none

theorem token_twin (h : c.Twin text d) (expected : Expected) :
    (token expected c).Twin text (FoundTwins text) (token expected d) := by
  have first := token?_twin h.skipBlanks expected
  unfold token
  generalize token? expected c.skipBlanks = x, token? expected d.skipBlanks = y at first
  cases first with
  | some same => exact .found same
  | none => exact .failed h.skipBlanks expected

theorem moreTokens_twin (h : c.Twin text d) (expected : Expected) (before : List Token) :
    (moreTokens expected before c).Twin text (FoundTwins text)
      (moreTokens expected before d) := by
  fun_induction moreTokens expected before c generalizing d with
  | case1 before c t next found ih =>
    obtain ⟨⟨t', next'⟩, found', same, twin⟩ :=
      exists_of_rel (token?_twin h.skipBlanks expected) found
    obtain rfl : t = t' := same
    rw [moreTokens.eq_def expected before d, found']
    exact ih twin
  | case2 before c none =>
    rw [moreTokens.eq_def expected before d,
      eq_none_of_rel (token?_twin h.skipBlanks expected) none]
    exact ⟨.some ⟨rfl, h⟩, .cons (h.skipBlanks.failure expected) .nil⟩

theorem tokens_twin (h : c.Twin text d) (expected : Expected) :
    (tokens expected c).Twin text (FoundTwins text) (tokens expected d) := by
  refine (token_twin h expected).bind ?_
  rintro ⟨t, c⟩ ⟨_, d⟩ ⟨rfl, h⟩
  exact moreTokens_twin h expected [t]

theorem separator_twin (plain : '\r' ∉ text) (h : c.Twin text d) :
    (separator c).Twin text (Cursor.Twin text) (separator d) := by
  have line := h.skipBlanks.newline? plain
  unfold separator
  generalize c.skipBlanks.newline? = x, d.skipBlanks.newline? = y at line
  cases line with
  | some twin => exact .found (twin.skipEmptyLines plain)
  | none => exact ⟨.none, .nil⟩

theorem transitionLine_twin (plain : '\r' ∉ text) (h : c.Twin text d) :
    (transitionLine c).Twin text (FoundTwins text) (transitionLine d) := by
  refine (separator_twin plain h).bind ?_
  intro c d h
  refine (token_twin h .name).bind ?_
  rintro ⟨source, c⟩ ⟨_, d⟩ ⟨rfl, h⟩
  refine (token_twin h .symbol).bind ?_
  rintro ⟨input, c⟩ ⟨_, d⟩ ⟨rfl, h⟩
  refine (token_twin h .symbol).bind ?_
  rintro ⟨top, c⟩ ⟨_, d⟩ ⟨rfl, h⟩
  refine (token_twin h .name).bind ?_
  rintro ⟨target, c⟩ ⟨_, d⟩ ⟨rfl, h⟩
  refine (token_twin h .push).bind ?_
  rintro ⟨push, c⟩ ⟨_, d⟩ ⟨rfl, h⟩
  exact .found ⟨rfl, h.skipBlanks.skipComment⟩

theorem transitionLines_twin (plain : '\r' ∉ text) (h : c.Twin text d) :
    (transitionLines c).Twin text (FoundTwins text) (transitionLines d) := by
  fun_induction transitionLines c generalizing d with
  | case1 c failures line =>
    obtain ⟨missing, noted⟩ := transitionLine_twin plain h
    cases line' : transitionLine d with
    | mk result failures' =>
      rw [line, line'] at missing noted
      cases missing
      rw [transitionLines.eq_def d, line']
      exact ⟨.some ⟨rfl, h⟩, noted⟩
  | case2 c l next failures line others =>
    rename_i ih
    obtain ⟨read, noted⟩ := transitionLine_twin plain h
    cases line' : transitionLine d with
    | mk result failures' =>
      rw [line, line'] at read noted
      cases read with
      | @some _ found same =>
        obtain ⟨l', next'⟩ := found
        obtain ⟨rfl, twin⟩ := same
        obtain ⟨others_read, others_noted⟩ := ih twin
        rw [transitionLines.eq_def d, line']
        refine ⟨rel_map others_read fun x y same => ?_, List.rel_append noted others_noted⟩
        exact ⟨congrArg (l :: ·) same.1, same.2⟩

theorem trailer_twin (plain : '\r' ∉ text) (h : c.Twin text d) :
    (trailer c).Twin text (trailer d) := by
  fun_induction trailer c generalizing d with
  | case1 c next ends ih =>
    obtain ⟨next', ends', twin⟩ := exists_of_rel (h.skipBlanks.newline? plain) ends
    rw [trailer.eq_def d, ends']
    exact ih twin.skipBlanks.skipComment
  | case2 c goes_on =>
    rw [trailer.eq_def d, eq_none_of_rel (h.skipBlanks.newline? plain) goes_on]
    exact h

theorem endOfInput_twin (h : c.Twin text d) :
    (endOfInput c).Twin text Eq (endOfInput d) := by
  have ends : d.skipBlanks.rest.isEmpty = c.skipBlanks.rest.isEmpty := by
    rw [h.skipBlanks.rest_eq, Bool.eq_iff_iff, List.isEmpty_iff, List.isEmpty_iff,
      withReturns_eq_nil_iff]
  unfold endOfInput
  rw [ends]
  split
  · exact .found rfl
  · exact .failed h.skipBlanks .endOfInput

/-- **Lockstep.** A text and the text with returns have the same tokens on the same lines, or
neither follows the format, and the two readings failed at the same places. -/
theorem definition_twin (plain : '\r' ∉ text) :
    (definition (.start text)).Twin text Eq (definition (.start (withReturns text))) := by
  refine (tokens_twin ((Cursor.Twin.start text).skipEmptyLines plain) .name).bind ?_
  rintro ⟨states, c⟩ ⟨_, d⟩ ⟨rfl, h⟩
  refine (separator_twin plain h).bind ?_
  intro c d h
  refine (tokens_twin h .symbol).bind ?_
  rintro ⟨inputSymbols, c⟩ ⟨_, d⟩ ⟨rfl, h⟩
  refine (separator_twin plain h).bind ?_
  intro c d h
  refine (tokens_twin h .symbol).bind ?_
  rintro ⟨stackSymbols, c⟩ ⟨_, d⟩ ⟨rfl, h⟩
  refine (separator_twin plain h).bind ?_
  intro c d h
  refine (token_twin h .name).bind ?_
  rintro ⟨initialState, c⟩ ⟨_, d⟩ ⟨rfl, h⟩
  refine (separator_twin plain h).bind ?_
  intro c d h
  refine (token_twin h .symbol).bind ?_
  rintro ⟨initialSymbol, c⟩ ⟨_, d⟩ ⟨rfl, h⟩
  refine (transitionLines_twin plain h).bind ?_
  rintro ⟨transitions, c⟩ ⟨_, d⟩ ⟨rfl, h⟩
  refine (endOfInput_twin (trailer_twin plain h)).bind ?_
  rintro _ _ rfl
  exact .found rfl

end Layout

/-! ## Reports -/

namespace Failure

/-- Of two places of a text the farther one is the farther one in the text with returns. -/
theorem Twin.lt_iff {f f' g g' : Failure} (h : f.Twin text g) (h' : f'.Twin text g') :
    f.offset < f'.offset ↔ g.offset < g'.offset := by
  obtain ⟨before, rest, whole, place, place'⟩ := h.place
  obtain ⟨front, back, whole', there, there'⟩ := h'.place
  rw [place, place', there, there']
  rcases List.append_eq_append_iff.1 (whole.symm.trans whole') with ⟨run, rfl, -⟩ | ⟨run, rfl, -⟩
  · rw [withReturns_append, List.length_append, List.length_append, Nat.lt_add_right_iff_pos,
      Nat.lt_add_right_iff_pos, List.length_pos_iff, List.length_pos_iff, Ne, Ne,
      withReturns_eq_nil_iff]
  · rw [withReturns_append, List.length_append, List.length_append]
    omega

theorem Twin.farther {f f' g g' : Failure} (h : f.Twin text g) (h' : f'.Twin text g') :
    (f.farther f').Twin text (g.farther g') := by
  unfold Failure.farther
  by_cases beyond : f.offset < f'.offset
  · rw [if_pos beyond, if_pos ((h.lt_iff h').1 beyond)]
    exact h'
  · rw [if_neg beyond, if_neg (mt (h.lt_iff h').2 beyond)]
    exact h

/-- The farthest of the failures of the two readings are at the same place. -/
theorem farthest_twin {failures failures' : List Failure}
    (h : List.Forall₂ (Failure.Twin text) failures failures') :
    Option.Rel (Failure.Twin text) (farthest failures) (farthest failures') := by
  cases h with
  | nil => exact .none
  | @cons f g others others' first more =>
    refine .some ?_
    -- The farthest so far is at the same place after any number of failures.
    show Failure.Twin text (others.foldl farther f) (others'.foldl farther g)
    induction more generalizing f g with
    | nil => exact first
    | cons next _ ih => exact ih (first.farther next)

end Failure

namespace Report

theorem lineAfter_withReturns (before : List Char) :
    lineAfter (withReturns before) = lineAfter before := by
  unfold lineAfter
  induction before with
  | nil => rfl
  | cons x before ih =>
    by_cases newline : x = '\n'
    · subst newline
      simpa using ih
    · rw [withReturns_cons newline, List.count_cons, List.count_cons]
      omega

/-- What stands before a place on its line is the same in both texts. -/
theorem headAfter_withReturns (before : List Char) :
    headAfter (withReturns before) = headAfter before := by
  refine congrArg List.reverse ?_
  -- From the end of the text: a return stands behind its newline.
  rw [withReturns, List.reverse_flatMap]
  induction before.reverse with
  | nil => rfl
  | cons x back ih =>
    rw [List.flatMap_cons]
    by_cases newline : x = '\n'
    · subst newline
      rfl
    · simp [newline, ih]

/-- Two reports of the same thing expected at the same place. -/
structure AtSamePlace (r s : Report) : Prop where
  line_eq : r.line = s.line
  column_eq : r.column = s.column
  expected_eq : r.expected = s.expected

theorem ofFailure_twin {f g : Failure} (h : f.Twin text g) :
    (ofFailure text f).AtSamePlace (ofFailure (withReturns text) g) := by
  obtain ⟨before, rest, rfl, place, place'⟩ := h.place
  have front : (before ++ rest).take f.offset = before := by
    rw [place, List.take_left]
  have front' : (withReturns (before ++ rest)).take g.offset = withReturns before := by
    rw [place', withReturns_append, List.take_left]
  refine ⟨?_, ?_, h.expected_eq.symm⟩
  · show lineAfter _ = lineAfter _
    rw [front, front', lineAfter_withReturns]
  · show (headAfter _).length + 1 = (headAfter _).length + 1
    rw [front, front', headAfter_withReturns]

end Report

/-! ## Loading -/

theorem utf8ByteSize_le_withReturns (cs : List Char) :
    (String.ofList cs).utf8ByteSize ≤ (String.ofList (withReturns cs)).utf8ByteSize := by
  induction cs with
  | nil => exact Nat.le_refl _
  | cons x cs ih =>
    have text_cons (y : Char) (more : List Char) : (String.ofList (y :: more)).utf8ByteSize =
        (String.singleton y).utf8ByteSize + (String.ofList more).utf8ByteSize := by
      rw [← String.utf8ByteSize_append]
      exact congrArg _ (String.toList_inj.1 (by simp))
    by_cases newline : x = '\n'
    · subst newline
      rw [withReturns_newline, text_cons, text_cons, text_cons]
      omega
    · rw [withReturns_cons newline, text_cons, text_cons]
      omega

/-- Two outcomes of loading that differ at most in the line that a report shows. -/
inductive AlikeButForSource : Except Error Automaton → Except Error Automaton → Prop where
  | loaded (a : Automaton) : AlikeButForSource (.ok a) (.ok a)
  | refused (fault : DefinitionFault) :
    AlikeButForSource (.error (.definition fault)) (.error (.definition fault))
  | reported {r s : Report} (same : r.AtSamePlace s) :
    AlikeButForSource (.error (.layout r)) (.error (.layout s))

/-- The two texts are the same tokens, or are reported at the same place. -/
theorem Layout.read_withReturns {text : String} (plain : '\r' ∉ text.toList) :
    (∃ l, read text = .ok l ∧ read (String.ofList (withReturns text.toList)) = .ok l) ∨
      ∃ r s, read text = .error r ∧
        read (String.ofList (withReturns text.toList)) = .error s ∧ r.AtSamePlace s := by
  obtain ⟨result, failures⟩ := definition_twin plain
  have farthest := Failure.farthest_twin failures
  unfold read
  dsimp only
  rw [String.toList_ofList]
  generalize (definition (.start text.toList)).result = x,
    (definition (.start (withReturns text.toList))).result = y at result
  cases result with
  | some same =>
    cases same
    exact .inl ⟨_, rfl, rfl⟩
  | none =>
    refine .inr ⟨_, _, rfl, rfl, Report.ofFailure_twin ?_⟩
    generalize Failure.farthest (definition (.start text.toList)).failures = x,
      Failure.farthest (definition (.start (withReturns text.toList))).failures = y at farthest
    cases farthest with
    | some twin => exact twin
    | none => exact (Cursor.Twin.start text.toList).failure .endOfInput

/-- **Line ends.** A text without `\r` and the same text with a `\r` before every `\n` are loaded as
the same automaton, are refused for the same fault, or are reported at the same place. -/
theorem load_withReturns {text : String} (plain : '\r' ∉ text.toList)
    (small : (String.ofList (withReturns text.toList)).utf8ByteSize ≤ sizeLimit) :
    AlikeButForSource (load text) (load (String.ofList (withReturns text.toList))) := by
  have small' : text.utf8ByteSize ≤ sizeLimit := by
    have grows := utf8ByteSize_le_withReturns text.toList
    rw [String.ofList_toList] at grows
    exact Nat.le_trans grows small
  rcases Layout.read_withReturns plain with ⟨l, read, read'⟩ | ⟨r, s, read, read', same⟩
  · rw [load_of_read_eq_ok small' read, load_of_read_eq_ok small read']
    cases l.build with
    | ok a => exact .loaded a
    | error fault => exact .refused fault
  · rw [load_of_read_eq_error small' read, load_of_read_eq_error small read']
    exact .reported same

/-- A definition whose transition pushes nothing. -/
def withoutPush : String := "q\na\nZ # bottom\n\nq\n# comment\nZ\nq a Z q\n"

theorem load_withReturns_withoutPush :
    '\r' ∉ withoutPush.toList ∧
      (String.ofList (withReturns withoutPush.toList)).utf8ByteSize ≤ sizeLimit ∧
      AlikeButForSource (load withoutPush)
        (load (String.ofList (withReturns withoutPush.toList))) := by
  have plain : '\r' ∉ withoutPush.toList := by decide
  have small : (String.ofList (withReturns withoutPush.toList)).utf8ByteSize ≤ sizeLimit := by
    decide
  exact ⟨plain, small, load_withReturns plain small⟩

end Pushdown.Definition
