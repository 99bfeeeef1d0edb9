import Pushdown.Proofs.Definition.Printing

/-!
# Places of the line format

The line format row by row, and token by token. A row that counts has a place, the number of rows
that count above it, and its place tells what the row has to be (`FitsAt`):

> `followsFormat_iff`: rows follow the format exactly where there are five and each fits its place.

Within a row the place and the number of tokens before tell what may come next (`awaited`). A row
that fits has what is awaited (`FitsAt.accepts`), and tokens that were awaited (`Begins`) can
always be continued:

> `exists_completion`: whatever follows the format up to some place in a row, and has there a token
> that is awaited, is the beginning of rows that follow the format.
-/

namespace Pushdown.Definition

/-! ## Rows at their places -/

/-- Whether a row may stand below so many rows that count. -/
def FitsAt : Nat → Row → Prop
  | 0, row => row ≠ [] ∧ ∀ t ∈ row, t.isComment = false
  | 1, row => row ≠ []
  | 2, row => row ≠ []
  | 3, row => ∃ t, row = [t] ∧ t.isComment = false
  | 4, row => ∃ t, row = [t]
  | _ + 5, row => IsTransitionRow row

/-- Whether all rows may stand one below the other, the first at a given place. -/
def FitFrom (place : Nat) : List Row → Prop
  | [] => True
  | row :: below => FitsAt place row ∧ FitFrom (place + 1) below

theorem fitFrom_append {place : Nat} {rows below : List Row} :
    FitFrom place (rows ++ below) ↔ FitFrom place rows ∧ FitFrom (place + rows.length) below := by
  induction rows generalizing place with
  | nil => exact iff_of_eq (true_and _).symm
  | cons row rows ih =>
    rw [List.cons_append, FitFrom, FitFrom, ih, and_assoc, List.length_cons, Nat.add_assoc,
      Nat.add_comm 1]

/-- Below the header every row is a transition. -/
theorem fitFrom_iff_of_le {place : Nat} (h : 5 ≤ place) {rows : List Row} :
    FitFrom place rows ↔ ∀ row ∈ rows, IsTransitionRow row := by
  induction rows generalizing place with
  | nil => exact iff_of_true trivial fun _ hr => absurd hr List.not_mem_nil
  | cons row rows ih =>
    obtain ⟨n, rfl⟩ := Nat.exists_eq_add_of_le' h
    rw [FitFrom, ih (Nat.le_succ_of_le h), List.forall_mem_cons]
    rfl

/-- Rows follow the format exactly where there are five and each fits its place. -/
theorem followsFormat_iff {rows : List Row} :
    FollowsFormat rows ↔ 5 ≤ rows.length ∧ FitFrom 0 rows := by
  match rows with
  | [] | [_] | [_, _] | [_, _, _] | [_, _, _, _] => simp [FollowsFormat]
  | states :: inputs :: stack :: state :: symbol :: transitions =>
    have enough : 5 ≤ (states :: inputs :: stack :: state :: symbol :: transitions).length := by
      simp
    have below : FitFrom 5 transitions ↔ ∀ row ∈ transitions, IsTransitionRow row :=
      fitFrom_iff_of_le (Nat.le_refl 5)
    rw [and_iff_right enough]
    constructor
    · intro h
      match state, symbol, h with
      | [state], [symbol], ⟨names, inputs, stack, initial, shapes⟩ =>
        exact ⟨names, inputs, stack, ⟨state, rfl, initial⟩, ⟨symbol, rfl⟩, below.2 shapes⟩
    · intro h
      obtain ⟨names, inputs, stack, ⟨_, rfl, initial⟩, ⟨_, rfl⟩, shapes⟩ := h
      exact ⟨names, inputs, stack, initial, below.1 shapes⟩

/-- A row that fits is not empty. -/
theorem FitsAt.ne_nil {place : Nat} {row : Row} (h : FitsAt place row) : row ≠ [] := by
  rintro rfl
  match place, h with
  | 0, h => exact h.1 rfl
  | 1, h => exact h rfl
  | 2, h => exact h rfl
  | 3, ⟨_, h, _⟩ => cases h
  | 4, ⟨_, h⟩ => cases h

/-- Below the header a row that fits holds more than a comment. -/
theorem FitsAt.isIdle_of_le {place : Nat} (le : 5 ≤ place) {row : Row} (h : FitsAt place row) :
    isIdle row = false := by
  obtain ⟨n, rfl⟩ := Nat.exists_eq_add_of_le' le
  match row, h with
  | source :: _ :: _ :: _ :: _ :: _, ⟨name, _, _⟩ => exact name

/-- A row that fits counts even as the last. -/
theorem FitsAt.significant_singleton {place : Nat} {row : Row} (h : FitsAt place row) :
    significant place [row] = [row] := by
  by_cases le : 5 ≤ place
  · rw [significant_cons (h.isIdle_of_le le)]
    rfl
  · have nonempty : row.isEmpty = false := List.isEmpty_eq_false_iff.2 h.ne_nil
    rw [significant, nonempty, decide_eq_false le, Bool.and_false]
    rfl

/-! ## Tokens at their places -/

/-- What the format asks for next in a row, given its place and how many tokens precede. -/
def awaited : Nat → Nat → Option Expected
  | 0, _ => some .name
  | 1, _ => some .symbol
  | 2, _ => some .symbol
  | 3, found => if found = 0 then some .name else none
  | 4, found => if found = 0 then some .symbol else none
  | _ + 5, found => [Expected.name, .symbol, .symbol, .name, .push][found]?

/-- Whether tokens are such that the format can have asked for each in turn. -/
def Begins (place : Nat) (part : Row) : Prop :=
  ∀ i t, part[i]? = some t → ∃ e, awaited place i = some e ∧ accepts e t = true

theorem begins_nil (place : Nat) : Begins place [] := fun _ _ h => by cases h

/-- One more token that was asked for. -/
theorem Begins.concat {place : Nat} {part : Row} (h : Begins place part) {e : Expected}
    (next : awaited place part.length = some e) {t : Token} (fits : accepts e t = true) :
    Begins place (part ++ [t]) := by
  intro i u hu
  rcases Nat.lt_trichotomy i part.length with lt | rfl | gt
  · rw [List.getElem?_append_left lt] at hu
    exact h i u hu
  · rw [List.getElem?_concat_length] at hu
    cases hu
    exact ⟨e, next, fits⟩
  · have beyond : (part ++ [t]).length ≤ i := by
      rw [List.length_append]
      exact gt
    rw [List.getElem?_eq_none beyond] at hu
    cases hu

/-- Only a comment can be refused. -/
theorem accepts_of_isComment (e : Expected) {t : Token} (h : t.isComment = false) :
    accepts e t = true := by
  cases e with
  | name => exact accepts_name_iff.2 h
  | symbol | push | endOfInput => rfl

/-- A row that fits its place has what is awaited there. -/
theorem FitsAt.accepts {place : Nat} {row : Row} (h : FitsAt place row) {i : Nat} {t : Token}
    (ht : row[i]? = some t) {e : Expected} (next : awaited place i = some e) :
    accepts e t = true := by
  match place, h with
  | 0, h =>
    cases next
    exact accepts_name_iff.2 (h.2 t (List.mem_of_getElem? ht))
  | 1, _ | 2, _ =>
    cases next
    rfl
  | 3, ⟨u, same, name⟩ =>
    subst same
    obtain ⟨rfl, rfl⟩ : i = 0 ∧ u = t := by
      cases i with
      | zero => exact ⟨rfl, Option.some.inj ht⟩
      | succ i => cases ht
    exact accepts_of_isComment e name
  | 4, _ =>
    have next : (if i = 0 then some Expected.symbol else none) = some e := next
    split at next
    · cases next
      rfl
    · cases next
  | _ + 5, h =>
    match row, h with
    | source :: _ :: _ :: target :: _ :: _, ⟨source_name, target_name, _⟩ =>
      match i with
      | 0 =>
        cases ht
        exact accepts_of_isComment e source_name
      | 3 =>
        cases ht
        exact accepts_of_isComment e target_name
      | 1 | 2 | 4 =>
        cases next
        rfl
      | _ + 5 => cases next

/-- No more is awaited than a row that fits has, if only so many tokens may stand at its place. -/
theorem FitsAt.awaited_length {place : Nat} (le : 3 ≤ place) {row : Row} (h : FitsAt place row) :
    awaited place row.length = none := by
  match place, h with
  | 3, ⟨_, same, _⟩ => rw [same]; rfl
  | 4, ⟨_, same⟩ => rw [same]; rfl
  | _ + 5, h =>
    match row, h with
    | _ :: _ :: _ :: _ :: _ :: _, _ => rfl

/-- Where something else follows than what is awaited, the row does not fit. -/
theorem not_fitsAt_of_refused {place : Nat} {part row : Row} {e : Expected}
    (next : awaited place part.length = some e) (refused : Row.token? e row = none)
    (short : row = [] → place < 5 → part = []) : ¬ FitsAt place (part ++ row) := by
  intro h
  cases row with
  | nil =>
    rw [List.append_nil] at h
    rcases Nat.lt_or_ge place 5 with lt | le
    · exact h.ne_nil (short rfl lt)
    · rw [h.awaited_length (Nat.le_trans (by decide) le)] at next
      cases next
  | cons t row =>
    have fits := h.accepts (getElem?_append_length part t row) next
    rw [Row.token?_eq_some_iff.2 ⟨rfl, fits⟩] at refused
    cases refused

/-- In the header, tokens that were asked for are a row. -/
theorem Begins.fitsAt_of_lt {place : Nat} (lt : place < 5) {part : Row} (h : Begins place part)
    (nonempty : part ≠ []) : FitsAt place part := by
  have alone (next : awaited place 1 = none) : ∃ t, part = [t] := by
    match part with
    | [] => exact absurd rfl nonempty
    | [t] => exact ⟨t, rfl⟩
    | _ :: u :: _ =>
      obtain ⟨e, asked, -⟩ := h 1 u rfl
      exact absurd (next.symm.trans asked) (by simp)
  match place with
  | 0 =>
    refine ⟨nonempty, fun t ht => ?_⟩
    obtain ⟨i, hi⟩ := List.getElem?_of_mem ht
    obtain ⟨e, asked, fits⟩ := h i t hi
    cases asked
    exact accepts_name_iff.1 fits
  | 1 => exact nonempty
  | 2 => exact nonempty
  | 3 =>
    obtain ⟨t, rfl⟩ := alone rfl
    obtain ⟨e, asked, fits⟩ := h 0 t rfl
    cases asked
    exact ⟨t, rfl, accepts_name_iff.1 fits⟩
  | 4 => exact alone rfl

/-- Below the header, five tokens that were asked for are a row, which may end in a comment. -/
theorem Begins.fitsAt_of_le {place : Nat} (le : 5 ≤ place) {part : Row} (h : Begins place part)
    (five : part.length = 5) {comment : Row} (idle : isIdle comment = true) :
    FitsAt place (part ++ comment) := by
  obtain ⟨n, rfl⟩ := Nat.exists_eq_add_of_le' le
  match part, five with
  | [source, _, _, target, _], _ =>
    obtain ⟨-, ⟨⟩, source_name⟩ := h 0 source rfl
    obtain ⟨-, ⟨⟩, target_name⟩ := h 3 target rfl
    exact ⟨accepts_name_iff.1 source_name, accepts_name_iff.1 target_name, idle⟩

/-- Below the header any token that does not start like a comment may be among the five. -/
theorem Begins.append_of_le {place : Nat} (le : 5 ≤ place) {part filler : Row}
    (h : Begins place part) (plain : ∀ t ∈ filler, t.isComment = false)
    (five : part.length + filler.length ≤ 5) : Begins place (part ++ filler) := by
  intro i t ht
  rcases Nat.lt_or_ge i part.length with lt | ge
  · rw [List.getElem?_append_left lt] at ht
    exact h i t ht
  · rw [List.getElem?_append_right ge] at ht
    have among := List.mem_of_getElem? ht
    have few : i < 5 := by
      have := (List.getElem?_eq_some_iff.1 ht).1
      omega
    obtain ⟨n, rfl⟩ := Nat.exists_eq_add_of_le' le
    obtain ⟨e, next⟩ : ∃ e, awaited (n + 5) i = some e := by
      match i, few with
      | 0, _ | 1, _ | 2, _ | 3, _ | 4, _ => exact ⟨_, rfl⟩
    exact ⟨e, next, accepts_of_isComment e (plain t among)⟩

/-! ## Completions -/

/-- A token that may stand wherever a token may. -/
def plainToken (n : Nat) : Token := ⟨"q", n⟩

theorem isComment_plainToken (n : Nat) : (plainToken n).isComment = false :=
  isComment_ofList 'q' [] n

/-- Rows of one token, on consecutive lines. -/
def plainRows (n : Nat) : Nat → List Row
  | 0 => []
  | count + 1 => [plainToken n] :: plainRows (n + 1) count

theorem numbered_plainRows (n count : Nat) : Numbered n (plainRows n count) := by
  induction count generalizing n with
  | zero => trivial
  | succ count ih => exact ⟨List.forall_mem_singleton.2 rfl, ih (n + 1)⟩

theorem length_plainRows (n count : Nat) : (plainRows n count).length = count := by
  induction count generalizing n with
  | zero => rfl
  | succ count ih => rw [plainRows, List.length_cons, ih]

/-- The tokens of plain rows. -/
theorem eq_of_mem_plainRows {n count : Nat} {row : Row} (h : row ∈ plainRows n count) :
    ∃ m, row = [plainToken m] := by
  induction count generalizing n with
  | zero => cases h
  | succ count ih =>
    rcases List.mem_cons.1 h with rfl | h
    · exact ⟨n, rfl⟩
    · exact ih h

theorem significant_plainRows (before n count : Nat) :
    significant before (plainRows n count) = plainRows n count := by
  refine significant_of_forall (fun row hr => ?_) before
  obtain ⟨m, rfl⟩ := eq_of_mem_plainRows hr
  exact isComment_plainToken m

/-- A plain row fits everywhere in the header. -/
theorem fitFrom_plainRows {place count : Nat} (h : place + count ≤ 5) (n : Nat) :
    FitFrom place (plainRows n count) := by
  induction count generalizing place n with
  | zero => trivial
  | succ count ih =>
    have lt : place < 5 := by omega
    obtain ⟨e, next⟩ : ∃ e, awaited place 0 = some e := by
      match place, lt with
      | 0, _ | 1, _ | 2, _ | 3, _ | 4, _ => exact ⟨_, rfl⟩
    have asked := (begins_nil place).concat next (accepts_of_isComment e (isComment_plainToken n))
    exact ⟨asked.fitsAt_of_lt lt (List.cons_ne_nil _ _), ih (by omega) (n + 1)⟩

/-- Tokens that were asked for can be filled up to a row that fits. -/
theorem Begins.exists_fitsAt {place : Nat} {part : Row} (h : Begins place part)
    (nonempty : part ≠ []) (n : Nat) :
    ∃ filler, (∀ u ∈ filler, u = plainToken n) ∧ FitsAt place (part ++ filler) := by
  rcases Nat.lt_or_ge place 5 with lt | le
  · refine ⟨[], fun u hu => absurd hu List.not_mem_nil, ?_⟩
    rw [List.append_nil]
    exact h.fitsAt_of_lt lt nonempty
  · have few : part.length ≤ 5 := by
      by_contra many
      obtain ⟨e, asked, -⟩ := h 5 _ (List.getElem?_eq_getElem (Nat.not_le.1 many))
      obtain ⟨m, rfl⟩ := Nat.exists_eq_add_of_le' le
      cases asked
    have plain : ∀ u ∈ List.replicate (5 - part.length) (plainToken n), u = plainToken n :=
      fun u hu => List.eq_of_mem_replicate hu
    have length : part.length + (List.replicate (5 - part.length) (plainToken n)).length = 5 := by
      rw [List.length_replicate]
      omega
    have filled := h.append_of_le le (fun u hu => plain u hu ▸ isComment_plainToken n)
      (Nat.le_of_eq length)
    have no_comment : isIdle [] = true := rfl
    have fits := filled.fitsAt_of_le le (List.length_append.trans length) no_comment
    rw [List.append_nil] at fits
    exact ⟨_, plain, fits⟩

/-- **What follows the format so far can be completed.** After rows that fit and tokens that were
asked for, any token that is asked for is the next of a row of rows that follow the format. -/
theorem exists_completion {done : List Row} {part : Row} (fits : FitFrom 0 done)
    (begins : Begins done.length part) {e : Expected}
    (next : awaited done.length part.length = some e) {t : Token} (asked : accepts e t = true) :
    ∃ filler count, (∀ u ∈ filler, u = plainToken t.line) ∧
      FollowsFormat (done ++
        significant done.length ((part ++ t :: filler) :: plainRows (t.line + 1) count)) := by
  have with_token : part ++ [t] ≠ [] := List.append_ne_nil_of_right_ne_nil _ (List.cons_ne_nil _ _)
  obtain ⟨filler, plain, fits_row⟩ := (begins.concat next asked).exists_fitsAt with_token t.line
  rw [List.append_assoc, List.singleton_append] at fits_row
  cases idle : isIdle (part ++ t :: filler) with
  | true =>
    -- The row is passed over as a comment, since it is not the last: others take its place.
    have lt : done.length < 5 := by
      by_contra ge
      rw [fits_row.isIdle_of_le (Nat.not_lt.1 ge)] at idle
      cases idle
    obtain ⟨count, hcount⟩ := Nat.exists_eq_add_of_lt lt
    refine ⟨filler, count + 1, plain, ?_⟩
    rw [plainRows, significant, if_pos idle, ← plainRows, significant_plainRows, followsFormat_iff,
      List.length_append, length_plainRows, fitFrom_append]
    exact ⟨by omega, fits, fitFrom_plainRows (by omega) _⟩
  | false =>
    refine ⟨filler, 4 - done.length, plain, ?_⟩
    rw [significant_cons idle, significant_plainRows, followsFormat_iff, List.length_append,
      List.length_cons, length_plainRows, fitFrom_append, Nat.zero_add]
    refine ⟨by omega, fits, fits_row, ?_⟩
    rcases Nat.lt_or_ge done.length 5 with lt | le
    · exact fitFrom_plainRows (by omega) _
    · rw [Nat.sub_eq_zero_of_le (Nat.le_of_succ_le le)]
      trivial

end Pushdown.Definition
