import Pushdown.Proofs.Definition.Places
import Pushdown.Proofs.Definition.Position

/-!
# Where tokens are demanded

A reader notes each position at which it demands a token, or the end of the text, in vain, be it on
the way to success or not. Two things can be said of every reading of a definition:

> `definition_meets`: a demand is only noted at a position up to which the text follows the format,
> and it is for what the format asks for there (`Demanded`); and if there is no definition, then one
> of the demands was noted on the first row that does not fit its place, or on the last row of the
> text, or, if the text fails where the line of the initial state should end, on the line above
> (`Stuck`).

The last case is there because no demand is noted for the end of a line. On other lines a token is
demanded before it: on a line of several tokens one more of them, on a transition's line and the
line of the initial symbol the end of the text.

Both properties are found reader by reader. `Reading.Meets` says what is known of a reader, given
what was noted before it, and readings in sequence are put together with `Reading.Meets.bind`.
-/

namespace Pushdown.Definition

/-! ## Readings and their failures -/

/-- What is known of a reading that starts after some failures were noted: all failures that it
notes are `noted`; it finds something with `post`; or it finds nothing, and then there is a failure
that is `stuck` among all of them. -/
structure Reading.Meets {α : Type} (noted stuck : Failure → Prop) (log : List Failure)
    (r : Reading α) (post : List Failure → α → Prop) : Prop where
  noted : ∀ f ∈ r.failures, noted f
  found : ∀ a, r.result = some a → post (log ++ r.failures) a
  stuck : r.result = none → ∃ f ∈ log ++ r.failures, stuck f

namespace Reading.Meets

variable {α β : Type} {noted stuck : Failure → Prop} {log : List Failure}

theorem pure {a : α} {post : List Failure → α → Prop} (h : post log a) :
    (Pure.pure a : Reading α).Meets noted stuck log post where
  noted := fun f hf => absurd hf List.not_mem_nil
  found := by
    intro a' same
    cases same
    show post (log ++ []) a
    rwa [List.append_nil]
  stuck := fun h => by cases h

/-- Readings in sequence: what the first one finds is known to the second. -/
theorem bind {r : Reading α} {mid : List Failure → α → Prop} (h : r.Meets noted stuck log mid)
    {next : α → Reading β} {post : List Failure → β → Prop}
    (h' : ∀ log a, mid log a → (next a).Meets noted stuck log post) :
    (r >>= next).Meets noted stuck log post := by
  obtain ⟨result, failures⟩ := r
  cases result with
  | none => exact ⟨h.noted, fun a ha => (by cases ha), fun _ => h.stuck rfl⟩
  | some a =>
    have rest := h' _ a (h.found a rfl)
    have failures_eq : log ++ (failures ++ (next a).failures) =
        log ++ failures ++ (next a).failures := (List.append_assoc ..).symm
    refine ⟨fun f hf => ?_, fun b hb => ?_, fun nothing => ?_⟩
    · rcases List.mem_append.1 hf with before | after
      · exact h.noted f before
      · exact rest.noted f after
    · show post (log ++ (failures ++ (next a).failures)) b
      rw [failures_eq]
      exact rest.found b hb
    · show ∃ f ∈ log ++ (failures ++ (next a).failures), stuck f
      rw [failures_eq]
      exact rest.stuck nothing

/-- What was noted before stays noted. -/
theorem keep {r : Reading α} {post : List Failure → α → Prop} (h : r.Meets noted stuck log post)
    {P : Failure → Prop} (before : ∃ f ∈ log, P f) :
    r.Meets noted stuck log fun log a => (∃ f ∈ log, P f) ∧ post log a where
  noted := h.noted
  found := by
    intro a ha
    obtain ⟨f, hf, holds⟩ := before
    exact ⟨⟨f, List.mem_append_left _ hf, holds⟩, h.found a ha⟩
  stuck := h.stuck

end Reading.Meets

namespace Failure

theorem farther_cases (f g : Failure) :
    (farther f g = f ∨ farther f g = g) ∧ f.offset ≤ (farther f g).offset ∧
      g.offset ≤ (farther f g).offset := by
  unfold farther
  split
  · next lt => exact ⟨.inr rfl, Nat.le_of_lt lt, Nat.le_refl _⟩
  · next le => exact ⟨.inl rfl, Nat.le_refl _, Nat.not_lt.1 le⟩

/-- The farthest of some failures is one of them, and none is farther. -/
theorem foldl_farther (f : Failure) (others : List Failure) :
    others.foldl farther f ∈ f :: others ∧
      ∀ g ∈ f :: others, g.offset ≤ (others.foldl farther f).offset := by
  induction others generalizing f with
  | nil => exact ⟨List.mem_singleton_self f, List.forall_mem_singleton.2 (Nat.le_refl _)⟩
  | cons g others ih =>
    obtain ⟨among, left, right⟩ := farther_cases f g
    obtain ⟨mem, bound⟩ := ih (farther f g)
    obtain ⟨first, rest⟩ := List.forall_mem_cons.1 bound
    constructor
    · rcases List.mem_cons.1 mem with same | later
      · rw [List.foldl_cons, same]
        rcases among with eq | eq
        · rw [eq]
          exact List.mem_cons_self ..
        · rw [eq]
          exact List.mem_cons_of_mem _ (List.mem_cons_self ..)
      · exact List.mem_cons_of_mem _ (List.mem_cons_of_mem _ later)
    · exact List.forall_mem_cons.2 ⟨Nat.le_trans left first,
        List.forall_mem_cons.2 ⟨Nat.le_trans right first, rest⟩⟩

theorem farthest_eq_some {failures : List Failure} {f : Failure}
    (h : farthest failures = some f) : f ∈ failures ∧ ∀ g ∈ failures, g.offset ≤ f.offset := by
  cases failures with
  | nil => cases h
  | cons first others =>
    cases h
    exact foldl_farther first others

theorem exists_farthest {failures : List Failure} {f : Failure} (h : f ∈ failures) :
    ∃ g, farthest failures = some g := by
  cases failures with
  | nil => cases h
  | cons first others => exact ⟨_, rfl⟩

end Failure

/-! ## Positions at which something is demanded -/

/-- Whether the row of a cursor, which starts with given tokens, counts if it is not the last. -/
def Busy (c : Cursor) (part : Row) : Prop :=
  ∀ row next more, c.rows = row :: next :: more → isIdle (part ++ row) = false

/-- Whether a cursor is on a row that counts, or on the last one, and all rows above fit. -/
structure OnTrack (text : List Char) (c : Cursor) (above : List Row) (part : Row) : Prop where
  position : At text c above part
  fits : FitFrom 0 (counted above)
  busy : Busy c part

/-- Whether a cursor is where a definition may end, and not before a comment. -/
structure Closing (text : List Char) (c : Cursor) (above : List Row) (part : Row) : Prop where
  position : At text c above part
  follows : FollowsFormat (counted above ++ significant (counted above).length [part])
  busy : (counted above).length < 5 → Busy c part
  free : 5 ≤ (counted above).length → isIdle part = true → ∀ t row below,
    c.rows = (t :: row) :: below → part = [] ∧ t.isComment = false

/-- Whether a failure is where the format asks for something else than what follows. -/
inductive Demanded (text : List Char) : Failure → Prop
  | token {c : Cursor} {above below : List Row} {part row : Row} {e : Expected}
      (track : OnTrack text c above part) (begins : Begins (counted above).length part)
      (next : awaited (counted above).length part.length = some e)
      (after : c.rows = row :: below) (refused : Row.token? e row = none) :
      Demanded text ⟨c.offset, e⟩
  | endOfInput {c : Cursor} {above below : List Row} {part row : Row} {t : Token}
      (closing : Closing text c above part) (after : c.rows = (t :: row) :: below) :
      Demanded text ⟨c.offset, .endOfInput⟩

/-- Whether a text fails right after the initial state: there is a second token on its line, or the
text ends there. -/
def EndsAtState (text : List Char) : Prop :=
  ∃ header state more below,
    significant 0 (rowsFrom 1 text) = header ++ (state :: more) :: below ∧
      header.length = 3 ∧ FitFrom 0 header ∧ state.isComment = false ∧
      (more ≠ [] ∨ below = [] ∧ (rowsFrom 1 text).getLast? = some [state])

/-- Whether a failure is on the first row that does not fit its place, or on the last row. -/
def Stuck (text : List Char) (f : Failure) : Prop :=
  ∃ c above part row below, f.offset = c.offset ∧ OnTrack text c above part ∧
    c.rows = row :: below ∧
    (below = [] ∨ ¬ FitsAt (counted above).length (part ++ row) ∨
      EndsAtState text ∧ (counted above).length = 2)

section

variable {text : List Char} {c d : Cursor} {above : List Row} {part : Row}

theorem OnTrack.skipBlanks (h : OnTrack text c above part) :
    OnTrack text c.skipBlanks above part where
  position := h.position.skipBlanks
  fits := h.fits
  busy := fun row next more hr => h.busy row next more (c.rows_skipBlanks ▸ hr)

/-- A token starts at a cursor, past blanks, exactly if it is the next of the row. -/
theorem Layout.token?_cases (e : Expected) {row : Row} {below : List Row}
    (after : c.rows = row :: below) :
    (∃ t d rest, token? e c.skipBlanks = some (t, d) ∧ row = t :: rest ∧ accepts e t = true ∧
      d.rows = rest :: below) ∨
    (token? e c.skipBlanks = none ∧ Row.token? e row = none) := by
  have found := token?_rows e c.settled_skipBlanks
  rw [c.rows_skipBlanks, after] at found
  cases taken : token? e c.skipBlanks with
  | none =>
    rw [taken] at found
    exact .inr ⟨rfl, Option.map_eq_none_iff.1 found.symm⟩
  | some found_token =>
    rw [taken] at found
    obtain ⟨t, d⟩ := found_token
    obtain ⟨⟨t', rest⟩, first, same⟩ := Option.map_eq_some_iff.1 found.symm
    obtain ⟨rfl, rows⟩ := Prod.mk.inj same
    obtain ⟨rfl, fits⟩ := Row.token?_eq_some_iff.1 first
    exact .inl ⟨t', d, rest, rfl, rfl, fits, rows.symm⟩

/-- A token that is passed over is one more of the row. -/
theorem OnTrack.token (h : OnTrack text c above part) {e : Expected} {t : Token} {row : Row}
    {below : List Row} (after : c.rows = (t :: row) :: below)
    (taken : Layout.token? e c.skipBlanks = some (t, d)) (rest : d.rows = row :: below) :
    OnTrack text d above (part ++ [t]) := by
  refine ⟨h.position.skipBlanks.token taken, h.fits, fun row' next more hr => ?_⟩
  rw [rest] at hr
  obtain ⟨rfl, rfl⟩ := List.cons.inj hr
  rw [List.append_assoc]
  exact h.busy _ _ _ after

/-- From the end of a row that fits, the end of the line leads to the next place. -/
theorem OnTrack.separator_cases (h : OnTrack text c above part)
    (fits : FitsAt (counted above).length part) :
    (∃ d above', Layout.separator c = .found d ∧ counted above' = counted above ++ [part] ∧
      OnTrack text d above' []) ∨
    (Layout.separator c = .missing ∧ ∀ below, c.rows = [] :: below → below = []) := by
  unfold Layout.separator
  have next := Cursor.newline?_rows c.settled_skipBlanks
  rw [c.rows_skipBlanks] at next
  cases newline : c.skipBlanks.newline? with
  | none =>
    refine .inr ⟨rfl, fun below after => ?_⟩
    rw [newline, after] at next
    cases below with
    | nil => rfl
    | cons row below => cases next
  | some d =>
    obtain ⟨row, below, rest⟩ := d.exists_rows_eq_cons
    have after : c.rows = [] :: row :: below := by
      rw [← c.rows_skipBlanks, Cursor.rows_newline? newline, rest]
    have counts : isIdle part = false := by
      have := h.busy _ _ _ after
      rwa [List.append_nil] at this
    obtain ⟨more, arrived, idle⟩ := (h.position.skipBlanks.newline newline).skipEmptyLines
    have rows : counted (above ++ [part] ++ more) = counted above ++ [part] := by
      rw [counted_append, counted_append, idle, List.append_nil, counted_cons counts]
      rfl
    refine .inl ⟨d.skipEmptyLines, above ++ [part] ++ more, rfl, rows, arrived, ?_, ?_⟩
    · rw [rows, fitFrom_append]
      exact ⟨h.fits, (Nat.zero_add _).symm ▸ fits, trivial⟩
    · intro row next more hr
      rw [Cursor.rows_skipEmptyLines] at hr
      exact not_isIdle_of_settle hr

theorem Closing.skipBlanks (h : Closing text c above part) :
    Closing text c.skipBlanks above part where
  position := h.position.skipBlanks
  follows := h.follows
  busy := fun lt row next more hr => h.busy lt row next more (c.rows_skipBlanks ▸ hr)
  free := fun le idle t row below hr => h.free le idle t row below (c.rows_skipBlanks ▸ hr)

/-- A row that at most a comment follows may be passed over at the end. -/
theorem Closing.newline (h : Closing text c above part) {d : Cursor}
    (next : c.skipBlanks.newline? = some d) :
    ∃ above part, Closing text d.skipBlanks.skipComment above part := by
  obtain ⟨row, below, rest⟩ := d.exists_rows_eq_cons
  have after : c.rows = [] :: row :: below := by
    rw [← c.rows_skipBlanks, Cursor.rows_newline? next, rest]
  have start := h.position.skipBlanks.newline next
  obtain ⟨comment, moved, idle⟩ := start.skipBlanks.skipComment
  rw [List.nil_append] at moved
  -- The row counts as one that is complete exactly if it counts as the last of a definition.
  have same : counted (above ++ [part]) =
      counted above ++ significant (counted above).length [part] := by
    rw [counted_append]
    congr 1
    cases idle : isIdle part with
    | false =>
      rw [counted_cons idle, significant_cons idle]
      rfl
    | true =>
      have le : 5 ≤ (counted above).length := by
        by_contra lt
        have busy := h.busy (Nat.not_le.1 lt) _ _ _ after
        rw [List.append_nil, idle] at busy
        cases busy
      have none : significant 5 [part] = [] := by
        rw [significant_eq_nil_iff, List.all_cons, idle]
        rfl
      rw [significant_of_le le, none, counted_cons_of_isIdle idle]
      rfl
  have follows := h.follows
  rw [← same] at follows
  have le := (followsFormat_iff.1 follows).1
  refine ⟨above ++ [part], comment, moved, ?_, fun lt => absurd lt (Nat.not_lt.2 le), ?_⟩
  · have none : significant 5 [comment] = [] := by
      rw [significant_eq_nil_iff, List.all_cons, idle]
      rfl
    rw [significant_of_le le, none, List.append_nil]
    exact follows
  · intro _ _ t row below after
    exact start.skipBlanks.comment_eq_nil d.settled_skipBlanks moved after

end

/-! ## The readers -/

namespace Layout

variable {text : List Char} {c : Cursor} {above : List Row} {part : Row} {log : List Failure}

/-- A failure is noted at some place of a text. -/
def NotedAt (text : List Char) (place : Nat) (f : Failure) : Prop :=
  ∃ c above part, f.offset = c.offset ∧ OnTrack text c above part ∧ (counted above).length = place

/-- One token is read where it is awaited, in the header only as the first of its row. -/
theorem token_meets (h : OnTrack text c above part) (begins : Begins (counted above).length part)
    {e : Expected} (next : awaited (counted above).length part.length = some e)
    (first : (counted above).length < 5 → part = []) :
    (token e c).Meets (Demanded text) (Stuck text) log fun _ found =>
      OnTrack text found.2 above (part ++ [found.1]) ∧
        Begins (counted above).length (part ++ [found.1]) := by
  obtain ⟨row, below, after⟩ := c.exists_rows_eq_cons
  unfold token
  rcases token?_cases e after with ⟨t, d, rest, taken, rfl, fits, rest_rows⟩ | ⟨none, refused⟩
  · rw [taken]
    exact .pure ⟨h.token after taken rest_rows, begins.concat next fits⟩
  · rw [none]
    have after' := c.rows_skipBlanks.trans after
    refine ⟨fun f hf => ?_, fun a ha => (by cases ha), fun _ => ?_⟩
    · obtain rfl := List.mem_singleton.1 hf
      exact .token h.skipBlanks begins next after' refused
    · refine ⟨_, List.mem_append_right _ (List.mem_singleton_self _), c.skipBlanks, above, part,
        row, below, rfl, h.skipBlanks, after', .inr (.inl ?_)⟩
      exact not_fitsAt_of_refused next refused fun _ => first

/-- Where a row of the header that may have several tokens ends: one more was demanded. -/
structure ListRead (text : List Char) (e : Expected) (place : Nat) (log : List Failure) (c : Cursor)
    (above : List Row) (part : Row) : Prop where
  track : OnTrack text c above part
  begins : Begins place part
  nonempty : part ≠ []
  place_eq : (counted above).length = place
  noted : ∃ f ∈ log, f.offset = c.skipBlanks.offset
  refused : ∀ row below, c.rows = row :: below → Row.token? e row = none

theorem moreTokens_meets (h : OnTrack text c above part) {e : Expected} {place : Nat}
    (next : ∀ found, awaited place found = some e) (here : (counted above).length = place)
    (begins : Begins place part) (nonempty : part ≠ []) (before : List Token) :
    (moreTokens e before c).Meets (Demanded text) (Stuck text) log fun log found =>
      ∃ part, ListRead text e place log found.2 above part := by
  obtain ⟨row, below, after⟩ := c.exists_rows_eq_cons
  fun_induction moreTokens e before c generalizing part row with
  | case1 before c t d taken ih =>
    rcases token?_cases e after with ⟨t', d', rest, taken', rfl, fits, rest_rows⟩ | ⟨none, -⟩
    · rw [taken] at taken'
      cases taken'
      exact ih (h.token after taken rest_rows) (begins.concat (next _) fits)
        (List.append_ne_nil_of_right_ne_nil _ (List.cons_ne_nil _ _)) rest rest_rows
    · rw [taken] at none
      cases none
  | case2 before c none =>
    rcases token?_cases e after with ⟨t', d', rest, taken', -⟩ | ⟨-, refused⟩
    · rw [none] at taken'
      cases taken'
    · refine ⟨fun f hf => ?_, fun a ha => ?_, fun nothing => by cases nothing⟩
      · obtain rfl := List.mem_singleton.1 hf
        subst here
        exact .token h.skipBlanks begins (next _) (c.rows_skipBlanks.trans after) refused
      · cases ha
        refine ⟨part, h, begins, nonempty, here,
          ⟨_, List.mem_append_right _ (List.mem_singleton_self _), rfl⟩, fun row' below' hr => ?_⟩
        rw [after] at hr
        cases hr
        exact refused

/-- A row of the header that may have several tokens is read up to its end. -/
theorem tokens_meets (h : OnTrack text c above []) {e : Expected} {place : Nat}
    (next : ∀ found, awaited place found = some e) (here : (counted above).length = place) :
    (tokens e c).Meets (Demanded text) (Stuck text) log fun log found =>
      ∃ part, ListRead text e place log found.2 above part := by
  subst here
  refine (token_meets h (begins_nil _) (next _) fun _ => rfl).bind fun log found got => ?_
  exact moreTokens_meets got.1 next rfl got.2 (List.cons_ne_nil _ _) [found.1]

/-- The end of a row that may have several tokens. -/
theorem separator_meets {e : Expected} {place : Nat} (lt : place < 3)
    (next : ∀ found, awaited place found = some e) (h : ListRead text e place log c above part) :
    (separator c).Meets (Demanded text) (Stuck text) log fun log d =>
      (∃ f ∈ log, NotedAt text place f) ∧
        ∃ above, OnTrack text d above [] ∧ (counted above).length = place + 1 := by
  have fits : FitsAt (counted above).length part := by
    rw [h.place_eq]
    exact h.begins.fitsAt_of_lt (by omega) h.nonempty
  obtain ⟨f, hf, here⟩ := h.noted
  rcases h.track.separator_cases fits with ⟨d, above', found, counts, track⟩ | ⟨missing, last⟩
  · rw [found]
    refine .pure ⟨⟨f, hf, c.skipBlanks, above, part, here, h.track.skipBlanks, h.place_eq⟩, above',
      track, ?_⟩
    rw [counts, List.length_append, h.place_eq]
    rfl
  · rw [missing]
    refine ⟨fun f hf => absurd hf List.not_mem_nil, fun a ha => (by cases ha), fun _ => ?_⟩
    obtain ⟨row, below, after⟩ := c.exists_rows_eq_cons
    refine ⟨f, List.mem_append_left _ hf, c.skipBlanks, above, part, row, below, here,
      h.track.skipBlanks, c.rows_skipBlanks.trans after, ?_⟩
    cases row with
    | nil => exact .inl (last below after)
    | cons t row =>
      refine .inr (.inl (not_fitsAt_of_refused ?_ (h.refused _ _ after) fun same => by cases same))
      rw [h.place_eq]
      exact next _

/-- The end of the row of the initial state, before which nothing was demanded on it. -/
theorem state_separator_meets {t : Token} (h : OnTrack text c above [t])
    (begins : Begins (counted above).length [t]) (here : (counted above).length = 3)
    (noted : ∃ f ∈ log, NotedAt text 2 f) :
    (separator c).Meets (Demanded text) (Stuck text) log fun _ d =>
      ∃ above, OnTrack text d above [] ∧ (counted above).length = 4 := by
  have fits : FitsAt (counted above).length [t] :=
    begins.fitsAt_of_lt (by omega) (List.cons_ne_nil _ _)
  rcases h.separator_cases fits with ⟨d, above', found, counts, track⟩ | ⟨missing, last⟩
  · rw [found]
    refine .pure ⟨above', track, ?_⟩
    rw [counts, List.length_append, here]
    rfl
  · rw [missing]
    refine ⟨fun f hf => absurd hf List.not_mem_nil, fun a ha => (by cases ha), fun _ => ?_⟩
    obtain ⟨row, below, after⟩ := c.exists_rows_eq_cons
    obtain ⟨f, hf, c', above', part', offset, track', place⟩ := noted
    obtain ⟨row', below', after'⟩ := c'.exists_rows_eq_cons
    refine ⟨f, List.mem_append_left _ hf, c', above', part', row', below', offset, track', after',
      .inr (.inr ⟨?_, place⟩)⟩
    have rows := h.position.rows_eq after
    have name : t.isComment = false := by
      rw [here] at fits
      obtain ⟨t', same, name⟩ := fits
      cases same
      exact name
    refine ⟨counted above, t, row, significant 4 below, ?_, here, h.fits, name, ?_⟩
    · have counts : isIdle (t :: row) = false := name
      rw [rows, significant_append, here, List.singleton_append, significant_cons counts]
    · cases row with
      | cons u row => exact .inl (List.cons_ne_nil _ _)
      | nil =>
        rw [last below after, List.append_nil] at rows
        rw [last below after, rows]
        exact .inr ⟨rfl, List.getLast?_concat⟩

/-- Where a row ends after which a transition may come. -/
structure RowEnd (text : List Char) (c : Cursor) (above : List Row) (part : Row) : Prop where
  track : OnTrack text c above part
  fits : FitsAt (counted above).length part
  le : 4 ≤ (counted above).length
  full : ∀ t row below, c.rows = (t :: row) :: below →
    ¬ FitsAt (counted above).length (part ++ t :: row)

/-- Nothing can follow the initial symbol on its row. -/
theorem rowEnd_of_symbol {t : Token} (h : OnTrack text c above [t])
    (here : (counted above).length = 4) : RowEnd text c above [t] where
  track := h
  fits := here ▸ ⟨t, rfl⟩
  le := here ▸ Nat.le_refl 4
  full := by
    intro u row below _ fits
    rw [here] at fits
    obtain ⟨_, same⟩ := fits
    cases same

/-- Nothing but a comment can follow the five tokens of a transition on their row. -/
theorem rowEnd_of_transition (h : OnTrack text c above part)
    (begins : Begins (counted above).length part) (five : part.length = 5)
    (le : 5 ≤ (counted above).length) :
    ∃ part, RowEnd text c.skipBlanks.skipComment above part := by
  obtain ⟨comment, moved, idle⟩ := h.position.skipBlanks.skipComment
  have fits (rest : Row) (idle : isIdle rest = true) := begins.fitsAt_of_le le five idle
  refine ⟨part ++ comment, ⟨moved, h.fits, fun row next more _ => ?_⟩, fits comment idle,
    Nat.le_of_succ_le le, fun t row below after whole => ?_⟩
  · -- The row counts because its first token is a name.
    match part, five, (fits [] rfl).isIdle_of_le le with
    | source :: _, _, counts => exact counts
  · obtain ⟨rfl, shown⟩ :=
      h.position.skipBlanks.comment_eq_nil c.settled_skipBlanks moved after
    rw [List.append_nil] at whole
    obtain ⟨n, place⟩ := Nat.exists_eq_add_of_le' le
    rw [place] at whole
    match part, five, whole with
    | [_, _, _, _, _], _, ⟨_, _, comment_follows⟩ =>
      exact absurd (shown.symm.trans comment_follows) (by decide)

/-- A transition is read from the next row that counts, if the row above has ended. -/
theorem transitionLine_cases (log : List Failure) (h : RowEnd text c above part) :
    (separator c = .missing ∧ transitionLine c = .missing) ∨
    (transitionLine c).Meets (Demanded text) (Stuck text) log fun _ found =>
      ∃ above part, RowEnd text found.2 above part := by
  rcases h.track.separator_cases h.fits with ⟨d, above', found, counts, track⟩ | ⟨missing, -⟩
  · right
    have le : 5 ≤ (counted above').length := by
      rw [counts, List.length_append]
      exact Nat.succ_le_succ h.le
    have asks (found : Nat) {e : Expected}
        (next : [Expected.name, .symbol, .symbol, .name, .push][found]? = some e) :
        awaited (counted above').length found = some e := by
      obtain ⟨n, place⟩ := Nat.exists_eq_add_of_le' le
      rw [place]
      exact next
    have free {part : Row} (lt : (counted above').length < 5) : part = [] :=
      absurd lt (Nat.not_lt.2 le)
    have start : (separator c).Meets (Demanded text) (Stuck text) log fun _ d =>
        OnTrack text d above' [] := found ▸ .pure track
    refine start.bind fun log d track => ?_
    refine (token_meets track (begins_nil _) (asks 0 rfl) free).bind fun log source h₁ => ?_
    refine (token_meets h₁.1 h₁.2 (asks 1 rfl) free).bind fun log input h₂ => ?_
    refine (token_meets h₂.1 h₂.2 (asks 2 rfl) free).bind fun log top h₃ => ?_
    refine (token_meets h₃.1 h₃.2 (asks 3 rfl) free).bind fun log target h₄ => ?_
    refine (token_meets h₄.1 h₄.2 (asks 4 rfl) free).bind fun log push h₅ => ?_
    exact .pure ⟨above', rowEnd_of_transition h₅.1 h₅.2 rfl le⟩
  · left
    refine ⟨missing, ?_⟩
    unfold transitionLine
    rw [missing]
    rfl

/-- The transitions end at a row after which there is no other, or at one that does not fit. -/
theorem transitionLines_meets (h : RowEnd text c above part) :
    (transitionLines c).Meets (Demanded text) (Stuck text) log fun log found =>
      ∃ above part, RowEnd text found.2 above part ∧
        (separator found.2 = .missing ∨ ∃ f ∈ log, Stuck text f) := by
  -- Along the lines that are read: at each of them the row above has ended.
  fun_induction transitionLines c generalizing above part log with
  | case1 c failures line =>
    rcases transitionLine_cases log h with ⟨missing, nothing⟩ | meets
    · rw [nothing] at line
      cases line
      refine ⟨fun f hf => absurd hf List.not_mem_nil, fun a ha => ?_, fun h => by cases h⟩
      cases ha
      exact ⟨above, part, h, .inl missing⟩
    · rw [line] at meets
      refine ⟨meets.noted, fun a ha => ?_, fun h => by cases h⟩
      cases ha
      exact ⟨above, part, h, .inr (meets.stuck rfl)⟩
  | case2 c l d failures line others =>
    rename_i ih
    rcases transitionLine_cases log h with ⟨missing, nothing⟩ | meets
    · rw [nothing] at line
      cases line
    · rw [line] at meets
      obtain ⟨above', part', row_end⟩ := meets.found _ rfl
      have rest : (transitionLines d).Meets _ _ (log ++ failures) _ := ih row_end
      refine ⟨fun f hf => ?_, fun a ha => ?_, fun nothing => ?_⟩
      · rcases List.mem_append.1 hf with before | after
        · exact meets.noted f before
        · exact rest.noted f after
      · obtain ⟨found, hfound, rfl⟩ := Option.map_eq_some_iff.1 ha
        have := rest.found found hfound
        rwa [List.append_assoc] at this
      · have := rest.stuck (Option.map_eq_none_iff.1 nothing)
        rwa [List.append_assoc] at this

/-! ### The end of a definition -/

theorem RowEnd.closing (h : RowEnd text c above part) : Closing text c above part where
  position := h.track.position
  follows := by
    rw [h.fits.significant_singleton, followsFormat_iff, List.length_append, fitFrom_append,
      Nat.zero_add]
    exact ⟨Nat.succ_le_succ h.le, h.track.fits, h.fits, trivial⟩
  busy := fun _ => h.track.busy
  free := fun le idle => absurd ((h.fits.isIdle_of_le le).symm.trans idle) (by decide)

/-- The lines at the end are passed over up to where a definition may end. -/
theorem closing_trailer (h : Closing text c above part) :
    ∃ above part, Closing text (trailer c) above part := by
  fun_induction trailer c generalizing above part with
  | case1 c d next ih =>
    obtain ⟨above', part', closing⟩ := h.newline next
    exact ih closing
  | case2 c none => exact ⟨above, part, h⟩

/-- Only where a row ends and another follows there is anything to pass over at the end. -/
theorem trailer_of_missing {c : Cursor} (missing : separator c = .missing) : trailer c = c := by
  unfold separator at missing
  unfold trailer
  split at missing
  · cases missing
  · next none => rw [none]

/-- Where the text does not end after the lines at the end, a token follows. -/
theorem exists_token_of_trailer (c : Cursor) (more : ¬ (trailer c).skipBlanks.rest.isEmpty = true)
    {row : Row} {below : List Row} (after : (trailer c).rows = row :: below) :
    ∃ t rest, row = t :: rest := by
  fun_induction trailer c with
  | case1 c d next ih => exact ih more after
  | case2 c none =>
    rw [← c.rows_skipBlanks] at after
    rcases c.settled_skipBlanks.cases with end_of_text | ⟨d, newline⟩ | ⟨first, rest, run, -⟩
    · rw [end_of_text] at more
      exact absurd rfl more
    · rw [none] at newline
      cases newline
    · obtain ⟨others, below', rows, -⟩ := Cursor.rows_of_run run
      rw [rows] at after
      exact ⟨_, others, (List.cons.inj after).1.symm⟩

/-- The end of the text is demanded where a definition may end. If it does not end there, the row
after the last transition does not fit, or more follows on the row of that transition. -/
theorem endOfInput_meets (h : RowEnd text c above part)
    (ended : separator c = .missing ∨ ∃ f ∈ log, Stuck text f) :
    (endOfInput (trailer c)).Meets (Demanded text) (Stuck text) log fun _ _ => True := by
  obtain ⟨above', part', closing⟩ := closing_trailer h.closing
  obtain ⟨row, below, after⟩ := (trailer c).exists_rows_eq_cons
  have after' := (trailer c).rows_skipBlanks.trans after
  unfold endOfInput
  split
  · exact .pure trivial
  next more =>
    refine ⟨fun f hf => ?_, fun a ha => (by cases ha), fun _ => ?_⟩
    · obtain rfl := List.mem_singleton.1 hf
      obtain ⟨t, rest, rfl⟩ := exists_token_of_trailer c more after
      exact .endOfInput (closing.skipBlanks) after'
    · rcases ended with missing | ⟨f, hf, stuck⟩
      · have stays : trailer c = c := trailer_of_missing missing
        rw [stays] at more after after' ⊢
        obtain ⟨t, rest, rfl⟩ := exists_token_of_trailer c (stays.symm ▸ more) (stays.symm ▸ after)
        exact ⟨_, List.mem_append_right _ (List.mem_singleton_self _), c.skipBlanks, above, part, _,
          below, rfl, h.track.skipBlanks, after', .inr (.inl (h.full t rest below after))⟩
      · exact ⟨f, List.mem_append_left _ hf, stuck⟩

/-! ### A whole definition -/

/-- **Where tokens are demanded.** What is demanded of a text in vain is what the format asks for
there, and where there is no definition something was demanded where the text departs from the
format. -/
theorem definition_meets (text : List Char) :
    (definition (.start text)).Meets (Demanded text) (Stuck text) [] fun _ _ => True := by
  obtain ⟨above, arrived, none⟩ := (at_start text).skipEmptyLines
  have start : OnTrack text (Cursor.start text).skipEmptyLines above [] := by
    refine ⟨arrived, none ▸ trivial, fun row next more hr => ?_⟩
    rw [Cursor.rows_skipEmptyLines] at hr
    exact not_isIdle_of_settle hr
  have place : (counted above).length = 0 := by
    rw [none]
    rfl
  unfold definition
  refine (tokens_meets start (fun _ => rfl) place).bind fun log states ⟨_, read⟩ => ?_
  refine (separator_meets (by decide) (fun _ => rfl) read).bind
    fun log c ⟨_, above, track, place⟩ => ?_
  refine (tokens_meets track (fun _ => rfl) place).bind fun log inputs ⟨_, read⟩ => ?_
  refine (separator_meets (by decide) (fun _ => rfl) read).bind
    fun log c ⟨_, above, track, place⟩ => ?_
  refine (tokens_meets track (fun _ => rfl) place).bind fun log stack ⟨_, read⟩ => ?_
  refine (separator_meets (by decide) (fun _ => rfl) read).bind
    fun log c ⟨noted, above, track, place⟩ => ?_
  refine ((token_meets track (begins_nil _) (by rw [place]; rfl) fun _ => rfl).keep noted).bind
    fun log state ⟨noted, track, begins⟩ => ?_
  refine (state_separator_meets track begins place noted).bind fun log c ⟨above, track, place⟩ => ?_
  refine (token_meets track (begins_nil _) (by rw [place]; rfl) fun _ => rfl).bind
    fun log symbol ⟨track, _⟩ => ?_
  refine (transitionLines_meets (rowEnd_of_symbol track place)).bind
    fun log found ⟨above, part, row_end, ended⟩ => ?_
  exact (endOfInput_meets row_end ended).bind fun log _ _ => .pure trivial

/-! ### The report -/

/-- The report of a text that is no definition is of the farthest failure. There is one, for there
is one where the reader was stuck. -/
theorem read_eq_error {text : String} (rejected : ∀ l, read text ≠ .ok l) :
    ∃ failure ∈ (definition (.start text.toList)).failures,
      (∀ f ∈ (definition (.start text.toList)).failures, f.offset ≤ failure.offset) ∧
      (∃ f ∈ (definition (.start text.toList)).failures, Stuck text.toList f) ∧
      read text = .error (.ofFailure text.toList failure) := by
  have meets := definition_meets text.toList
  have nothing : (definition (.start text.toList)).result = none := by
    cases result : (definition (.start text.toList)).result with
    | none => rfl
    | some l => exact absurd (by rw [read, result]) (rejected l)
  obtain ⟨f, hf, stuck⟩ := meets.stuck nothing
  rw [List.nil_append] at hf
  obtain ⟨failure, farthest⟩ := Failure.exists_farthest hf
  obtain ⟨mem, bound⟩ := Failure.farthest_eq_some farthest
  refine ⟨failure, mem, bound, ⟨f, hf, stuck⟩, ?_⟩
  rw [read, nothing, farthest]
  rfl

end Layout

end Pushdown.Definition
