import Mathlib.Data.List.TakeWhile
import Pushdown.Definition.Load
import Pushdown.Proofs.Definition.RowReader

/-!
# The line format

Which texts are definitions, by the look of them, and which tokens are found in one. The format is
a property of the rows that count (`FollowsFormat`):

> `layoutOf?_eq_some_iff`: rows are laid out as a layout exactly where they follow the format and
> the tokens of the layout are theirs;
> `Layout.read_eq_ok_iff`: a text is read as a layout exactly when the rows that count are laid
> out so;
> `load_follows_format`: a text of a permitted size is refused for its layout exactly when its
> rows do not follow the format, and the tokens found otherwise are those of the rows.
-/

namespace Pushdown.Definition

/-! ## What follows the format -/

/-- Whether a row is a transition: five tokens, of which the first and the fourth are names, and
then at most a comment. -/
def IsTransitionRow : Row → Prop
  | source :: _ :: _ :: target :: _ :: rest =>
    source.isComment = false ∧ target.isComment = false ∧ isIdle rest = true
  | _ => False

/-- Whether rows are those of a definition: a row of names, two rows of tokens, a name, a token,
and then transitions. -/
def FollowsFormat : List Row → Prop
  | states :: inputSymbols :: stackSymbols :: [initialState] :: [_] :: transitions =>
    (states ≠ [] ∧ ∀ t ∈ states, t.isComment = false) ∧ inputSymbols ≠ [] ∧ stackSymbols ≠ [] ∧
      initialState.isComment = false ∧ ∀ row ∈ transitions, IsTransitionRow row
  | _ => False

/-- The tokens of a transition in the order of the text. -/
def TransitionLine.row (l : TransitionLine) : Row := [l.source, l.input, l.top, l.target, l.push]

/-- The tokens of a layout in the order of the text, row by row. -/
def Layout.rows (l : Layout) : List Row :=
  [l.states, l.inputSymbols, l.stackSymbols, [l.initialState], [l.initialSymbol]] ++
    l.transitions.map TransitionLine.row

theorem TransitionLine.row_injective {l l' : TransitionLine} (h : l.row = l'.row) : l = l' := by
  cases l
  cases l'
  simpa [row] using h

/-- A layout is told by its tokens. -/
theorem Layout.rows_injective {l l' : Layout} (h : l.rows = l'.rows) : l = l' := by
  obtain ⟨states, inputs, stack, state, symbol, transitions⟩ := l
  obtain ⟨states', inputs', stack', state', symbol', transitions'⟩ := l'
  simp only [rows, List.cons_append, List.nil_append, List.cons.injEq, and_true] at h
  obtain ⟨rfl, rfl, rfl, rfl, rfl, tokens⟩ := h
  rw [(List.map_inj_right fun _ _ => TransitionLine.row_injective).1 tokens]

theorem allOfFirst_eq_some_iff {α : Type} {take : Row → Option (α × Row)} {rows below : List Row}
    {a : α} :
    allOfFirst take rows = some (a, below) ↔
      ∃ row, rows = row :: below ∧ take row = some (a, []) := by
  cases rows with
  | nil => simp [allOfFirst]
  | cons row more =>
    unfold allOfFirst
    dsimp only
    split
    · next a' taken =>
      constructor
      · intro h
        cases h
        exact ⟨row, rfl, taken⟩
      · intro h
        obtain ⟨row', same, taken'⟩ := h
        cases same
        rw [taken] at taken'
        cases taken'
        rfl
    · next not_whole =>
      constructor
      · intro h
        cases h
      · intro h
        obtain ⟨row', same, taken⟩ := h
        cases same
        exact absurd taken (not_whole a)

namespace Row

theorem token?_eq_some_iff {expected : Expected} {row rest : Row} {t : Token} :
    token? expected row = some (t, rest) ↔ row = t :: rest ∧ accepts expected t = true := by
  cases row with
  | nil => simp [token?]
  | cons first row =>
    unfold token?
    dsimp only
    split
    · next fits =>
      constructor
      · intro h
        cases h
        exact ⟨rfl, fits⟩
      · intro h
        obtain ⟨same, -⟩ := h
        cases same
        rfl
    · next unfit =>
      constructor
      · intro h
        cases h
      · intro h
        obtain ⟨same, fits⟩ := h
        cases same
        exact absurd fits unfit

/-- The tokens of a row are all of it exactly where all of it fits. -/
theorem tokens?_eq_some_iff {expected : Expected} {row : Row} {ts : List Token} :
    tokens? expected row = some (ts, []) ↔
      row = ts ∧ row ≠ [] ∧ ∀ t ∈ row, accepts expected t = true := by
  unfold tokens?
  constructor
  · intro h
    obtain ⟨⟨t, more⟩, first, rest⟩ := Option.bind_eq_some_iff.1 h
    obtain ⟨rfl, fits⟩ := token?_eq_some_iff.1 first
    obtain ⟨taken, nothing⟩ := Prod.mk.inj (Option.some.inj rest)
    have fit := List.dropWhile_eq_nil_iff.1 nothing
    refine ⟨?_, List.cons_ne_nil _ _, List.forall_mem_cons.2 ⟨fits, fit⟩⟩
    rw [← taken, List.takeWhile_eq_self_iff.2 fit]
  · intro h
    obtain ⟨rfl, nonempty, fit⟩ := h
    cases row with
    | nil => exact absurd rfl nonempty
    | cons t more =>
      obtain ⟨fits, fit⟩ := List.forall_mem_cons.1 fit
      rw [token?_eq_some_iff.2 ⟨rfl, fits⟩]
      show some (t :: more.takeWhile (accepts expected), more.dropWhile (accepts expected)) = _
      rw [List.takeWhile_eq_self_iff.2 fit, List.dropWhile_eq_nil_iff.2 fit]

/-- A transition is taken from the start of a row exactly where its names are names. -/
theorem fields?_eq_some_iff {row rest : Row} {l : TransitionLine} :
    fields? row = some (l, rest) ↔
      row = l.row ++ rest ∧ accepts .name l.source = true ∧ accepts .name l.target = true := by
  unfold fields?
  constructor
  · intro h
    obtain ⟨⟨source, row₁⟩, h₁, h⟩ := Option.bind_eq_some_iff.1 h
    obtain ⟨⟨input, row₂⟩, h₂, h⟩ := Option.bind_eq_some_iff.1 h
    obtain ⟨⟨top, row₃⟩, h₃, h⟩ := Option.bind_eq_some_iff.1 h
    obtain ⟨⟨target, row₄⟩, h₄, h⟩ := Option.bind_eq_some_iff.1 h
    obtain ⟨⟨push, row₅⟩, h₅, h⟩ := Option.bind_eq_some_iff.1 h
    cases h
    rw [token?_eq_some_iff] at h₁ h₂ h₃ h₄ h₅
    refine ⟨?_, h₁.2, h₄.2⟩
    rw [h₁.1, h₂.1, h₃.1, h₄.1, h₅.1]
    rfl
  · intro h
    obtain ⟨rfl, source, target⟩ := h
    show (token? .name (l.source :: _) >>= _) = _
    rw [token?_eq_some_iff.2 ⟨rfl, source⟩]
    show (token? .name (l.target :: _) >>= _) = _
    rw [token?_eq_some_iff.2 ⟨rfl, target⟩]
    rfl

theorem exists_transition? {row : Row} (h : IsTransitionRow row) :
    ∃ l, transition? row = some l := by
  match row, h with
  | source :: input :: top :: target :: push :: rest, ⟨source_name, target_name, idle⟩ =>
    refine ⟨⟨source, input, top, target, push⟩, ?_⟩
    unfold transition?
    rw [show source :: input :: top :: target :: push :: rest =
      TransitionLine.row ⟨source, input, top, target, push⟩ ++ rest from rfl,
      fields?_eq_some_iff.2 ⟨rfl, by simp [accepts, source_name], by simp [accepts, target_name]⟩]
    exact if_pos idle

/-- A row is a transition exactly where its first five tokens are one and nothing else follows. -/
theorem transition?_eq_some_iff {row : Row} {l : TransitionLine} :
    transition? row = some l ↔ IsTransitionRow row ∧ l.row = row.take 5 := by
  have shape_of {l : TransitionLine} (h : transition? row = some l) :
      IsTransitionRow row ∧ l.row = row.take 5 := by
    obtain ⟨⟨l', rest⟩, taken, h⟩ := Option.bind_eq_some_iff.1 h
    dsimp only at h
    split at h
    · next idle =>
      cases h
      obtain ⟨rfl, source, target⟩ := fields?_eq_some_iff.1 taken
      refine ⟨⟨?_, ?_, idle⟩, rfl⟩
      · simpa [accepts] using source
      · simpa [accepts] using target
    · cases h
  constructor
  · exact shape_of
  · intro h
    obtain ⟨shape, tokens⟩ := h
    obtain ⟨l', made⟩ := exists_transition? shape
    rw [made, TransitionLine.row_injective ((shape_of made).2.trans tokens.symm)]

/-- Rows are read as transitions exactly where all of them are, each as its first five tokens. -/
theorem mapM_transition?_eq_some_iff {rows : List Row} {ls : List TransitionLine} :
    rows.mapM transition? = some ls ↔
      (∀ row ∈ rows, IsTransitionRow row) ∧
        ls.map TransitionLine.row = rows.map (List.take 5) := by
  induction rows generalizing ls with
  | nil =>
    show some [] = some ls ↔ _
    cases ls <;> simp
  | cons row rows ih =>
    rw [List.mapM_cons]
    constructor
    · intro h
      obtain ⟨l, hl, h⟩ := Option.bind_eq_some_iff.1 h
      obtain ⟨others, ho, h⟩ := Option.bind_eq_some_iff.1 h
      cases h
      obtain ⟨shape, tokens⟩ := transition?_eq_some_iff.1 hl
      obtain ⟨shapes, others⟩ := ih.1 ho
      refine ⟨List.forall_mem_cons.2 ⟨shape, shapes⟩, ?_⟩
      rw [List.map_cons, List.map_cons, tokens, others]
    · intro h
      obtain ⟨shapes, tokens⟩ := h
      obtain ⟨shape, shapes⟩ := List.forall_mem_cons.1 shapes
      cases ls with
      | nil => cases tokens
      | cons l others =>
        rw [List.map_cons, List.map_cons, List.cons.injEq] at tokens
        rw [transition?_eq_some_iff.2 ⟨shape, tokens.1⟩]
        show (rows.mapM transition? >>= _) = _
        rw [ih.2 ⟨shapes, tokens.2⟩]
        rfl

theorem exists_mapM_transition? {rows : List Row} (h : ∀ row ∈ rows, IsTransitionRow row) :
    ∃ ls, rows.mapM transition? = some ls := by
  induction rows with
  | nil => exact ⟨[], rfl⟩
  | cons row rows ih =>
    obtain ⟨shape, shapes⟩ := List.forall_mem_cons.1 h
    obtain ⟨l, hl⟩ := exists_transition? shape
    obtain ⟨others, ho⟩ := ih shapes
    exact ⟨l :: others, by rw [List.mapM_cons, hl, ho]; rfl⟩

end Row

theorem accepts_name_iff {t : Token} : accepts .name t = true ↔ t.isComment = false := by
  rw [accepts, Bool.not_eq_true']

/-- Rows that are laid out as a layout follow the format, and the layout has their tokens. -/
theorem rows_of_layoutOf? {rows : List Row} {l : Layout} (h : layoutOf? rows = some l) :
    FollowsFormat rows ∧ l.rows = rows.take 5 ++ (rows.drop 5).map (List.take 5) := by
  obtain ⟨⟨states, rows₁⟩, h₁, h⟩ := Option.bind_eq_some_iff.1 h
  obtain ⟨⟨inputs, rows₂⟩, h₂, h⟩ := Option.bind_eq_some_iff.1 h
  obtain ⟨⟨stack, rows₃⟩, h₃, h⟩ := Option.bind_eq_some_iff.1 h
  obtain ⟨⟨state, rows₄⟩, h₄, h⟩ := Option.bind_eq_some_iff.1 h
  obtain ⟨⟨symbol, rows₅⟩, h₅, h⟩ := Option.bind_eq_some_iff.1 h
  obtain ⟨transitions, h₆, h⟩ := Option.bind_eq_some_iff.1 h
  cases h
  obtain ⟨row₁, rfl, taken₁⟩ := allOfFirst_eq_some_iff.1 h₁
  obtain ⟨row₂, rfl, taken₂⟩ := allOfFirst_eq_some_iff.1 h₂
  obtain ⟨row₃, rfl, taken₃⟩ := allOfFirst_eq_some_iff.1 h₃
  obtain ⟨row₄, rfl, taken₄⟩ := allOfFirst_eq_some_iff.1 h₄
  obtain ⟨row₅, rfl, taken₅⟩ := allOfFirst_eq_some_iff.1 h₅
  obtain ⟨rfl, nonempty₁, names⟩ := Row.tokens?_eq_some_iff.1 taken₁
  obtain ⟨rfl, nonempty₂, -⟩ := Row.tokens?_eq_some_iff.1 taken₂
  obtain ⟨rfl, nonempty₃, -⟩ := Row.tokens?_eq_some_iff.1 taken₃
  obtain ⟨rfl, initial⟩ := Row.token?_eq_some_iff.1 taken₄
  obtain ⟨rfl, -⟩ := Row.token?_eq_some_iff.1 taken₅
  obtain ⟨shapes, tokens⟩ := Row.mapM_transition?_eq_some_iff.1 h₆
  refine ⟨⟨⟨nonempty₁, fun t ht => accepts_name_iff.1 (names t ht)⟩, nonempty₂, nonempty₃,
    accepts_name_iff.1 initial, shapes⟩, ?_⟩
  exact congrArg _ tokens

/-- Rows that follow the format are laid out as something. -/
theorem exists_layoutOf? {rows : List Row} (h : FollowsFormat rows) :
    ∃ l, layoutOf? rows = some l := by
  match rows, h with
  | states :: inputs :: stack :: [state] :: [symbol] :: transitions,
    ⟨⟨nonempty₁, names⟩, nonempty₂, nonempty₃, initial, shapes⟩ =>
    obtain ⟨ls, hls⟩ := Row.exists_mapM_transition? shapes
    have whole {α : Type} {take : Row → Option (α × Row)} {row : Row} {a : α} {below : List Row}
        (taken : take row = some (a, [])) : allOfFirst take (row :: below) = some (a, below) :=
      allOfFirst_eq_some_iff.2 ⟨row, rfl, taken⟩
    refine ⟨⟨states, inputs, stack, state, symbol, ls⟩, ?_⟩
    refine Option.bind_eq_some_iff.2 ⟨_, whole (Row.tokens?_eq_some_iff.2
      ⟨rfl, nonempty₁, fun t ht => accepts_name_iff.2 (names t ht)⟩), ?_⟩
    refine Option.bind_eq_some_iff.2 ⟨_, whole (Row.tokens?_eq_some_iff.2
      ⟨rfl, nonempty₂, fun _ _ => rfl⟩), ?_⟩
    refine Option.bind_eq_some_iff.2 ⟨_, whole (Row.tokens?_eq_some_iff.2
      ⟨rfl, nonempty₃, fun _ _ => rfl⟩), ?_⟩
    refine Option.bind_eq_some_iff.2 ⟨_, whole (Row.token?_eq_some_iff.2
      ⟨rfl, accepts_name_iff.2 initial⟩), ?_⟩
    refine Option.bind_eq_some_iff.2 ⟨_, whole (Row.token?_eq_some_iff.2 ⟨rfl, rfl⟩), ?_⟩
    exact Option.bind_eq_some_iff.2 ⟨ls, hls, rfl⟩

/-- Rows are laid out as a layout exactly where they follow the format and the layout has their
tokens, place by place. -/
theorem layoutOf?_eq_some_iff {rows : List Row} {l : Layout} :
    layoutOf? rows = some l ↔
      FollowsFormat rows ∧ l.rows = rows.take 5 ++ (rows.drop 5).map (List.take 5) := by
  constructor
  · exact rows_of_layoutOf?
  · intro h
    obtain ⟨shape, tokens⟩ := h
    obtain ⟨l', made⟩ := exists_layoutOf? shape
    rw [made, Layout.rows_injective ((rows_of_layoutOf? made).2.trans tokens.symm)]

/-! ## Main results -/

/-- A text is read as a layout exactly when the rows that count are laid out so. -/
theorem Layout.read_eq_ok_iff {text : String} {l : Layout} :
    Layout.read text = .ok l ↔ layoutOf? (significantRows text) = some l := by
  have rows : (definition (.start text.toList)).result = layoutOf? (significantRows text) := by
    rw [definition_result]
    rfl
  unfold Layout.read
  rw [← rows]
  dsimp only
  split
  · next found =>
    rw [found]
    exact ⟨fun h => congrArg some (Except.ok.inj h), fun h => congrArg _ (Option.some.inj h)⟩
  · next nothing =>
    rw [nothing]
    exact ⟨fun h => (by cases h), fun h => (by cases h)⟩

/-- A text of a permitted size that is no layout is refused for that. -/
theorem load_of_read_eq_error {text : String} (small : text.utf8ByteSize ≤ sizeLimit)
    {report : Report} (read : Layout.read text = .error report) :
    load text = .error (.layout report) := by
  unfold load loadLogged
  rw [if_neg (Nat.not_lt.2 small), read]

/-- A text of a permitted size that is a layout is what the layout is built to, and is refused
for nothing else. -/
theorem load_of_read_eq_ok {text : String} (small : text.utf8ByteSize ≤ sizeLimit) {l : Layout}
    (read : Layout.read text = .ok l) : load text = l.build.mapError .definition := by
  unfold load loadLogged
  rw [if_neg (Nat.not_lt.2 small), read]
  dsimp only
  cases l.build with
  | error fault => rfl
  | ok a => rfl

/-- A text is loaded exactly if it is of a permitted size, is a layout, and the layout is built. -/
theorem load_eq_ok_iff {text : String} {a : Automaton} :
    load text = .ok a ↔
      text.utf8ByteSize ≤ sizeLimit ∧ ∃ l, Layout.read text = .ok l ∧ l.build = .ok a := by
  by_cases small : text.utf8ByteSize ≤ sizeLimit
  · rw [and_iff_right small]
    cases read : Layout.read text with
    | error report =>
      rw [load_of_read_eq_error small read]
      exact ⟨fun h => (by cases h), fun ⟨_, h, _⟩ => (by cases h)⟩
    | ok l =>
      rw [load_of_read_eq_ok small read]
      constructor
      · intro h
        refine ⟨l, rfl, ?_⟩
        cases build : l.build with
        | error fault => rw [build] at h; cases h
        | ok a' => rw [build] at h; cases h; rfl
      · rintro ⟨l', same, build⟩
        cases same
        rw [build]
        rfl
  · refine ⟨fun h => ?_, fun h => absurd h.1 small⟩
    unfold load loadLogged at h
    rw [if_pos (Nat.not_le.1 small)] at h
    cases h

/-- Only a departure from the line format refuses a text of a permitted size for its layout. -/
theorem load_ne_layout_iff {text : String} (small : text.utf8ByteSize ≤ sizeLimit) :
    (∀ report, load text ≠ .error (.layout report)) ↔ ∃ l, Layout.read text = .ok l := by
  cases read : Layout.read text with
  | error report =>
    rw [load_of_read_eq_error small read]
    exact ⟨fun h => absurd rfl (h report), fun ⟨_, h⟩ => by cases h⟩
  | ok l =>
    rw [load_of_read_eq_ok small read]
    refine ⟨fun _ => ⟨l, rfl⟩, fun _ report => ?_⟩
    cases l.build with
    | error fault => exact fun h => by cases h
    | ok a => exact fun h => by cases h

/-- **The line format.** A text of a permitted size is not refused for its layout exactly when the
rows that count follow the format, and then the tokens found are those of the rows, place by
place: the first five rows whole, and the first five tokens of each row below. -/
theorem load_follows_format {text : String} (small : text.utf8ByteSize ≤ sizeLimit) :
    ((∀ report, load text ≠ .error (.layout report)) ↔ FollowsFormat (significantRows text)) ∧
      ∀ l, Layout.read text = .ok l →
        l.rows = (significantRows text).take 5 ++
          ((significantRows text).drop 5).map (List.take 5) := by
  refine ⟨?_, fun l read => (layoutOf?_eq_some_iff.1 (Layout.read_eq_ok_iff.1 read)).2⟩
  rw [load_ne_layout_iff small]
  constructor
  · intro h
    obtain ⟨l, read⟩ := h
    exact (layoutOf?_eq_some_iff.1 (Layout.read_eq_ok_iff.1 read)).1
  · intro shape
    obtain ⟨l, hl⟩ := exists_layoutOf? shape
    exact ⟨l, Layout.read_eq_ok_iff.2 hl⟩

/-- A definition with comments in every place that may hold one, and with `#` for an input symbol:
the comment of the last line has no newline. -/
def commented : String := "# calls\nq\n( #\r\nZ C\n\nq\nZ\n\tq # Z q . # done\n  # end"

/-- The comments of `commented` are no obstacle, and nothing but them is passed over. -/
theorem load_follows_format_commented :
    commented.utf8ByteSize ≤ sizeLimit ∧ (∀ report, load commented ≠ .error (.layout report)) ∧
      ∃ l, Layout.read commented = .ok l ∧ l.rows.map (·.map Token.text) =
        [["q"], ["(", "#"], ["Z", "C"], ["q"], ["Z"], ["q", "#", "Z", "q", "."]] := by
  have small : commented.utf8ByteSize ≤ sizeLimit := by decide
  have rows : significantRows commented =
      [[⟨"q", 2⟩], [⟨"(", 3⟩, ⟨"#", 3⟩], [⟨"Z", 4⟩, ⟨"C", 4⟩], [⟨"q", 6⟩], [⟨"Z", 7⟩],
        [⟨"q", 8⟩, ⟨"#", 8⟩, ⟨"Z", 8⟩, ⟨"q", 8⟩, ⟨".", 8⟩, ⟨"#", 8⟩, ⟨"done", 8⟩]] := by decide
  obtain ⟨accepted, tokens⟩ := load_follows_format small
  have loads : ∀ report, load commented ≠ .error (.layout report) := by
    refine accepted.2 ?_
    rw [rows]
    refine ⟨⟨by decide, by decide⟩, by decide, by decide, by decide, ?_⟩
    exact List.forall_mem_singleton.2 ⟨by decide, by decide, by decide⟩
  obtain ⟨l, read⟩ := (load_ne_layout_iff small).1 loads
  refine ⟨small, loads, l, read, ?_⟩
  rw [tokens l read, rows]
  rfl

end Pushdown.Definition
