import Pushdown.Proofs.Automaton.Layout
import Pushdown.Proofs.Definition.Printing

/-!
# The round trip of definitions

The definition that is written for an automaton is the text of its own layout
(`definitionText_summary`). The line format cannot tell every text, though: names and pushes have to
be words, and a row that starts with `#` is taken for a comment. The first is no matter for an
automaton that was loaded, the second is:

> `writable_of_load`: names and pushes of a loaded automaton are words, and its symbols belong to
> words;
> `Writable.printable_layout`: then its layout can be printed, unless a row of symbols would start
> with `#`;
> `load_definitionText`: so the definition that is written for a loaded automaton is loaded as it.
-/

namespace Pushdown

/-- Whether a symbol is the first of an alphabet. -/
def Alphabet.IsFirst (a : Alphabet) (s : Symbol) : Prop := s ∈ a ∧ ∀ t ∈ a, s ≤ t

instance (a : Alphabet) (s : Symbol) : Decidable (a.IsFirst s) :=
  decidable_of_iff (s ∈ a.symbols ∧ (a.symbols.all fun t => decide (s ≤ t)) = true) <| by
    simp only [List.all_eq_true, decide_eq_true_iff]
    exact Iff.rfl

theorem Alphabet.isFirst_of_head? {a : Alphabet} {s : Symbol} (h : a.symbols.head? = some s) :
    a.IsFirst s := by
  obtain ⟨rest, symbols⟩ := List.head?_eq_some_iff.1 h
  have sorted := a.sorted
  rw [symbols, List.pairwise_cons] at sorted
  refine ⟨List.mem_of_head? h, fun t ht => ?_⟩
  rw [mem_def, symbols] at ht
  rcases List.mem_cons.1 ht with rfl | later
  · exact Char.le_refl t
  · exact Char.not_lt.1 (Char.lt_asymm (sorted.1 t later))

namespace Automaton

open Definition

variable {a : Automaton}

theorem isFirst_of_head?_writtenInputs {s : Symbol} (proper : s ≠ Symbol.epsilon)
    (h : a.writtenInputs.head? = some s) : a.inputAlphabet.IsFirst s := by
  unfold writtenInputs at h
  split at h
  · exact absurd (Option.some.inj h).symm proper
  · exact Alphabet.isFirst_of_head? h

/-! ## The text of the layout -/

theorem lineOf_symbolsOn (symbols : List Symbol) (n : Nat) :
    lineOf (symbolsOn symbols n) = String.ofList (symbols.intersperse ' ') := by
  rw [← String.toList_inj, String.toList_ofList]
  induction symbols with
  | nil => rfl
  | cons s rest ih =>
    cases rest with
    | nil =>
      rw [symbolsOn, List.map_singleton, lineOf_singleton, String.toList_singleton]
      rfl
    | cons s' rest =>
      show (lineOf (_ :: _ :: symbolsOn rest n)).toList = _
      rw [toList_lineOf_cons, String.toList_singleton]
      exact congrArg (s :: ' ' :: ·) ih

theorem lineOf_names (a : Automaton) : lineOf a.layout.states = " ".intercalate a.names := by
  have texts : a.layout.states.map Token.text = a.names := names_layout a
  rw [lineOf, texts]

/-- An input alphabet without symbols is written as the empty symbol. -/
theorem lineOf_inputSymbols (a : Automaton) :
    lineOf a.layout.inputSymbols =
      if a.inputAlphabet.toText.isEmpty then String.singleton Symbol.epsilon
      else a.inputAlphabet.toText := by
  rw [layout, lineOf_symbolsOn, writtenInputs, Alphabet.toText, Alphabet.isEmpty]
  cases a.inputAlphabet.symbols with
  | nil => rfl
  | cons s rest =>
    have shown : (String.ofList ((s :: rest).intersperse ' ')).isEmpty = false := by
      rw [Bool.eq_false_iff, Ne, String.isEmpty_iff, ← String.toList_eq_nil_iff,
        String.toList_ofList]
      cases rest with
      | nil => exact List.cons_ne_nil _ _
      | cons s' rest => exact List.cons_ne_nil _ _
    rw [shown]
    rfl

/-- The definition that is written for an automaton is the text of its layout. -/
theorem definitionText_summary (a : Automaton) (name : String) :
    (a.summary name).definitionText = textOf a.layout.rows := by
  have lines : (a.transitions.map Summary.transitionLine) =
      (a.layout.transitions.map TransitionLine.row).map lineOf := by
    have each : (lineOf ∘ TransitionLine.row) ∘ (fun p => lineOn p.1 p.2) =
        Summary.transitionLine ∘ Prod.fst := rfl
    rw [layout, List.map_map, List.map_map, each, ← List.map_map, List.zipIdx_map_fst]
  have rows : a.layout.rows.map lineOf =
      [" ".intercalate a.names,
       if a.inputAlphabet.toText.isEmpty then String.singleton Symbol.epsilon
        else a.inputAlphabet.toText,
       a.stackAlphabet.toText, a.nameOf a.initialState, String.singleton a.initialSymbol] ++
        a.transitions.map Summary.transitionLine := by
    have stack : lineOf a.layout.stackSymbols = a.stackAlphabet.toText := lineOf_symbolsOn _ _
    have state : lineOf [a.layout.initialState] = a.nameOf a.initialState := lineOf_singleton _
    have symbol : lineOf [a.layout.initialSymbol] = String.singleton a.initialSymbol :=
      lineOf_singleton _
    rw [lines, ← lineOf_names, ← lineOf_inputSymbols, ← stack, ← state, ← symbol]
    rfl
  rw [textOf, rows]
  rfl

/-! ## Automata that can be written -/

/-- An automaton that a definition can tell: no name is empty or divided or looks like a comment, no
symbol divides a line, and whatever is pushed is a word. -/
structure Writable (a : Automaton) : Prop where
  names_words : ∀ name ∈ a.names, IsWord name
  names_shown : ∀ name ∈ a.names, name.toList.head? ≠ some '#'
  inputs_glyphs : ∀ s ∈ a.inputAlphabet, isGlyph s = true
  stack_glyphs : ∀ s ∈ a.stackAlphabet, isGlyph s = true
  pushes_words : ∀ t ∈ a.transitions, IsWord t.push

/-- Every loaded automaton can be written. -/
theorem writable_of_load {text : String} (h : load text = .ok a) : a.Writable := by
  obtain ⟨-, l, read, build⟩ := load_eq_ok_iff.1 h
  obtain ⟨states, inputs, stack, -, -, lines⟩ :=
    Layout.forall_rows_iff.1 (Layout.isWord_of_read read)
  have described := Layout.describes_of_build build
  have names : a.names = l.states.map Token.text := described.names_eq
  have glyph {ts : List Token} (words : ∀ t ∈ ts, IsWord t.text) {s : Symbol}
      (hs : s ∈ symbolsOf ts) : isGlyph s = true := by
    obtain ⟨t, ht, symbol⟩ := List.mem_filterMap.1 hs
    have word := words t ht
    rwa [symbol?_eq_some_iff.1 symbol, isWord_singleton] at word
  constructor
  · rw [names, List.forall_mem_map]
    exact states
  · rw [names, List.forall_mem_map]
    intro t ht
    have shown := Layout.isComment_of_read read t ht
    rwa [Token.isComment, beq_eq_false_iff_ne] at shown
  · intro s hs
    exact glyph inputs ((described.mem_input_iff s).1 hs).1
  · intro s hs
    exact glyph stack ((described.mem_stack_iff s).1 hs)
  · intro t ht
    obtain ⟨-, id, o, ho, -, push⟩ := exists_outcome_of_mem_transitions ht
    rw [described.outcomes_eq] at ho
    obtain ⟨line, hl, rfl⟩ := List.mem_map.1 ho
    rw [push, TransitionLine.outcome, Symbol.toText, String.ofList_toList]
    exact lines line (List.mem_filter.1 hl).1 line.push (by simp [TransitionLine.row])

/-- Whether a row of symbols starts like a comment is a matter of the first symbol. -/
theorem isCommentRow_symbolsOn (symbols : List Symbol) (n : Nat) :
    isCommentRow (symbolsOn symbols n) = (symbols.head? == some '#') := by
  cases symbols with
  | nil => rfl
  | cons s rest =>
    show Token.isComment ⟨String.singleton s, n⟩ = _
    rw [Token.isComment, String.toList_singleton]
    rfl

theorem numbered_transitions (ts : List TransitionSummary) (n : Nat) :
    Numbered n (((ts.zipIdx n).map fun p => lineOn p.1 p.2).map TransitionLine.row) := by
  induction ts generalizing n with
  | nil => trivial
  | cons t ts ih =>
    rw [List.zipIdx_cons, List.map_cons, List.map_cons]
    refine ⟨fun u hu => ?_, ih (n + 1)⟩
    simp only [TransitionLine.row, lineOn, List.mem_cons, List.not_mem_nil, or_false] at hu
    rcases hu with rfl | rfl | rfl | rfl | rfl
    all_goals rfl

/-- The lines of a written layout are counted right. -/
theorem numbered_layout (a : Automaton) : Numbered 1 a.layout.rows := by
  have names : ∀ t ∈ a.layout.states, t.line = 1 := by
    intro t ht
    obtain ⟨name, -, rfl⟩ := List.mem_map.1 ht
    rfl
  have symbols (symbols : List Symbol) (n : Nat) : ∀ t ∈ symbolsOn symbols n, t.line = n := by
    intro t ht
    obtain ⟨s, -, rfl⟩ := List.mem_map.1 ht
    rfl
  exact ⟨names, symbols _ 2, symbols _ 3, List.forall_mem_singleton.2 rfl,
    List.forall_mem_singleton.2 rfl, numbered_transitions a.transitions 6⟩

namespace Writable

theorem isGlyph_of_mem_writtenInputs (h : a.Writable) {s : Symbol} (hs : s ∈ a.writtenInputs) :
    isGlyph s = true := by
  by_cases epsilon : s = Symbol.epsilon
  · rw [epsilon]
    rfl
  · exact h.inputs_glyphs s (mem_writtenInputs_iff.1 ⟨hs, epsilon⟩).1

/-- The tokens of a written transition are words. -/
theorem words_lineOn (h : a.Writable) (closed : a.Closed) {t : TransitionSummary}
    (ht : t ∈ a.transitions) (n : Nat) : ∀ u ∈ (lineOn t n).row, IsWord u.text := by
  have refers := refers_lineOn closed ht n
  have input : IsWord (lineOn t n).input.text := by
    obtain ⟨s, symbol, declared⟩ := refers.input_mem
    rw [symbol?_eq_some_iff.1 symbol, isWord_singleton]
    rcases declared with rfl | declared
    · rfl
    · exact h.isGlyph_of_mem_writtenInputs declared
  have top : IsWord (lineOn t n).top.text := by
    obtain ⟨s, symbol, declared⟩ := refers.top_mem
    rw [symbol?_eq_some_iff.1 symbol, isWord_singleton]
    exact h.stack_glyphs s declared
  rw [TransitionLine.row]
  simp only [List.forall_mem_cons]
  exact ⟨h.names_words _ refers.source_mem, input, top, h.names_words _ refers.target_mem,
    h.pushes_words t ht, fun u hu => absurd hu List.not_mem_nil⟩

/-- All that is written are words. -/
theorem words_layout (h : a.Writable) (closed : a.Closed) :
    ∀ row ∈ a.layout.rows, ∀ t ∈ row, IsWord t.text := by
  have symbols {symbols : List Symbol} (glyphs : ∀ s ∈ symbols, isGlyph s = true) (n : Nat) :
      ∀ t ∈ symbolsOn symbols n, IsWord t.text := by
    intro t ht
    obtain ⟨s, hs, rfl⟩ := List.mem_map.1 ht
    exact isWord_singleton.2 (glyphs s hs)
  refine Layout.forall_rows_iff.2 ⟨?_, ?_, ?_, ?_, ?_, fun line hl => ?_⟩
  · intro t ht
    obtain ⟨name, hn, rfl⟩ := List.mem_map.1 ht
    exact h.names_words name hn
  · exact symbols (fun s => h.isGlyph_of_mem_writtenInputs) 2
  · exact symbols h.stack_glyphs 3
  · exact List.forall_mem_singleton.2 (h.names_words _ (nameOf_mem_names closed.initialState_lt))
  · exact symbols (List.forall_mem_singleton.2 (h.stack_glyphs _ closed.initialSymbol_mem)) 5
  · obtain ⟨t, n, ht, rfl⟩ := exists_of_mem_layout hl
    exact h.words_lineOn closed ht n

/-- A written name does not look like a comment. -/
theorem isComment_name (h : a.Writable) {name : String} (hn : name ∈ a.names) (n : Nat) :
    Token.isComment ⟨name, n⟩ = false :=
  beq_eq_false_iff_ne.2 (h.names_shown name hn)

theorem isComment_lineOn (h : a.Writable) (closed : a.Closed) {t : TransitionSummary}
    (ht : t ∈ a.transitions) (n : Nat) :
    (lineOn t n).source.isComment = false ∧ (lineOn t n).target.isComment = false :=
  ⟨h.isComment_name (refers_lineOn closed ht n).source_mem n,
    h.isComment_name (refers_lineOn closed ht n).target_mem n⟩

/-- What is written follows the format. -/
theorem followsFormat_layout (h : a.Writable) (closed : a.Closed) :
    FollowsFormat a.layout.rows := by
  have initial := nameOf_mem_names closed.initialState_lt
  refine ⟨⟨?_, ?_⟩, ?_, ?_, h.isComment_name initial 4, fun row hr => ?_⟩
  · exact List.ne_nil_of_mem (List.mem_map_of_mem initial)
  · intro t ht
    obtain ⟨name, hn, rfl⟩ := List.mem_map.1 ht
    exact h.isComment_name hn 1
  · show symbolsOn a.writtenInputs 2 ≠ []
    rw [symbolsOn, Ne, List.map_eq_nil_iff, writtenInputs]
    split
    · exact List.cons_ne_nil _ _
    · next some_there => simpa [Alphabet.isEmpty] using some_there
  · exact List.ne_nil_of_mem (List.mem_map_of_mem closed.initialSymbol_mem)
  · obtain ⟨line, hl, rfl⟩ := List.mem_map.1 hr
    obtain ⟨t, n, ht, rfl⟩ := exists_of_mem_layout hl
    obtain ⟨source, target⟩ := h.isComment_lineOn closed ht n
    exact ⟨source, target, rfl⟩

/-- An automaton that can be written can be printed, unless a row of symbols would start with a
`#`. -/
theorem printable_layout (h : a.Writable) (closed : a.Closed)
    (inputs : ¬ a.inputAlphabet.IsFirst '#') (stack : ¬ a.stackAlphabet.IsFirst '#')
    (symbol : a.initialSymbol ≠ '#') : a.layout.Printable where
  follows_format := h.followsFormat_layout closed
  words := h.words_layout closed
  numbered := numbered_layout a
  inputs_shown := by
    rw [layout, isCommentRow_symbolsOn, beq_eq_false_iff_ne]
    intro first
    exact inputs (isFirst_of_head?_writtenInputs (by decide) first)
  stack_shown := by
    rw [layout, isCommentRow_symbolsOn, beq_eq_false_iff_ne]
    intro first
    exact stack (Alphabet.isFirst_of_head? first)
  initialSymbol_shown := by
    rw [layout, Token.isComment, String.toList_singleton, beq_eq_false_iff_ne]
    exact fun same => symbol (Option.some.inj same)

end Writable

end Automaton

namespace Definition

/-! ## Main result -/

/-- **What is written for a loaded automaton is loaded as it.** If `#` is neither the first symbol
of an alphabet nor the initial symbol, so that no row would be taken for a comment, then the
definition that is written for an automaton that was loaded makes the same automaton, as long as it
is of a permitted size. -/
theorem load_definitionText {text : String} {a : Automaton} (loaded : load text = .ok a)
    (inputs : ¬ a.inputAlphabet.IsFirst '#') (stack : ¬ a.stackAlphabet.IsFirst '#')
    (symbol : a.initialSymbol ≠ '#') (name : String)
    (small : (a.summary name).definitionText.utf8ByteSize ≤ sizeLimit) :
    load (a.summary name).definitionText = .ok a := by
  have closed := (isBuilt_of_load loaded).closed
  have printable :=
    (Automaton.writable_of_load loaded).printable_layout closed inputs stack symbol
  refine load_eq_ok_iff.2 ⟨small, a.layout, ?_, Automaton.build_layout closed⟩
  rw [Automaton.definitionText_summary]
  exact Layout.read_textOf printable

/-- A definition with `#` among its symbols, whose transitions stand in no order. -/
def scattered : String :=
  "q p\n0 # !\nZ # !\np\nZ\nq # # q . # bottom\np 0 Z q #Z\n\np . Z p .\np 0 Z p !.\nq # # p #"

/-- What is written for its automaton. -/
def gathered : String :=
  "q p\n! # 0\n! # Z\np\nZ\nq # # q .\nq # # p #\np . Z p .\np 0 Z q #Z\np 0 Z p !."

/-- The layout of `scattered`. -/
def scatteredLayout : Layout where
  states := [⟨"q", 1⟩, ⟨"p", 1⟩]
  inputSymbols := [⟨"0", 2⟩, ⟨"#", 2⟩, ⟨"!", 2⟩]
  stackSymbols := [⟨"Z", 3⟩, ⟨"#", 3⟩, ⟨"!", 3⟩]
  initialState := ⟨"p", 4⟩
  initialSymbol := ⟨"Z", 5⟩
  transitions := [
    ⟨⟨"q", 6⟩, ⟨"#", 6⟩, ⟨"#", 6⟩, ⟨"q", 6⟩, ⟨".", 6⟩⟩,
    ⟨⟨"p", 7⟩, ⟨"0", 7⟩, ⟨"Z", 7⟩, ⟨"q", 7⟩, ⟨"#Z", 7⟩⟩,
    ⟨⟨"p", 9⟩, ⟨".", 9⟩, ⟨"Z", 9⟩, ⟨"p", 9⟩, ⟨".", 9⟩⟩,
    ⟨⟨"p", 10⟩, ⟨"0", 10⟩, ⟨"Z", 10⟩, ⟨"p", 10⟩, ⟨"!.", 10⟩⟩,
    ⟨⟨"q", 11⟩, ⟨"#", 11⟩, ⟨"#", 11⟩, ⟨"p", 11⟩, ⟨"#", 11⟩⟩]

/-- The automaton of both. -/
def scatteredAutomaton : Automaton where
  states := #[
    ⟨"q", ⟨[⟨⟨'#', '#'⟩, ⟨⟨0⟩, ['.']⟩⟩, ⟨⟨'#', '#'⟩, ⟨⟨1⟩, ['#']⟩⟩]⟩⟩,
    ⟨"p", ⟨[⟨⟨'.', 'Z'⟩, ⟨⟨1⟩, ['.']⟩⟩, ⟨⟨'0', 'Z'⟩, ⟨⟨0⟩, ['#', 'Z']⟩⟩,
      ⟨⟨'0', 'Z'⟩, ⟨⟨1⟩, ['!', '.']⟩⟩]⟩⟩]
  inputAlphabet := Alphabet.ofList ['!', '#', '0']
  stackAlphabet := Alphabet.ofList ['!', '#', 'Z']
  initialState := ⟨1⟩
  initialSymbol := 'Z'

/-- The automaton is written in another order than it was loaded from, and is loaded from there all
the same. -/
theorem load_definitionText_scattered :
    load scattered = .ok scatteredAutomaton ∧
      (scatteredAutomaton.summary "scattered").definitionText = gathered ∧
      load gathered = .ok scatteredAutomaton := by
  have read : Layout.read scattered = .ok scatteredLayout := Layout.read_eq_ok_iff.2 (by decide)
  have build : scatteredLayout.build = .ok scatteredAutomaton :=
    Layout.build_eq_ok_iff.2 ⟨by decide, 'Z', by decide, by decide +kernel⟩
  have loaded : load scattered = .ok scatteredAutomaton :=
    load_eq_ok_iff.2 ⟨by decide, scatteredLayout, read, build⟩
  have written : (scatteredAutomaton.summary "scattered").definitionText = gathered := by
    decide +kernel
  have again := load_definitionText loaded (by decide) (by decide) (by decide) "scattered"
    (by rw [written]; decide)
  rw [written] at again
  exact ⟨loaded, written, again⟩

end Definition

end Pushdown
