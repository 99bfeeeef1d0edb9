import Pushdown.Proofs.Definition.Built
import Pushdown.Proofs.Search.Alike

/-!
# Immaterial differences between definitions

One automaton can be written down in many ways: the names of the first row and the symbols of the
next two in another order, the transitions in another order, empty symbols here and there in what is
pushed. What has to be kept is the order of the transitions that compete for one place, a name under
an input symbol and a stack top. So layouts are `Alike` if they declare the same, start alike and
have for every place the same effects in the same order.

That layouts are alike is a matter of texts alone. It hands on that a layout is coherent
(`Layout.Alike.coherent`), and since an automaton does what its layout says (`effects_of_build`), it
makes automata that are alike (`Layout.Alike.alike`):

> `runs_of_alike`: automata that are alike run alike, and if one of two texts whose layouts are
> alike is loaded, so is the other, as an automaton that runs alike.
-/

namespace Pushdown.Definition

variable {l m : Layout} {a b : Automaton}

/-! ## Layouts that are alike -/

/-- Where a line applies: the name of its source, its input symbol and its stack top. -/
def TransitionLine.place (line : TransitionLine) : String × String × String :=
  (line.source.text, line.input.text, line.top.text)

/-- What can be seen of a transition once it is taken. -/
def TransitionLine.effect (line : TransitionLine) : String × List Symbol :=
  (line.target.text, Symbol.withoutEpsilon line.push.text.toList)

/-- What the lines of a place do, in the order of the text. -/
def Layout.effects (l : Layout) (place : String × String × String) :
    List (String × List Symbol) :=
  (l.transitions.filter (·.place == place)).map TransitionLine.effect

/-- Two layouts that differ at most in the order of their declarations, in that of transitions that
do not compete, and in empty symbols that are pushed. -/
structure Layout.Alike (l m : Layout) : Prop where
  names_perm : l.names.Perm m.names
  inputs_iff : ∀ text, text ∈ l.inputSymbols.map Token.text ↔ text ∈ m.inputSymbols.map Token.text
  stack_iff : ∀ text, text ∈ l.stackSymbols.map Token.text ↔ text ∈ m.stackSymbols.map Token.text
  initialState_eq : l.initialState.text = m.initialState.text
  initialSymbol_eq : l.initialSymbol.text = m.initialSymbol.text
  effects_eq : ∀ place, l.effects place = m.effects place

theorem Layout.mem_effects_place {line : TransitionLine} (h : line ∈ l.transitions) :
    line.effect ∈ l.effects line.place :=
  List.mem_map_of_mem (List.mem_filter.2 ⟨h, beq_self_eq_true _⟩)

/-- Nothing is done at a place that no line has. -/
theorem Layout.effects_eq_nil {place : String × String × String}
    (h : ∀ line ∈ l.transitions, line.place ≠ place) : l.effects place = [] := by
  rw [effects, List.filter_eq_nil_iff.2, List.map_nil]
  intro line hl same
  exact h line hl (eq_of_beq same)

/-- Only the places of lines have to be compared. -/
theorem Layout.forall_effects_eq_iff :
    (∀ place, l.effects place = m.effects place) ↔
      ∀ line ∈ l.transitions ++ m.transitions, l.effects line.place = m.effects line.place := by
  refine ⟨fun h line _ => h line.place, fun h place => ?_⟩
  by_cases used : ∃ line ∈ l.transitions ++ m.transitions, line.place = place
  · obtain ⟨line, hl, rfl⟩ := used
    exact h line hl
  · have unused : ∀ line ∈ l.transitions ++ m.transitions, line.place ≠ place :=
      fun line hl same => used ⟨line, hl, same⟩
    rw [List.forall_mem_append] at unused
    rw [effects_eq_nil unused.1, effects_eq_nil unused.2]

theorem Layout.alike_iff :
    l.Alike m ↔ l.names.Perm m.names ∧
      (l.inputSymbols.map Token.text ⊆ m.inputSymbols.map Token.text ∧
        m.inputSymbols.map Token.text ⊆ l.inputSymbols.map Token.text) ∧
      (l.stackSymbols.map Token.text ⊆ m.stackSymbols.map Token.text ∧
        m.stackSymbols.map Token.text ⊆ l.stackSymbols.map Token.text) ∧
      l.initialState.text = m.initialState.text ∧ l.initialSymbol.text = m.initialSymbol.text ∧
      ∀ line ∈ l.transitions ++ m.transitions, l.effects line.place = m.effects line.place := by
  rw [← forall_effects_eq_iff]
  constructor
  · intro h
    exact ⟨h.names_perm, ⟨fun text => (h.inputs_iff text).1, fun text => (h.inputs_iff text).2⟩,
      ⟨fun text => (h.stack_iff text).1, fun text => (h.stack_iff text).2⟩, h.initialState_eq,
      h.initialSymbol_eq, h.effects_eq⟩
  · intro h
    obtain ⟨names, inputs, stack, state, symbol, effects⟩ := h
    exact ⟨names, fun text => ⟨@inputs.1 text, @inputs.2 text⟩,
      fun text => ⟨@stack.1 text, @stack.2 text⟩, state, symbol, effects⟩

instance : Decidable (l.Alike m) := decidable_of_iff _ Layout.alike_iff.symm

/-! ## Coherence is a matter of texts -/

theorem mem_symbolsOf_iff {ts : List Token} {s : Symbol} :
    s ∈ symbolsOf ts ↔ String.singleton s ∈ ts.map Token.text := by
  simp only [symbolsOf, List.mem_filterMap, symbol?_eq_some_iff, List.mem_map]

theorem forall_isSymbol_iff {ts : List Token} :
    (∀ t ∈ ts, t.IsSymbol) ↔ ∀ text ∈ ts.map Token.text, text.length = 1 := by
  rw [List.forall_mem_map]
  exact Iff.rfl

theorem symbol?_congr {t t' : Token} (h : t.text = t'.text) : t.symbol? = t'.symbol? := by
  rw [Token.symbol?, Token.symbol?, h]

/-- Lines of one place and one effect refer alike. -/
theorem refers_of_place_of_effect {line line' : TransitionLine} {names : List String}
    {inputs stack : Symbol → Prop} (place : line.place = line'.place)
    (effect : line.effect = line'.effect) (h : line.Refers names inputs stack) :
    line'.Refers names inputs stack := by
  obtain ⟨source, symbols⟩ := Prod.mk.inj place
  obtain ⟨input, top⟩ := Prod.mk.inj symbols
  obtain ⟨target, push⟩ := Prod.mk.inj effect
  refine ⟨source ▸ h.source_mem, symbol?_congr input ▸ h.input_mem, symbol?_congr top ▸ h.top_mem,
    target ▸ h.target_mem, fun s hs => ?_⟩
  by_cases epsilon : s = Symbol.epsilon
  · exact .inl epsilon
  · have pushed : s ∈ Symbol.withoutEpsilon line.push.text.toList := by
      rw [push]
      exact Symbol.mem_withoutEpsilon.2 ⟨hs, epsilon⟩
    exact h.push_mem s (Symbol.mem_withoutEpsilon.1 pushed).1

/-- A line may name what there is as long as there is more. -/
theorem TransitionLine.Refers.mono {line : TransitionLine} {names names' : List String}
    {inputs inputs' stack stack' : Symbol → Prop} (h : line.Refers names inputs stack)
    (names_sub : names ⊆ names') (inputs_sub : ∀ s, inputs s → inputs' s)
    (stack_sub : ∀ s, stack s → stack' s) : line.Refers names' inputs' stack' where
  source_mem := names_sub h.source_mem
  input_mem := h.input_mem.imp fun _ hs => ⟨hs.1, hs.2.imp_right (inputs_sub _)⟩
  top_mem := h.top_mem.imp fun _ hs => ⟨hs.1, stack_sub _ hs.2⟩
  target_mem := names_sub h.target_mem
  push_mem s hs := (h.push_mem s hs).imp_right (stack_sub s)

namespace Layout.Alike

theorem symm (h : l.Alike m) : m.Alike l :=
  ⟨h.names_perm.symm, fun text => (h.inputs_iff text).symm, fun text => (h.stack_iff text).symm,
    h.initialState_eq.symm, h.initialSymbol_eq.symm, fun place => (h.effects_eq place).symm⟩

theorem symbolsOf_inputs_iff (h : l.Alike m) (s : Symbol) :
    s ∈ symbolsOf l.inputSymbols ↔ s ∈ symbolsOf m.inputSymbols := by
  rw [mem_symbolsOf_iff, mem_symbolsOf_iff, h.inputs_iff]

theorem symbolsOf_stack_iff (h : l.Alike m) (s : Symbol) :
    s ∈ symbolsOf l.stackSymbols ↔ s ∈ symbolsOf m.stackSymbols := by
  rw [mem_symbolsOf_iff, mem_symbolsOf_iff, h.stack_iff]

/-- A line of one layout has a counterpart in the other, at the same place and of the same
effect. -/
theorem exists_counterpart (h : l.Alike m) {line : TransitionLine} (hl : line ∈ m.transitions) :
    ∃ line' ∈ l.transitions, line'.place = line.place ∧ line'.effect = line.effect := by
  have done := mem_effects_place hl
  rw [← h.effects_eq] at done
  obtain ⟨line', hl', effect⟩ := List.mem_map.1 done
  obtain ⟨mem, place⟩ := List.mem_filter.1 hl'
  exact ⟨line', mem, eq_of_beq place, effect⟩

/-- A layout that is like a coherent one is coherent. -/
theorem coherent (h : l.Alike m) (hl : l.Coherent) : m.Coherent where
  names_nodup := h.names_perm.nodup_iff.1 hl.names_nodup
  inputs_symbols := by
    refine forall_isSymbol_iff.2 fun text ht => ?_
    exact forall_isSymbol_iff.1 hl.inputs_symbols text ((h.inputs_iff text).2 ht)
  stack_symbols := by
    refine forall_isSymbol_iff.2 fun text ht => ?_
    exact forall_isSymbol_iff.1 hl.stack_symbols text ((h.stack_iff text).2 ht)
  stack_proper := by
    rw [← h.symbolsOf_stack_iff]
    exact hl.stack_proper
  initialState_mem := by
    rw [← h.initialState_eq]
    exact h.names_perm.subset hl.initialState_mem
  initialSymbol_mem := by
    obtain ⟨s, hs, mem⟩ := hl.initialSymbol_mem
    exact ⟨s, symbol?_congr h.initialSymbol_eq ▸ hs, (h.symbolsOf_stack_iff s).1 mem⟩
  transitions_refer line hm := by
    obtain ⟨line', hl', place, effect⟩ := h.exists_counterpart hm
    exact refers_of_place_of_effect place effect ((hl.transitions_refer line' hl').mono
      h.names_perm.subset (fun s => (h.symbolsOf_inputs_iff s).1)
      fun s => (h.symbolsOf_stack_iff s).1)

end Layout.Alike

/-! ## Automata of layouts that are alike -/

/-- A line is a transition of the state of a name exactly if it is of that place. -/
theorem isFrom_eq_place {names : List String} {name : String} (h : name ∈ names)
    (input top : Symbol) (line : TransitionLine) :
    line.IsFrom names (stateOf names name) input top =
      (line.place == (name, String.singleton input, String.singleton top)) := by
  have inside := List.idxOf_lt_length_iff.2 h
  have found : names[names.idxOf name]? = some name :=
    List.getElem?_eq_some_iff.2 ⟨inside, List.getElem_idxOf inside⟩
  rw [Bool.eq_iff_iff]
  simp only [TransitionLine.IsFrom, stateOf, found, TransitionLine.place, Bool.and_eq_true,
    beq_iff_eq, Option.some.injEq, symbol?_eq_some_iff, Prod.mk.injEq, and_assoc]
  rw [eq_comm (a := name)]

/-- The initial state has the name that the layout gives it. -/
theorem nameOf_initialState (h : l.build = .ok a) :
    a.nameOf a.initialState = l.initialState.text := by
  have described := Layout.describes_of_build h
  have declared := (Layout.build_eq_ok_iff.1 h).1.initialState_mem
  rw [described.initialState_eq, stateOf, ← described.names_eq]
  rw [← described.names_eq] at declared
  exact Automaton.nameOf_idxOf declared

/-- What an automaton does at a place is what its layout says, in the order of the text. -/
theorem effects_of_build (h : l.build = .ok a) (name : String) (input top : Symbol) :
    a.effects name input top = l.effects (name, String.singleton input, String.singleton top) := by
  have coherent := (Layout.build_eq_ok_iff.1 h).1
  have described := Layout.describes_of_build h
  have names : a.names = l.names := described.names_eq
  rw [Automaton.effects, Automaton.find?_eq, names]
  by_cases declared : name ∈ l.names
  · have places : TransitionLine.IsFrom l.names (stateOf l.names name) input top =
        (·.place == (name, String.singleton input, String.singleton top)) :=
      funext (isFrom_eq_place declared input top)
    rw [if_pos declared, Layout.effects]
    dsimp only
    rw [show (⟨l.names.idxOf name⟩ : StateId) = stateOf l.names name from rfl,
      described.outcomes_eq, places, List.map_map]
    refine List.map_congr_left fun line hl => ?_
    have target : line.target.text ∈ a.names := by
      rw [names]
      exact (coherent.transitions_refer line (List.mem_filter.1 hl).1).target_mem
    have entered := Automaton.nameOf_idxOf target
    rw [names] at entered
    exact Prod.ext entered rfl
  · rw [if_neg declared]
    refine (Layout.effects_eq_nil fun line hl place => declared ?_).symm
    rw [← (Prod.mk.inj place).1]
    exact (coherent.transitions_refer line hl).source_mem

/-- Layouts that are alike make automata that are alike. -/
theorem Layout.Alike.alike (h : l.Alike m) (ha : l.build = .ok a) (hb : m.build = .ok b) :
    a.Alike b := by
  have of_l := describes_of_build ha
  have of_m := describes_of_build hb
  refine ⟨fun name => ?_, Alphabet.ext_mem fun s => ?_, Alphabet.ext_mem fun s => ?_, ?_, ?_,
    fun name input top => ?_⟩
  · show name ∈ a.states.toList.map State.name ↔ name ∈ b.states.toList.map State.name
    rw [of_l.names_eq, of_m.names_eq]
    exact h.names_perm.mem_iff
  · rw [of_l.mem_input_iff, of_m.mem_input_iff, h.symbolsOf_inputs_iff]
  · rw [of_l.mem_stack_iff, of_m.mem_stack_iff, h.symbolsOf_stack_iff]
  · rw [nameOf_initialState ha, nameOf_initialState hb, h.initialState_eq]
  · have symbol := of_l.initialSymbol_eq
    rw [symbol?_congr h.initialSymbol_eq, of_m.initialSymbol_eq] at symbol
    exact (Option.some.inj symbol).symm
  · rw [effects_of_build ha, effects_of_build hb, h.effects_eq]

/-! ## Main result -/

/-- **Immaterial differences cannot be seen.** Automata with states of the same names that do the
same run alike, whatever the numbers of their states; and a text whose layout is like that of a
text that is loaded is loaded too, as an automaton that runs alike. -/
theorem runs_of_alike :
    (∀ a b : Automaton, a.IsBuilt → b.IsBuilt → a.Alike b → a.RunsLike b) ∧
    ∀ (text text' : String) (l m : Layout) (a : Automaton), text'.utf8ByteSize ≤ sizeLimit →
      Layout.read text = .ok l → Layout.read text' = .ok m → l.Alike m → load text = .ok a →
        ∃ b, load text' = .ok b ∧ a.RunsLike b := by
  have run_alike (a b : Automaton) (ha : a.IsBuilt) (hb : b.IsBuilt) (h : a.Alike b) :
      a.RunsLike b := h.runsLike ha.closed hb.closed
  refine ⟨run_alike, fun text text' l m a small read read' h loaded => ?_⟩
  obtain ⟨-, l', same, build⟩ := load_eq_ok_iff.1 loaded
  cases read.symm.trans same
  have coherent := h.coherent (Layout.build_eq_ok_iff.1 build).1
  obtain ⟨s, hs, -⟩ := coherent.initialSymbol_mem
  have build' := Layout.build_eq_ok_iff.2 ⟨coherent, s, hs, rfl⟩
  have loaded' := load_eq_ok_iff.2 ⟨small, m, read', build'⟩
  exact ⟨_, loaded', run_alike _ _ (isBuilt_of_load loaded) (isBuilt_of_load loaded')
    (h.alike build build')⟩

/-- A definition whose lines stand in the order of their places. -/
def tidy : String :=
  "a b\n0 1\nX Z\na\nZ\na 0 Z a XZ\na 0 Z b .\na 1 X b X\nb . X b .\nb . Z b ."

/-- The same automaton, with everything in another order that may be, and with empty symbols in what
is pushed. -/
def untidy : String :=
  "b a\n1 0\nZ X\na\nZ\nb . Z b ...\na 1 X b .X\na 0 Z a X.Z\nb . X b .\na 0 Z b ."

/-- The layout of `tidy`. -/
def tidyLayout : Layout where
  states := [⟨"a", 1⟩, ⟨"b", 1⟩]
  inputSymbols := [⟨"0", 2⟩, ⟨"1", 2⟩]
  stackSymbols := [⟨"X", 3⟩, ⟨"Z", 3⟩]
  initialState := ⟨"a", 4⟩
  initialSymbol := ⟨"Z", 5⟩
  transitions := [
    ⟨⟨"a", 6⟩, ⟨"0", 6⟩, ⟨"Z", 6⟩, ⟨"a", 6⟩, ⟨"XZ", 6⟩⟩,
    ⟨⟨"a", 7⟩, ⟨"0", 7⟩, ⟨"Z", 7⟩, ⟨"b", 7⟩, ⟨".", 7⟩⟩,
    ⟨⟨"a", 8⟩, ⟨"1", 8⟩, ⟨"X", 8⟩, ⟨"b", 8⟩, ⟨"X", 8⟩⟩,
    ⟨⟨"b", 9⟩, ⟨".", 9⟩, ⟨"X", 9⟩, ⟨"b", 9⟩, ⟨".", 9⟩⟩,
    ⟨⟨"b", 10⟩, ⟨".", 10⟩, ⟨"Z", 10⟩, ⟨"b", 10⟩, ⟨".", 10⟩⟩]

/-- The layout of `untidy`. -/
def untidyLayout : Layout where
  states := [⟨"b", 1⟩, ⟨"a", 1⟩]
  inputSymbols := [⟨"1", 2⟩, ⟨"0", 2⟩]
  stackSymbols := [⟨"Z", 3⟩, ⟨"X", 3⟩]
  initialState := ⟨"a", 4⟩
  initialSymbol := ⟨"Z", 5⟩
  transitions := [
    ⟨⟨"b", 6⟩, ⟨".", 6⟩, ⟨"Z", 6⟩, ⟨"b", 6⟩, ⟨"...", 6⟩⟩,
    ⟨⟨"a", 7⟩, ⟨"1", 7⟩, ⟨"X", 7⟩, ⟨"b", 7⟩, ⟨".X", 7⟩⟩,
    ⟨⟨"a", 8⟩, ⟨"0", 8⟩, ⟨"Z", 8⟩, ⟨"a", 8⟩, ⟨"X.Z", 8⟩⟩,
    ⟨⟨"b", 9⟩, ⟨".", 9⟩, ⟨"X", 9⟩, ⟨"b", 9⟩, ⟨".", 9⟩⟩,
    ⟨⟨"a", 10⟩, ⟨"0", 10⟩, ⟨"Z", 10⟩, ⟨"b", 10⟩, ⟨".", 10⟩⟩]

/-- Both texts are loaded, with the states numbered differently, and their runs cannot be told
apart. -/
theorem runs_of_alike_untidy :
    tidyLayout.Alike untidyLayout ∧ ∃ a b, load tidy = .ok a ∧ load untidy = .ok b ∧
      a.initialState ≠ b.initialState ∧ a.Alike b ∧ a.RunsLike b := by
  have small : tidy.utf8ByteSize ≤ sizeLimit := by decide
  have small' : untidy.utf8ByteSize ≤ sizeLimit := by decide
  have read : Layout.read tidy = .ok tidyLayout := Layout.read_eq_ok_iff.2 (by decide)
  have read' : Layout.read untidy = .ok untidyLayout := Layout.read_eq_ok_iff.2 (by decide)
  have alike : tidyLayout.Alike untidyLayout := by decide
  have coherent : tidyLayout.Coherent := by decide
  have build := Layout.build_eq_ok_iff.2 ⟨coherent, 'Z', by decide, rfl⟩
  have loaded := load_eq_ok_iff.2 ⟨small, tidyLayout, read, build⟩
  obtain ⟨runs, texts⟩ := runs_of_alike
  obtain ⟨b, loaded', -⟩ := texts tidy untidy _ _ _ small' read read' alike loaded
  obtain ⟨-, m, same, build'⟩ := load_eq_ok_iff.1 loaded'
  cases read'.symm.trans same
  have automata := alike.alike build build'
  have renumbered : stateOf tidyLayout.names tidyLayout.initialState.text ≠ b.initialState := by
    rw [(Layout.describes_of_build build').initialState_eq]
    decide
  exact ⟨alike, _, b, loaded, loaded', renumbered, automata,
    runs _ b (isBuilt_of_load loaded) (isBuilt_of_load loaded') automata⟩

end Pushdown.Definition
