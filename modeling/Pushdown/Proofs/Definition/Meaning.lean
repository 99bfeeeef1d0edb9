import Pushdown.Proofs.Builder.Closed
import Pushdown.Proofs.Definition.Assembly
import Pushdown.Proofs.Definition.LineFormat

/-!
# What a definition means

Which layouts describe an automaton, and which one. A layout is *coherent* if it names only what it
declares and declares nothing twice that may be declared only once (`Layout.Coherent`); the
automaton that it then describes can be read off its tokens (`Layout.Describes`).

The loader checks all this piecemeal, call after call, against a builder that is still growing. Its
loops are settled one by one, each as an equivalence that also gives the builder made:

> `addStates_eq_ok_iff`, `addInputs_eq_ok_iff`, `addStacks_eq_ok_iff`: the three rows of
> declarations, which together make `Layout.declared`;
> `addTransitions_eq_ok_iff`: the transitions, each of which is checked against what the rows have
> declared, since no transition declares anything.

What the finished tables offer follows from the order of a table:

> `offered_foldl_withLine`: in a state, under a key, the outcomes of its lines are offered in the
> order of the text, and nothing else.

Together:

> `load_coherent`: a text that is laid out as a definition is loaded exactly when its layout is
> coherent, and the automaton is the one that the layout describes.
-/

namespace Pushdown.Definition

open Automaton (Builder)
open Transition (Key Outcome)

/-! ## Coherent layouts -/

/-- Whether a token is a single character. -/
def Token.IsSymbol (t : Token) : Prop := t.text.length = 1

instance (t : Token) : Decidable t.IsSymbol := inferInstanceAs (Decidable (_ = _))

/-- The symbols among some tokens. -/
def symbolsOf (ts : List Token) : List Symbol := ts.filterMap Token.symbol?

/-- The names of the states that a layout declares. -/
def Layout.names (l : Layout) : List String := l.states.map Token.text

/-- A transition line whose symbols are symbols and which names only what there is. -/
structure TransitionLine.Refers (names : List String) (inputs stack : Symbol → Prop)
    (line : TransitionLine) : Prop where
  source_mem : line.source.text ∈ names
  input_mem : ∃ s, line.input.symbol? = some s ∧ (s = Symbol.epsilon ∨ inputs s)
  top_mem : ∃ s, line.top.symbol? = some s ∧ stack s
  target_mem : line.target.text ∈ names
  push_mem : ∀ s ∈ line.push.text.toList, s = Symbol.epsilon ∨ stack s

/-- A layout that declares each state once and names only what it declares. -/
structure Layout.Coherent (l : Layout) : Prop where
  names_nodup : l.names.Nodup
  inputs_symbols : ∀ t ∈ l.inputSymbols, t.IsSymbol
  stack_symbols : ∀ t ∈ l.stackSymbols, t.IsSymbol
  stack_proper : Symbol.epsilon ∉ symbolsOf l.stackSymbols
  initialState_mem : l.initialState.text ∈ l.names
  initialSymbol_mem : ∃ s, l.initialSymbol.symbol? = some s ∧ s ∈ symbolsOf l.stackSymbols
  transitions_refer : ∀ line ∈ l.transitions, line.Refers l.names
    (· ∈ symbolsOf l.inputSymbols) (· ∈ symbolsOf l.stackSymbols)

instance {names : List String} {inputs stack : Symbol → Prop} [DecidablePred inputs]
    [DecidablePred stack] (line : TransitionLine) : Decidable (line.Refers names inputs stack) :=
  decidable_of_iff
    (line.source.text ∈ names ∧
      (line.input.symbol?.any fun s => s == Symbol.epsilon || decide (inputs s)) = true ∧
      (line.top.symbol?.any fun s => decide (stack s)) = true ∧ line.target.text ∈ names ∧
      (line.push.text.toList.all fun s => s == Symbol.epsilon || decide (stack s)) = true) <| by
    simp only [Option.any_eq_true, List.all_eq_true, Bool.or_eq_true, beq_iff_eq,
      decide_eq_true_iff]
    exact ⟨fun ⟨source, input, top, target, push⟩ => ⟨source, input, top, target, push⟩,
      fun ⟨source, input, top, target, push⟩ => ⟨source, input, top, target, push⟩⟩

instance (l : Layout) : Decidable l.Coherent :=
  decidable_of_iff
    (l.names.Nodup ∧ (∀ t ∈ l.inputSymbols, t.IsSymbol) ∧ (∀ t ∈ l.stackSymbols, t.IsSymbol) ∧
      Symbol.epsilon ∉ symbolsOf l.stackSymbols ∧ l.initialState.text ∈ l.names ∧
      (l.initialSymbol.symbol?.any fun s => decide (s ∈ symbolsOf l.stackSymbols)) = true ∧
      ∀ line ∈ l.transitions, line.Refers l.names
        (· ∈ symbolsOf l.inputSymbols) (· ∈ symbolsOf l.stackSymbols)) <| by
    simp only [Option.any_eq_true, decide_eq_true_iff]
    exact ⟨fun ⟨names, inputs, stack, proper, state, symbol, transitions⟩ =>
        ⟨names, inputs, stack, proper, state, symbol, transitions⟩,
      fun ⟨names, inputs, stack, proper, state, symbol, transitions⟩ =>
        ⟨names, inputs, stack, proper, state, symbol, transitions⟩⟩

/-! ## Described automata -/

/-- The number of a named state: its place among the names. -/
def stateOf (names : List String) (name : String) : StateId := ⟨names.idxOf name⟩

/-- Whether a line is a transition of a state under an input symbol and a stack top. -/
def TransitionLine.IsFrom (names : List String) (id : StateId) (input top : Symbol)
    (line : TransitionLine) : Bool :=
  names[id.index]? == some line.source.text && line.input.symbol? == some input &&
    line.top.symbol? == some top

/-- What a line offers. -/
def TransitionLine.outcome (names : List String) (line : TransitionLine) : Outcome :=
  ⟨stateOf names line.target.text, line.push.text.toList⟩

/-- The automaton that the tokens of a layout describe. -/
structure Layout.Describes (l : Layout) (a : Automaton) : Prop where
  names_eq : a.states.toList.map State.name = l.names
  mem_input_iff : ∀ s, s ∈ a.inputAlphabet ↔ s ∈ symbolsOf l.inputSymbols ∧ s ≠ Symbol.epsilon
  mem_stack_iff : ∀ s, s ∈ a.stackAlphabet ↔ s ∈ symbolsOf l.stackSymbols
  initialState_eq : a.initialState = stateOf l.names l.initialState.text
  initialSymbol_eq : l.initialSymbol.symbol? = some a.initialSymbol
  outcomes_eq : ∀ id input top, a.outcomes id input top =
    (l.transitions.filter (TransitionLine.IsFrom l.names id input top)).map
      (TransitionLine.outcome l.names)

/-! ## Tokens that are symbols -/

theorem symbol?_eq_some_iff {t : Token} {s : Symbol} :
    t.symbol? = some s ↔ t.text = String.singleton s := by
  unfold Token.symbol?
  rw [← String.toList_inj, String.toList_singleton]
  split
  · next s' h =>
    rw [h]
    simp
  · next other =>
    exact ⟨fun h => (by cases h), fun h => absurd h (other s)⟩

theorem isSymbol_iff {t : Token} : t.IsSymbol ↔ ∃ s, t.symbol? = some s := by
  unfold Token.IsSymbol
  rw [← String.length_toList, List.length_eq_one_iff]
  refine exists_congr fun s => ?_
  rw [symbol?_eq_some_iff, ← String.toList_inj, String.toList_singleton]

theorem onLine_eq_ok_iff {α : Type} {line : Nat} {x : Except DefinitionFault α} {a : α} :
    onLine line x = .ok a ↔ x = .ok a := by
  cases x with
  | ok b => exact Iff.rfl
  | error fault => exact ⟨fun h => (by cases h), fun h => (by cases h)⟩

theorem demandSymbol_eq_ok_iff {t : Token} {s : Symbol} :
    demandSymbol t = .ok s ↔ t.symbol? = some s := by
  unfold demandSymbol
  cases t.symbol? with
  | some s' => simp
  | none => simp

/-! ## The rows of declarations -/

theorem addState_eq_ok_iff {t : Token} {b b' : Builder} :
    addState b t = .ok b' ↔
      t.text ∉ b.names ∧ b' = { b with states := b.states.push ⟨t.text, .empty⟩ } := by
  unfold addState
  simp only [bind_eq_ok_iff, onLine_eq_ok_iff, Prod.exists, Builder.declareState_eq_ok_iff]
  constructor
  · intro h
    obtain ⟨id, made, ⟨fresh, -, rfl⟩, same⟩ := h
    cases same
    exact ⟨fresh, rfl⟩
  · intro h
    obtain ⟨fresh, rfl⟩ := h
    exact ⟨_, _, ⟨fresh, rfl, rfl⟩, rfl⟩

theorem addInput_eq_ok_iff {t : Token} {b b' : Builder} :
    addInput b t = .ok b' ↔
      ∃ s, t.symbol? = some s ∧
        b' = if s.isEpsilon then b else { b with inputAlphabet := b.inputAlphabet.insert s } := by
  unfold addInput
  rw [bind_eq_ok_iff]
  refine exists_congr fun s => ?_
  rw [demandSymbol_eq_ok_iff]
  refine and_congr_right fun _ => ?_
  cases epsilon : s.isEpsilon with
  | true =>
    rw [if_pos rfl, if_pos rfl]
    exact ⟨fun h => (Except.ok.inj h).symm, fun h => congrArg _ h.symm⟩
  | false =>
    have proper : s ≠ Symbol.epsilon := by
      rintro rfl
      exact absurd epsilon (by decide)
    rw [if_neg Bool.false_ne_true, if_neg Bool.false_ne_true, onLine_eq_ok_iff,
      Builder.declareInput_eq_ok_iff]
    exact and_iff_right proper

theorem addStack_eq_ok_iff {t : Token} {b b' : Builder} :
    addStack b t = .ok b' ↔
      ∃ s, t.symbol? = some s ∧ s ≠ Symbol.epsilon ∧
        b' = { b with stackAlphabet := b.stackAlphabet.insert s } := by
  unfold addStack
  rw [bind_eq_ok_iff]
  refine exists_congr fun s => ?_
  rw [demandSymbol_eq_ok_iff, onLine_eq_ok_iff, Builder.declareStack_eq_ok_iff]

/-- The states are declared if no name occurs twice, each with a table that offers nothing. -/
theorem addStates_eq_ok_iff {ts : List Token} {b b' : Builder} :
    ts.foldlM addState b = .ok b' ↔
      ((ts.map Token.text).Nodup ∧ ∀ name ∈ ts.map Token.text, name ∉ b.names) ∧
        b' = { b with
          states := b.states ++ (ts.map fun t => State.mk t.text .empty).toArray } := by
  induction ts generalizing b with
  | nil => simp [pure, Except.pure, eq_comm]
  | cons t ts ih =>
    rw [List.foldlM_cons, bind_eq_ok_iff]
    simp only [addState_eq_ok_iff, ih, List.map_cons, List.nodup_cons, List.forall_mem_cons]
    have names_push (name : String) :
        name ∉ Builder.names { b with states := b.states.push ⟨t.text, .empty⟩ } ↔
          name ∉ b.names ∧ name ≠ t.text := by
      simp [Builder.names]
    have states_push : b.states.push ⟨t.text, .empty⟩ ++
        (ts.map fun t => State.mk t.text .empty).toArray =
          b.states ++ ((t :: ts).map fun t => State.mk t.text .empty).toArray := by
      simp
    constructor
    · intro h
      obtain ⟨_, ⟨fresh, rfl⟩, ⟨distinct, others⟩, rfl⟩ := h
      refine ⟨⟨⟨fun again => ?_, distinct⟩, fresh, fun name h => ?_⟩, ?_⟩
      · exact ((names_push _).1 (others _ again)).2 rfl
      · exact ((names_push _).1 (others _ h)).1
      · exact congrArg (fun states => { b with states }) states_push
    · intro h
      obtain ⟨⟨⟨once, distinct⟩, fresh, others⟩, rfl⟩ := h
      refine ⟨_, ⟨fresh, rfl⟩, ⟨distinct, fun name h => ?_⟩, ?_⟩
      · exact (names_push _).2 ⟨others name h, fun same => once (same ▸ h)⟩
      · exact congrArg (fun states => { b with states }) states_push.symm

/-- The input symbols are declared if each is one; the empty one is passed over. -/
theorem addInputs_eq_ok_iff {ts : List Token} {b b' : Builder} :
    ts.foldlM addInput b = .ok b' ↔
      (∀ t ∈ ts, t.IsSymbol) ∧
        b' = { b with inputAlphabet :=
          (Symbol.withoutEpsilon (symbolsOf ts)).foldl Alphabet.insert b.inputAlphabet } := by
  induction ts generalizing b with
  | nil => simp [pure, Except.pure, eq_comm, symbolsOf]
  | cons t ts ih =>
    rw [List.foldlM_cons, bind_eq_ok_iff, List.forall_mem_cons, isSymbol_iff]
    simp only [addInput_eq_ok_iff, ih]
    have one_more {s : Symbol} (hs : t.symbol? = some s) :
        symbolsOf (t :: ts) = s :: symbolsOf ts := List.filterMap_cons_some hs
    constructor
    · intro h
      obtain ⟨_, ⟨s, hs, rfl⟩, rest, rfl⟩ := h
      refine ⟨⟨⟨s, hs⟩, rest⟩, ?_⟩
      rw [one_more hs, Symbol.withoutEpsilon_cons]
      split <;> rfl
    · intro h
      obtain ⟨⟨⟨s, hs⟩, rest⟩, rfl⟩ := h
      refine ⟨_, ⟨s, hs, rfl⟩, rest, ?_⟩
      rw [one_more hs, Symbol.withoutEpsilon_cons]
      split <;> rfl

/-- The stack symbols are declared if each is one, and not the empty one. -/
theorem addStacks_eq_ok_iff {ts : List Token} {b b' : Builder} :
    ts.foldlM addStack b = .ok b' ↔
      ((∀ t ∈ ts, t.IsSymbol) ∧ Symbol.epsilon ∉ symbolsOf ts) ∧
        b' = { b with stackAlphabet :=
          (symbolsOf ts).foldl Alphabet.insert b.stackAlphabet } := by
  induction ts generalizing b with
  | nil => simp [pure, Except.pure, eq_comm, symbolsOf]
  | cons t ts ih =>
    rw [List.foldlM_cons, bind_eq_ok_iff, List.forall_mem_cons, isSymbol_iff]
    simp only [addStack_eq_ok_iff, ih]
    have one_more {s : Symbol} (hs : t.symbol? = some s) :
        symbolsOf (t :: ts) = s :: symbolsOf ts := List.filterMap_cons_some hs
    constructor
    · intro h
      obtain ⟨_, ⟨s, hs, proper, rfl⟩, ⟨rest, others⟩, rfl⟩ := h
      rw [one_more hs, List.mem_cons, not_or]
      exact ⟨⟨⟨⟨s, hs⟩, rest⟩, proper.symm, others⟩, rfl⟩
    · intro h
      obtain ⟨⟨⟨⟨s, hs⟩, rest⟩, proper⟩, rfl⟩ := h
      rw [one_more hs, List.mem_cons, not_or] at proper
      rw [one_more hs]
      exact ⟨_, ⟨s, hs, Ne.symm proper.1, rfl⟩, ⟨rest, proper.2⟩, rfl⟩

/-! ## The transitions -/

/-- What a line chooses its outcome by, if its symbols are symbols. -/
def TransitionLine.key (line : TransitionLine) : Key :=
  ⟨line.input.symbol?.getD Symbol.epsilon, line.top.symbol?.getD Symbol.epsilon⟩

/-- The builder with the transition of a line. -/
def withLine (b : Builder) (line : TransitionLine) : Builder :=
  b.withOutcome (b.names.idxOf line.source.text) line.key (line.outcome b.names)

@[simp] theorem names_withLine (b : Builder) (line : TransitionLine) :
    (withLine b line).names = b.names :=
  Builder.names_withOutcome b _ _ _

/-- What the transition of a line is, if its symbols are symbols. -/
theorem withLine_eq {line : TransitionLine} {input top : Symbol}
    (hi : line.input.symbol? = some input) (ht : line.top.symbol? = some top) (b : Builder) :
    withLine b line = b.withOutcome (b.names.idxOf line.source.text) ⟨input, top⟩
      ⟨⟨b.names.idxOf line.target.text⟩, Symbol.ofText line.push.text⟩ := by
  rw [withLine, TransitionLine.key, hi, ht]
  rfl

/-- Whether a line names only what has been declared. -/
abbrev Permits (b : Builder) (line : TransitionLine) : Prop :=
  line.Refers b.names (· ∈ b.inputAlphabet) (· ∈ b.stackAlphabet)

/-- A transition declares nothing. -/
theorem permits_withLine_iff {b : Builder} {line line' : TransitionLine} :
    Permits (withLine b line) line' ↔ Permits b line' := by
  unfold Permits
  rw [names_withLine]
  exact Iff.rfl

theorem addTransition_eq_ok_iff {b b' : Builder} {line : TransitionLine} :
    addTransition b line = .ok b' ↔ Permits b line ∧ b' = withLine b line := by
  unfold addTransition
  simp only [bind_eq_ok_iff, demandSymbol_eq_ok_iff, onLine_eq_ok_iff,
    Builder.addTransition_eq_ok_iff]
  constructor
  · intro h
    obtain ⟨input, hi, top, ht, source_mem, target_mem, input_ok, top_ok, push_ok, rfl⟩ := h
    refine ⟨⟨source_mem, ⟨input, hi, input_ok⟩, ⟨top, ht, top_ok⟩, target_mem, push_ok⟩, ?_⟩
    exact (withLine_eq hi ht b).symm
  · intro h
    obtain ⟨⟨source_mem, ⟨input, hi, input_ok⟩, ⟨top, ht, top_ok⟩, target_mem, push_ok⟩, rfl⟩ := h
    refine ⟨input, hi, top, ht, source_mem, target_mem, input_ok, top_ok, push_ok, ?_⟩
    exact withLine_eq hi ht b

/-- The transitions are added if each names only what was declared before all of them, for a
transition declares nothing. -/
theorem addTransitions_eq_ok_iff {lines : List TransitionLine} {b b' : Builder} :
    lines.foldlM addTransition b = .ok b' ↔
      (∀ line ∈ lines, Permits b line) ∧ b' = lines.foldl withLine b := by
  induction lines generalizing b with
  | nil => simp [pure, Except.pure, eq_comm]
  | cons line lines ih =>
    rw [List.foldlM_cons, bind_eq_ok_iff, List.forall_mem_cons]
    simp only [addTransition_eq_ok_iff, ih]
    constructor
    · intro h
      obtain ⟨_, ⟨refers, rfl⟩, rest, rfl⟩ := h
      exact ⟨⟨refers, fun line' h => permits_withLine_iff.1 (rest line' h)⟩, rfl⟩
    · intro h
      obtain ⟨⟨refers, rest⟩, rfl⟩ := h
      exact ⟨_, ⟨refers, rfl⟩, fun line' h => permits_withLine_iff.2 (rest line' h), rfl⟩

/-- What a builder offers in a state. -/
def offered (b : Builder) (id : StateId) (key : Key) : List Outcome :=
  match b.states[id.index]? with
  | some state => state.table.outcomes key
  | none => []

theorem closed_withLine {b : Builder} {line : TransitionLine} (closed : b.Closed)
    (refers : Permits b line) : (withLine b line).Closed := by
  obtain ⟨input, hi, input_ok⟩ := refers.input_mem
  obtain ⟨top, ht, top_ok⟩ := refers.top_mem
  exact closed.addTransition (Builder.addTransition_eq_ok_iff.2 ⟨refers.source_mem,
    refers.target_mem, input_ok, top_ok, refers.push_mem, withLine_eq hi ht b⟩)

/-- A line is a transition of the state that its name leads to, under its own key. -/
theorem isFrom_iff {names : List String} (nodup : names.Nodup) {inputs stack : Symbol → Prop}
    {line : TransitionLine} (refers : line.Refers names inputs stack) {id : StateId}
    {input top : Symbol} :
    line.IsFrom names id input top = true ↔
      names.idxOf line.source.text = id.index ∧ line.key = ⟨input, top⟩ := by
  obtain ⟨input', hi, -⟩ := refers.input_mem
  obtain ⟨top', ht, -⟩ := refers.top_mem
  have place : names[id.index]? = some line.source.text ↔
      names.idxOf line.source.text = id.index := by
    constructor
    · intro found
      obtain ⟨inside, found⟩ := List.getElem?_eq_some_iff.1 found
      rw [← found]
      exact nodup.idxOf_getElem _ inside
    · intro first
      have inside := List.idxOf_lt_length_iff.2 refers.source_mem
      rw [← first, List.getElem?_eq_some_iff]
      exact ⟨inside, List.getElem_idxOf inside⟩
  rw [TransitionLine.IsFrom, TransitionLine.key, hi, ht]
  simp [place, and_assoc]

/-- A line adds its outcome at the end of what its own state and key offer, and nothing else. -/
theorem offered_withLine {b : Builder} {line : TransitionLine} (closed : b.Closed)
    (refers : Permits b line) (id : StateId) (input top : Symbol) :
    offered (withLine b line) id ⟨input, top⟩ = offered b id ⟨input, top⟩ ++
      if line.IsFrom b.names id input top then [line.outcome b.names] else [] := by
  simp only [isFrom_iff closed.names_nodup refers]
  unfold offered withLine Builder.withOutcome
  rw [Array.getElem?_modify]
  by_cases here : b.names.idxOf line.source.text = id.index
  · have inside : id.index < b.states.size := here ▸ Builder.idxOf_lt_size refers.source_mem
    rw [if_pos here, Array.getElem?_eq_getElem inside]
    have ordered := closed.tables_ordered _ (Array.getElem_mem inside)
    show (b.states[id.index].table.add line.key _).outcomes _ = _
    rw [Transition.Table.outcomes_add ordered]
    simp [here]
  · rw [if_neg here]
    simp [here]

/-- **Lines offer their outcomes in the order of the text.** -/
theorem offered_foldl_withLine {lines : List TransitionLine} {b : Builder} (closed : b.Closed)
    (refer : ∀ line ∈ lines, Permits b line) (id : StateId) (input top : Symbol) :
    offered (lines.foldl withLine b) id ⟨input, top⟩ = offered b id ⟨input, top⟩ ++
      (lines.filter (TransitionLine.IsFrom b.names id input top)).map
        (TransitionLine.outcome b.names) := by
  induction lines generalizing b with
  | nil => simp
  | cons line lines ih =>
    obtain ⟨refers, rest⟩ := List.forall_mem_cons.1 refer
    have still : ∀ line' ∈ lines, Permits (withLine b line) line' := fun line' h =>
      permits_withLine_iff.2 (rest line' h)
    rw [List.foldl_cons, ih (closed_withLine closed refers) still, names_withLine,
      offered_withLine closed refers, List.append_assoc, List.filter_cons]
    split <;> rfl

/-! ## Whole definitions -/

namespace Layout

/-- What the rows of declarations declare. -/
def declared (l : Layout) : Builder where
  states := (l.states.map fun t => State.mk t.text .empty).toArray
  inputAlphabet := Alphabet.ofList (Symbol.withoutEpsilon (symbolsOf l.inputSymbols))
  stackAlphabet := Alphabet.ofList (symbolsOf l.stackSymbols)

/-- What the transitions make of it. -/
def complete (l : Layout) : Builder := l.transitions.foldl withLine l.declared

theorem names_declared (l : Layout) : l.declared.names = l.names := by
  simp [declared, Builder.names, names]

theorem names_foldl_withLine (lines : List TransitionLine) (b : Builder) :
    (lines.foldl withLine b).names = b.names := by
  induction lines generalizing b with
  | nil => rfl
  | cons line lines ih => rw [List.foldl_cons, ih, names_withLine]

theorem alphabets_foldl_withLine (lines : List TransitionLine) (b : Builder) :
    (lines.foldl withLine b).inputAlphabet = b.inputAlphabet ∧
      (lines.foldl withLine b).stackAlphabet = b.stackAlphabet := by
  induction lines generalizing b with
  | nil => exact ⟨rfl, rfl⟩
  | cons line lines ih => exact ih (withLine b line)

/-- What the rows declare is closed, if they may be declared. -/
theorem closed_declared {l : Layout} (nodup : l.names.Nodup)
    (proper : Symbol.epsilon ∉ symbolsOf l.stackSymbols) : l.declared.Closed where
  names_nodup := by rw [names_declared]; exact nodup
  input_proper := by
    rw [declared, Alphabet.mem_ofList, Symbol.mem_withoutEpsilon]
    exact fun h => h.2 rfl
  stack_proper := by
    rw [declared, Alphabet.mem_ofList]
    exact proper
  tables_ordered state h := by
    obtain ⟨t, -, rfl⟩ := List.mem_map.1 (List.mem_toArray.1 h)
    exact Transition.Table.ordered_empty
  entries_declared state h e he := by
    obtain ⟨t, -, rfl⟩ := List.mem_map.1 (List.mem_toArray.1 h)
    exact absurd he List.not_mem_nil

theorem offered_declared (l : Layout) (id : StateId) (key : Key) :
    offered l.declared id key = [] := by
  unfold offered
  split
  · next state h =>
    obtain ⟨t, -, rfl⟩ := List.mem_map.1 (List.mem_toArray.1 (Array.mem_of_getElem? h))
    rfl
  · rfl

theorem mem_inputAlphabet_declared {l : Layout} {s : Symbol} :
    s ∈ l.declared.inputAlphabet ↔ s ∈ symbolsOf l.inputSymbols ∧ s ≠ Symbol.epsilon := by
  rw [declared, Alphabet.mem_ofList, Symbol.mem_withoutEpsilon]

theorem mem_stackAlphabet_declared {l : Layout} {s : Symbol} :
    s ∈ l.declared.stackAlphabet ↔ s ∈ symbolsOf l.stackSymbols :=
  Alphabet.mem_ofList

/-- A line may refer to what has been declared exactly where it may refer to what is in the rows. -/
theorem permits_declared_iff {l : Layout} {line : TransitionLine} :
    Permits l.declared line ↔
      line.Refers l.names (· ∈ symbolsOf l.inputSymbols) (· ∈ symbolsOf l.stackSymbols) := by
  have input_ok (s : Symbol) : (s = Symbol.epsilon ∨ s ∈ l.declared.inputAlphabet) ↔
      (s = Symbol.epsilon ∨ s ∈ symbolsOf l.inputSymbols) := by
    rw [mem_inputAlphabet_declared]
    by_cases epsilon : s = Symbol.epsilon
    · simp [epsilon]
    · simp [epsilon]
  unfold Permits
  rw [names_declared]
  simp only [mem_stackAlphabet_declared]
  constructor
  · intro h
    exact { h with input_mem := h.input_mem.imp fun s hs => ⟨hs.1, (input_ok s).1 hs.2⟩ }
  · intro h
    exact { h with input_mem := h.input_mem.imp fun s hs => ⟨hs.1, (input_ok s).2 hs.2⟩ }

/-- The rows are declared exactly if no name occurs twice and the symbols are symbols, and on the
stack not the empty one. -/
theorem declarations_eq_ok_iff {l : Layout} {b : Builder} :
    (∃ b₁, l.states.foldlM addState .empty = .ok b₁ ∧
      ∃ b₂, l.inputSymbols.foldlM addInput b₁ = .ok b₂ ∧
        l.stackSymbols.foldlM addStack b₂ = .ok b) ↔
      (l.names.Nodup ∧ (∀ t ∈ l.inputSymbols, t.IsSymbol) ∧ (∀ t ∈ l.stackSymbols, t.IsSymbol) ∧
        Symbol.epsilon ∉ symbolsOf l.stackSymbols) ∧ b = l.declared := by
  have all_declared :
      { states := Builder.empty.states ++ (l.states.map fun t => State.mk t.text .empty).toArray
        inputAlphabet := (Symbol.withoutEpsilon (symbolsOf l.inputSymbols)).foldl Alphabet.insert
          Builder.empty.inputAlphabet
        stackAlphabet := (symbolsOf l.stackSymbols).foldl Alphabet.insert
          Builder.empty.stackAlphabet } = l.declared := by
    simp [declared, Builder.empty, Alphabet.ofList]
  simp only [addStates_eq_ok_iff, addInputs_eq_ok_iff, addStacks_eq_ok_iff, ← all_declared]
  constructor
  · intro h
    obtain ⟨_, ⟨⟨nodup, -⟩, rfl⟩, _, ⟨inputs, rfl⟩, ⟨stack, proper⟩, rfl⟩ := h
    exact ⟨⟨nodup, inputs, stack, proper⟩, rfl⟩
  · intro h
    obtain ⟨⟨nodup, inputs, stack, proper⟩, rfl⟩ := h
    exact ⟨_, ⟨⟨nodup, fun _ _ => List.not_mem_nil⟩, rfl⟩, _, ⟨inputs, rfl⟩, ⟨stack, proper⟩, rfl⟩

/-- A layout makes an automaton exactly when it is coherent. -/
theorem build_eq_ok_iff {l : Layout} {a : Automaton} :
    l.build = .ok a ↔
      l.Coherent ∧ ∃ s, l.initialSymbol.symbol? = some s ∧
        a = ⟨l.complete.states, l.declared.inputAlphabet, l.declared.stackAlphabet,
          stateOf l.names l.initialState.text, s⟩ := by
  have complete_names : l.complete.names = l.names := by
    rw [complete, names_foldl_withLine, names_declared]
  obtain ⟨complete_inputs, complete_stack⟩ := alphabets_foldl_withLine l.transitions l.declared
  rw [build_eq]
  simp only [bind_eq_ok_iff, demandSymbol_eq_ok_iff, addTransitions_eq_ok_iff, onLine_eq_ok_iff,
    Builder.demand_eq_ok_iff, Builder.build_eq_ok_iff]
  constructor
  · intro h
    obtain ⟨b₁, h₁, b₂, h₂, b₃, h₃, s, hs, _, ⟨refer, rfl⟩, _, symbol_mem, name_mem, -, rfl⟩ := h
    obtain ⟨⟨nodup, inputs, stack, proper⟩, rfl⟩ :=
      declarations_eq_ok_iff.1 ⟨b₁, h₁, b₂, h₂, h₃⟩
    rw [← complete, complete_names] at name_mem
    rw [complete_stack, mem_stackAlphabet_declared] at symbol_mem
    refine ⟨⟨nodup, inputs, stack, proper, name_mem, ⟨s, hs, symbol_mem⟩, fun line h =>
      permits_declared_iff.1 (refer line h)⟩, s, hs, ?_⟩
    rw [complete_inputs, complete_stack, ← complete, complete_names]
    rfl
  · intro h
    obtain ⟨coherent, s, hs, rfl⟩ := h
    obtain ⟨b₁, h₁, b₂, h₂, h₃⟩ := declarations_eq_ok_iff.2
      ⟨⟨coherent.names_nodup, coherent.inputs_symbols, coherent.stack_symbols,
        coherent.stack_proper⟩, rfl⟩
    have symbol_mem : s ∈ l.complete.stackAlphabet := by
      obtain ⟨s', hs', mem⟩ := coherent.initialSymbol_mem
      rw [complete, complete_stack, mem_stackAlphabet_declared]
      cases hs.symm.trans hs'
      exact mem
    refine ⟨b₁, h₁, b₂, h₂, l.declared, h₃, s, hs, l.complete, ⟨fun line h =>
      permits_declared_iff.2 (coherent.transitions_refer line h), rfl⟩, (), symbol_mem, ?_⟩
    rw [complete_names]
    refine ⟨coherent.initialState_mem, symbol_mem, ?_⟩
    rw [complete, complete_inputs, complete_stack]
    rfl

/-- The automaton of a coherent layout is the one it describes. -/
theorem describes_of_build {l : Layout} {a : Automaton} (h : l.build = .ok a) : l.Describes a := by
  obtain ⟨coherent, s, hs, rfl⟩ := build_eq_ok_iff.1 h
  refine ⟨?_, fun s => mem_inputAlphabet_declared, fun s => mem_stackAlphabet_declared, rfl, hs,
    fun id input top => ?_⟩
  · show l.complete.names = l.names
    rw [complete, names_foldl_withLine, names_declared]
  · show offered l.complete id ⟨input, top⟩ = _
    have closed := closed_declared coherent.names_nodup coherent.stack_proper
    have refer : ∀ line ∈ l.transitions, Permits l.declared line := fun line h =>
      permits_declared_iff.2 (coherent.transitions_refer line h)
    rw [complete, offered_foldl_withLine closed refer, offered_declared, names_declared]
    rfl

end Layout

/-- **Loading is exact.** A text of a permitted size that is laid out as a definition is loaded
exactly when its layout is coherent, and the automaton is then the one that the layout
describes. -/
theorem load_coherent {text : String} {l : Layout} (small : text.utf8ByteSize ≤ sizeLimit)
    (read : Layout.read text = .ok l) :
    ((∃ a, load text = .ok a) ↔ l.Coherent) ∧ ∀ a, load text = .ok a → l.Describes a := by
  have loaded (a : Automaton) : load text = .ok a ↔ l.build = .ok a := by
    rw [load_of_read_eq_ok small read]
    cases l.build with
    | error fault => exact ⟨fun h => (by cases h), fun h => (by cases h)⟩
    | ok a' => exact ⟨fun h => congrArg _ (Except.ok.inj h), fun h => congrArg _ (Except.ok.inj h)⟩
  refine ⟨?_, fun a ha => Layout.describes_of_build ((loaded a).1 ha)⟩
  constructor
  · intro h
    obtain ⟨a, ha⟩ := h
    exact (Layout.build_eq_ok_iff.1 ((loaded a).1 ha)).1
  · intro coherent
    obtain ⟨s, hs, -⟩ := coherent.initialSymbol_mem
    exact ⟨_, (loaded _).2 (Layout.build_eq_ok_iff.2 ⟨coherent, s, hs, rfl⟩)⟩

/-- The layout of `commented`. -/
def commentedLayout : Layout where
  states := [⟨"q", 2⟩]
  inputSymbols := [⟨"(", 3⟩, ⟨"#", 3⟩]
  stackSymbols := [⟨"Z", 4⟩, ⟨"C", 4⟩]
  initialState := ⟨"q", 6⟩
  initialSymbol := ⟨"Z", 7⟩
  transitions := [⟨⟨"q", 8⟩, ⟨"#", 8⟩, ⟨"Z", 8⟩, ⟨"q", 8⟩, ⟨".", 8⟩⟩]

/-- The one transition of `commented` is what its automaton offers. -/
theorem load_coherent_commented :
    commented.utf8ByteSize ≤ sizeLimit ∧ Layout.read commented = .ok commentedLayout ∧
      ∃ a, load commented = .ok a ∧ a.outcomes ⟨0⟩ '#' 'Z' = [⟨⟨0⟩, ['.']⟩] := by
  have small : commented.utf8ByteSize ≤ sizeLimit := by decide
  have read : Layout.read commented = .ok commentedLayout :=
    Layout.read_eq_ok_iff.2 (by decide)
  have coherent : commentedLayout.Coherent := by
    refine ⟨by decide, ?_, ?_, by decide, by decide, ⟨'Z', by decide, by decide⟩, ?_⟩
    · decide
    · decide
    · refine List.forall_mem_singleton.2
        ⟨by decide, ⟨'#', by decide, Or.inr ?_⟩, ⟨'Z', by decide, by decide⟩, by decide, ?_⟩
      · show '#' ∈ symbolsOf commentedLayout.inputSymbols
        decide
      · show ∀ s ∈ ['.'], _
        exact List.forall_mem_singleton.2 (Or.inl rfl)
  obtain ⟨loaded, described⟩ := load_coherent small read
  obtain ⟨a, ha⟩ := loaded.2 coherent
  exact ⟨small, read, a, ha, by rw [(described a ha).outcomes_eq]; decide⟩

end Pushdown.Definition
