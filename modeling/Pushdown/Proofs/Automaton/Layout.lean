import Mathlib.Data.List.Basic
import Pushdown.Proofs.Automaton.Names
import Pushdown.Proofs.Definition.Built
import Pushdown.Summary

/-!
# The layout of an automaton

Every automaton has a layout of its own (`Automaton.layout`): the states by name, the alphabets in
order, then the transitions state by state and, under one state, in the order of its table. That is
hardly ever the layout that it was built from, in which the transitions may have stood in any order.
It makes the same automaton all the same, because all that counts of their order is kept:

> `outcomes_of_transitions`: among the transitions of all states, those of one state under one key
> are what it offers, in order, since no other state has its name;
> `build_layout`: the layout of a closed automaton is built to that automaton.
-/

namespace Pushdown.Automaton

open Definition
open Transition (Entry Key Outcome)

/-- The transitions of an automaton by names, in the order in which they are written. -/
def transitions (a : Automaton) : List TransitionSummary :=
  a.states.toList.flatMap fun state => state.table.entries.map (a.summarizeEntry state)

/-- A transition, written on line `n`. -/
def lineOn (t : TransitionSummary) (n : Nat) : TransitionLine :=
  ⟨⟨t.source, n⟩, ⟨String.singleton t.input, n⟩, ⟨String.singleton t.top, n⟩, ⟨t.target, n⟩,
    ⟨t.push, n⟩⟩

/-- Symbols, written on line `n`. -/
def symbolsOn (symbols : List Symbol) (n : Nat) : List Token :=
  symbols.map fun s => ⟨String.singleton s, n⟩

/-- The symbols that are written for an input alphabet: if it has none, the empty one. -/
def writtenInputs (a : Automaton) : List Symbol :=
  if a.inputAlphabet.isEmpty then [Symbol.epsilon] else a.inputAlphabet.symbols

/-- What is written for an automaton. -/
def layout (a : Automaton) : Layout where
  states := a.names.map fun name => ⟨name, 1⟩
  inputSymbols := symbolsOn a.writtenInputs 2
  stackSymbols := symbolsOn a.stackAlphabet.symbols 3
  initialState := ⟨a.nameOf a.initialState, 4⟩
  initialSymbol := ⟨String.singleton a.initialSymbol, 5⟩
  transitions := (a.transitions.zipIdx 6).map fun p => lineOn p.1 p.2

variable {a : Automaton}

theorem names_layout (a : Automaton) : a.layout.names = a.names := by
  rw [Layout.names, layout, List.map_map]
  exact List.map_id a.names

theorem symbol?_singleton (s : Symbol) (n : Nat) :
    Token.symbol? ⟨String.singleton s, n⟩ = some s :=
  symbol?_eq_some_iff.2 rfl

theorem symbolsOf_symbolsOn (symbols : List Symbol) (n : Nat) :
    symbolsOf (symbolsOn symbols n) = symbols := by
  unfold symbolsOf symbolsOn
  rw [List.filterMap_map]
  have each : Token.symbol? ∘ (fun s => ⟨String.singleton s, n⟩) = some :=
    funext fun s => symbol?_singleton s n
  rw [each, List.filterMap_some]

theorem isSymbol_of_mem_symbolsOn {symbols : List Symbol} {n : Nat} {t : Token}
    (h : t ∈ symbolsOn symbols n) : t.IsSymbol := by
  obtain ⟨s, -, rfl⟩ := List.mem_map.1 h
  exact isSymbol_iff.2 ⟨s, symbol?_singleton s n⟩

theorem mem_writtenInputs_iff {s : Symbol} :
    s ∈ a.writtenInputs ∧ s ≠ Symbol.epsilon ↔ s ∈ a.inputAlphabet ∧ s ≠ Symbol.epsilon := by
  unfold writtenInputs
  split
  · next empty =>
    have none_there : a.inputAlphabet.symbols = [] := List.isEmpty_iff.1 empty
    rw [Alphabet.mem_def, none_there, List.mem_singleton]
    exact ⟨fun h => absurd h.1 h.2, fun h => absurd h.1 List.not_mem_nil⟩
  · exact Iff.rfl

/-! ## What the transitions of a layout offer -/

/-- Where no two elements have the same name, only the one at the place of a name has it. -/
theorem flatMap_of_place {α β γ : Type} [DecidableEq β] {f : α → β} {xs : List α}
    (nodup : (xs.map f).Nodup) (g : α → List γ) (i : Nat) :
    (xs.flatMap fun x => if (xs.map f)[i]? = some (f x) then g x else []) =
      (xs[i]?.map g).getD [] := by
  induction xs generalizing i with
  | nil => rfl
  | cons x xs ih =>
    rw [List.map_cons, List.nodup_cons] at nodup
    obtain ⟨once, nodup⟩ := nodup
    rw [List.flatMap_cons]
    cases i with
    | zero =>
      have others : (xs.flatMap fun y =>
          if ((x :: xs).map f)[0]? = some (f y) then g y else []) = [] := by
        refine List.flatMap_eq_nil_iff.2 fun y hy => if_neg fun same => once ?_
        rw [Option.some.inj same]
        exact List.mem_map_of_mem hy
      rw [others, List.append_nil]
      exact if_pos rfl
    | succ i =>
      have not_here : ¬ ((x :: xs).map f)[i + 1]? = some (f x) := fun same =>
        once (List.mem_of_getElem? same)
      rw [if_neg not_here]
      exact ih nodup i

/-- Whether a transition is one of the state of a name, if there is one, under an input symbol and a
stack top. -/
def isAt (name : Option String) (input top : Symbol) (t : TransitionSummary) : Bool :=
  name == some t.source && t.input == input && t.top == top

/-- What a transition offers. -/
def outcomeOf (names : List String) (t : TransitionSummary) : Outcome :=
  ⟨stateOf names t.target, t.push.toList⟩

/-- What is written for an entry makes its outcome again. -/
theorem outcomeOf_summarizeEntry (closed : a.Closed) {state : State} (hs : state ∈ a.states)
    {e : Entry} (he : e ∈ state.table.entries) :
    outcomeOf a.names (a.summarizeEntry state e) = e.outcome := by
  have valid := (closed.builder.entries_declared state hs e he).target_lt
  show (⟨stateOf a.names (a.nameOf e.outcome.target), _⟩ : Outcome) = _
  rw [stateOf, closed.idxOf_nameOf valid]
  show (⟨e.outcome.target, (String.ofList e.outcome.push).toList⟩ : Outcome) = _
  rw [String.toList_ofList]

theorem isAt_summarizeEntry (name : Option String) (input top : Symbol) (state : State)
    (e : Entry) :
    isAt name input top (a.summarizeEntry state e) =
      (name == some state.name && e.key == ⟨input, top⟩) := by
  obtain ⟨⟨input', top'⟩, o⟩ := e
  rw [Bool.eq_iff_iff]
  simp [isAt, summarizeEntry, and_assoc]

/-- Among the transitions of a state, those of a name under one key are its outcomes, in order, if
it is the state of that name. -/
theorem outcomes_of_state (closed : a.Closed) {state : State} (hs : state ∈ a.states)
    (name : Option String) (input top : Symbol) :
    ((state.table.entries.map (a.summarizeEntry state)).filter (isAt name input top)).map
        (outcomeOf a.names) =
      if name = some state.name then state.table.outcomes ⟨input, top⟩ else [] := by
  rw [List.filter_map, List.map_map]
  have places : isAt name input top ∘ a.summarizeEntry state =
      fun e => name == some state.name && e.key == ⟨input, top⟩ :=
    funext (isAt_summarizeEntry name input top state)
  rw [places]
  by_cases named : name = some state.name
  · rw [if_pos named, Transition.Table.outcomes, named]
    simp only [beq_self_eq_true, Bool.true_and]
    exact List.map_congr_left fun e he =>
      outcomeOf_summarizeEntry closed hs (List.mem_filter.1 he).1
  · rw [if_neg named, List.filter_eq_nil_iff.2, List.map_nil]
    intro e he
    simp [named]

/-- Among the transitions, those of one state under one key are the outcomes there, in order. -/
theorem outcomes_of_transitions (closed : a.Closed) (id : StateId) (input top : Symbol) :
    (a.transitions.filter (isAt a.names[id.index]? input top)).map (outcomeOf a.names) =
      a.outcomes id input top := by
  have of_state : ∀ state ∈ a.states.toList, _ := fun state hs =>
    outcomes_of_state closed (Array.mem_toList_iff.1 hs) a.names[id.index]? input top
  have at_place := flatMap_of_place closed.names_nodup
    (fun state : State => state.table.outcomes ⟨input, top⟩) id.index
  rw [transitions, List.filter_flatMap, List.map_flatMap, List.flatMap_congr of_state, names,
    at_place, Array.getElem?_toList, outcomes, state?]
  cases a.states[id.index]? with
  | none => rfl
  | some state => rfl

/-- What the written lines offer is what the transitions do, whatever lines they are on. -/
theorem outcomes_of_layout (a : Automaton) (names : List String) (id : StateId)
    (input top : Symbol) :
    (a.layout.transitions.filter (TransitionLine.IsFrom names id input top)).map
        (TransitionLine.outcome names) =
      (a.transitions.filter (isAt names[id.index]? input top)).map (outcomeOf names) := by
  have from_eq : TransitionLine.IsFrom names id input top ∘ (fun p => lineOn p.1 p.2) =
      isAt names[id.index]? input top ∘ Prod.fst := by
    funext p
    simp [TransitionLine.IsFrom, lineOn, symbol?_singleton, isAt]
  have outcome_eq : TransitionLine.outcome names ∘ (fun p => lineOn p.1 p.2) =
      outcomeOf names ∘ Prod.fst := rfl
  unfold layout
  rw [List.filter_map, List.map_map, from_eq, outcome_eq, ← List.map_map, ← List.filter_map,
    List.zipIdx_map_fst]

/-! ## The automaton of the layout -/

/-- A written line is a transition on some line. -/
theorem exists_of_mem_layout {line : TransitionLine} (h : line ∈ a.layout.transitions) :
    ∃ t n, t ∈ a.transitions ∧ lineOn t n = line := by
  obtain ⟨⟨t, n⟩, ht, same⟩ := List.mem_map.1 h
  exact ⟨t, n, List.fst_mem_of_mem_zipIdx ht, same⟩

/-- A transition is an outcome that some state offers. -/
theorem exists_outcome_of_mem_transitions {t : TransitionSummary} (h : t ∈ a.transitions) :
    t.source ∈ a.names ∧ ∃ id, ∃ o ∈ a.outcomes id t.input t.top,
      t.target = a.nameOf o.target ∧ t.push = Symbol.toText o.push := by
  obtain ⟨state, hs, entry⟩ := List.mem_flatMap.1 h
  obtain ⟨e, he, rfl⟩ := List.mem_map.1 entry
  obtain ⟨i, hi, rfl⟩ := Array.mem_iff_getElem.1 (Array.mem_toList_iff.1 hs)
  refine ⟨List.mem_map_of_mem hs, ⟨i⟩, e.outcome, ?_, rfl, rfl⟩
  rw [← outcomes_getElem a hi]
  exact Transition.Table.mem_outcomes.2 he

/-- What a transition of a closed automaton names is declared. -/
theorem refers_lineOn (closed : a.Closed) {t : TransitionSummary} (ht : t ∈ a.transitions)
    (n : Nat) :
    (lineOn t n).Refers a.names (· ∈ a.writtenInputs) (· ∈ a.stackAlphabet.symbols) := by
  obtain ⟨source, id, o, ho, target, push⟩ := exists_outcome_of_mem_transitions ht
  have declared := closed.declares_of_mem_outcomes ho
  refine ⟨source, ⟨t.input, symbol?_singleton _ n, ?_⟩,
    ⟨t.top, symbol?_singleton _ n, declared.top_mem⟩, ?_, ?_⟩
  · by_cases epsilon : t.input = Symbol.epsilon
    · exact .inl epsilon
    · have input := declared.input_mem.resolve_left epsilon
      exact .inr (mem_writtenInputs_iff.2 ⟨input, epsilon⟩).1
  · show t.target ∈ a.names
    rw [target]
    exact nameOf_mem_names declared.target_lt
  · intro s hs
    have pushed : s ∈ t.push.toList := hs
    rw [push, Symbol.toText, String.toList_ofList] at pushed
    exact declared.push_mem s pushed

/-- The layout of a closed automaton names only what it declares. -/
theorem coherent_layout (closed : a.Closed) : a.layout.Coherent where
  names_nodup := by
    rw [names_layout]
    exact closed.names_nodup
  inputs_symbols _ := isSymbol_of_mem_symbolsOn
  stack_symbols _ := isSymbol_of_mem_symbolsOn
  stack_proper := by
    rw [layout, symbolsOf_symbolsOn]
    exact closed.builder.stack_proper
  initialState_mem := by
    rw [names_layout]
    exact nameOf_mem_names closed.initialState_lt
  initialSymbol_mem := by
    refine ⟨a.initialSymbol, symbol?_singleton _ _, ?_⟩
    rw [layout, symbolsOf_symbolsOn]
    exact closed.initialSymbol_mem
  transitions_refer line hl := by
    obtain ⟨t, n, ht, rfl⟩ := exists_of_mem_layout hl
    rw [names_layout, layout, symbolsOf_symbolsOn, symbolsOf_symbolsOn]
    exact refers_lineOn closed ht n

/-- **An automaton is made again from its own layout.** -/
theorem build_layout (closed : a.Closed) : a.layout.build = .ok a := by
  have coherent := coherent_layout closed
  obtain ⟨s, hs, -⟩ := coherent.initialSymbol_mem
  have build := Layout.build_eq_ok_iff.2 ⟨coherent, s, hs, rfl⟩
  have described := Layout.describes_of_build build
  refine build.trans (congrArg _ ?_)
  refine (Layout.isBuilt_of_build build).closed.ext_outcomes closed ?_ ?_ ?_ ?_ ?_ ?_
  · exact described.names_eq.trans (names_layout a)
  · intro s
    rw [described.mem_input_iff, layout, symbolsOf_symbolsOn, mem_writtenInputs_iff]
    exact ⟨And.left, fun h => ⟨h, fun e => closed.builder.input_proper (e ▸ h)⟩⟩
  · intro s
    rw [described.mem_stack_iff, layout, symbolsOf_symbolsOn]
    exact Iff.rfl
  · rw [described.initialState_eq, names_layout]
    show stateOf a.names (a.nameOf a.initialState) = a.initialState
    rw [stateOf, closed.idxOf_nameOf closed.initialState_lt]
  · have symbol := described.initialSymbol_eq
    rw [layout, symbol?_singleton] at symbol
    exact (Option.some.inj symbol).symm
  · intro id input top
    rw [described.outcomes_eq, names_layout, outcomes_of_layout, outcomes_of_transitions closed]

end Pushdown.Automaton
