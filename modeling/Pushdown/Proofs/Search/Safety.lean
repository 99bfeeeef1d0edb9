import Pushdown.Proofs.Definition.Built
import Pushdown.Proofs.Search.Reachability
import Pushdown.Proofs.Search.Rounds

/-!
# Runs of built automata cannot go wrong

What a run comes to is *sound*: its state is one of the automaton, its input is what is left of the
tape, and its stack holds symbols of the stack alphabet and never the empty one
(`Configuration.Sound`). A run starts so, every step keeps it (`Step.sound`), and whatever was ever
queued can be reached in steps (`reaches_of_mem_queued`). In a closed automaton no push onto a sound
stack is refused (`pushAll_of_sound`), so none of the failures of a builder or a loader can come up
while a run is under way:

> `run_cannot_go_wrong`: in a run of a built or loaded automaton, whatever was queued is sound, no
> push is refused, an observer is told of states that there are, and a run without an answer came to
> an undeclared symbol of the tape or to its bound.
-/

namespace Pushdown

open Search (Event)

/-- What a configuration of a run on a tape is. -/
structure Configuration.Sound (a : Automaton) (tape : List Symbol) (c : Configuration) : Prop where
  state_lt : c.state.index < a.states.size
  input_suffix : c.input <:+ tape
  alphabet_eq : c.stack.alphabet = a.stackAlphabet
  stack_declared : ∀ s ∈ c.stack.symbols, s ∈ a.stackAlphabet ∧ s ≠ Symbol.epsilon

/-- Whatever states an event shows are states of the automaton. -/
def Search.Event.ShowsStatesOf (a : Automaton) : Event → Prop
  | .examined c => (a.state? c.state).isSome
  | .queued m => (a.state? m.source).isSome ∧ (a.state? m.target).isSome

namespace Automaton

variable {a : Automaton} {c d : Configuration} {tape : List Symbol}

theorem isSome_state? {id : StateId} (h : id.index < a.states.size) : (a.state? id).isSome := by
  rw [state?, Array.getElem?_eq_getElem h]
  rfl

/-! ## Soundness -/

theorem sound_initialConfiguration (closed : a.Closed) (input : String) :
    (a.initialConfiguration input).Sound a (Symbol.ofText input) where
  state_lt := closed.initialState_lt
  input_suffix := List.suffix_rfl
  alphabet_eq := rfl
  stack_declared s hs := by
    obtain rfl := List.mem_singleton.1 hs
    exact ⟨closed.initialSymbol_mem, closed.initialSymbol_ne_epsilon⟩

/-- What an outcome puts on a declared stack is declared. -/
theorem declared_of_mem_push (closed : a.Closed) {q : StateId} {x top : Symbol}
    {below : List Symbol} {o : Transition.Outcome} (ho : o ∈ a.outcomes q x top)
    (h : ∀ s ∈ top :: below, s ∈ a.stackAlphabet ∧ s ≠ Symbol.epsilon) :
    ∀ s ∈ Symbol.withoutEpsilon o.push ++ below, s ∈ a.stackAlphabet ∧ s ≠ Symbol.epsilon := by
  intro s hs
  rcases List.mem_append.1 hs with pushed | old
  · obtain ⟨hs, proper⟩ := Symbol.mem_withoutEpsilon.1 pushed
    exact ⟨closed.push_declared ho s hs proper, proper⟩
  · exact h s (List.mem_cons_of_mem _ old)

/-- A step leads from what is sound to what is sound. -/
theorem Step.sound (closed : a.Closed) (step : a.Step c d) (h : c.Sound a tape) :
    d.Sound a tape := by
  cases step with
  | reading _ ho =>
    exact ⟨(closed.declares_of_mem_outcomes ho).target_lt,
      (List.suffix_cons _ _).trans h.input_suffix, h.alphabet_eq,
      declared_of_mem_push closed ho h.stack_declared⟩
  | spontaneous _ ho =>
    exact ⟨(closed.declares_of_mem_outcomes ho).target_lt, h.input_suffix, h.alphabet_eq,
      declared_of_mem_push closed ho h.stack_declared⟩

theorem Reaches.sound (closed : a.Closed) (reached : a.Reaches c d) (h : c.Sound a tape) :
    d.Sound a tape := by
  induction reached with
  | refl => exact h
  | tail _ step ih => exact step.sound closed ih

/-- No outcome is refused by what is under the top of a sound stack. -/
theorem pushAll_of_sound (closed : a.Closed) (h : c.Sound a tape) {top : Symbol} {rest : Stack}
    (popped : c.stack.pop? = some (top, rest)) {consumed : Symbol} {o : Transition.Outcome}
    (ho : o ∈ a.outcomes c.state consumed top) : (rest.pushAll o.push).2 = none := by
  have alphabet_eq : rest.alphabet = a.stackAlphabet := by
    unfold Stack.pop? at popped
    split at popped
    · cases popped
    · cases popped
      exact h.alphabet_eq
  have declared : ∀ s ∈ o.push, s ≠ Symbol.epsilon → s ∈ rest.alphabet := fun s hs proper =>
    alphabet_eq ▸ closed.push_declared ho s hs proper
  rw [Stack.pushAll_of_declared declared]

/-! ## What is ever queued -/

/-- Where the search goes on from a configuration, it goes on to the children. -/
theorem eq_successors_of_examine (closed : a.Closed) (shared : c.stack.alphabet = a.stackAlphabet)
    {successors : List Successor} {refused : Option DefinitionFault}
    (looked : a.examine c = .moves successors refused) : successors = a.successors c := by
  rcases examine_eq closed shared with ⟨-, seen⟩ | ⟨x, -, seen⟩ | ⟨-, seen⟩
  · cases looked.symm.trans seen
  · cases looked.symm.trans seen
  · cases looked.symm.trans seen
    rfl

/-- A round queues only what can be reached, if that is so for what was queued before. -/
theorem reaches_of_mem_queued_round (closed : a.Closed) {bound : Nat} {input : String} {s : Stage}
    (h : ∀ c ∈ s.queued, a.Reaches (a.initialConfiguration input) c) :
    ∀ c ∈ (a.round bound s).queued, a.Reaches (a.initialConfiguration input) c := by
  cases s with
  | ended execution => exact h
  | underWay taken queue =>
    rcases round_cases a bound taken queue with
      next | ⟨verdict, next⟩ | ⟨c, rest, successors, line, -, looked, next⟩
    · rw [next]
      exact fun d hd => absurd hd List.not_mem_nil
    · rw [next]
      exact fun d hd => absurd hd List.not_mem_nil
    · obtain ⟨reached, rest_reached⟩ :
          a.Reaches (a.initialConfiguration input) c ∧
            ∀ d ∈ rest.toList, a.Reaches (a.initialConfiguration input) d :=
        List.forall_mem_cons.1 (line ▸ h)
      have shared := (reached.sound closed (sound_initialConfiguration closed input)).alphabet_eq
      obtain rfl := eq_successors_of_examine closed shared looked
      rw [next, Stage.queued, Queue.toList_pushAll]
      intro d hd
      rcases List.mem_append.1 hd with old | new
      · exact rest_reached d old
      · exact reached.tail (step_of_mem_children new)

/-- Whatever a run ever queues can be reached in steps. -/
theorem reaches_of_mem_queued (closed : a.Closed) {bound rounds : Nat} {input : String}
    (h : c ∈ (a.stageAfter bound rounds input).queued) :
    a.Reaches (a.initialConfiguration input) c := by
  suffices all : ∀ c ∈ (a.stageAfter bound rounds input).queued,
      a.Reaches (a.initialConfiguration input) c from all c h
  clear h
  induction rounds with
  | zero =>
    have first : (a.stageAfter bound 0 input).queued = [a.initialConfiguration input] := by
      show (a.firstStage input).queued = _
      rw [firstStage, start_eq closed]
      exact Queue.toList_ofList _
    rw [first]
    intro c hc
    obtain rfl := List.mem_singleton.1 hc
    exact Relation.ReflTransGen.refl
  | succ rounds ih =>
    rw [stageAfter_succ]
    exact reaches_of_mem_queued_round closed ih

/-! ## What is shown -/

/-- A move leaves the state it is made in, and enters the state it leads to. -/
theorem move_of_mem_successors {s : Successor} (h : s ∈ a.successors c) :
    s.move.source = c.state ∧ s.move.target = s.configuration.state := by
  have under : ∀ {consumed top below rest}, s ∈ a.successorsUnder c consumed top below rest →
      s.move.source = c.state ∧ s.move.target = s.configuration.state := by
    intro consumed top below rest hs
    obtain ⟨o, -, rfl⟩ := List.mem_map.1 hs
    exact ⟨rfl, rfl⟩
  unfold successors at h
  split at h
  next => exact absurd h List.not_mem_nil
  next => exact under h
  next =>
    split at h
    next => exact under h
    next =>
      split at h
      next => exact (List.mem_append.1 h).elim under under
      next => exact absurd h List.not_mem_nil

/-- The events of a sound configuration show only states that there are. -/
theorem showsStatesOf_of_mem_course (closed : a.Closed) {visited : List Configuration}
    (h : ∀ c ∈ visited, c.Sound a tape) : ∀ event ∈ a.course visited, event.ShowsStatesOf a := by
  intro event hevent
  obtain ⟨c, hc, hevent⟩ := List.mem_flatMap.1 hevent
  have here := isSome_state? (h c hc).state_lt
  rcases List.mem_cons.1 hevent with rfl | queued
  · exact here
  · obtain ⟨s, hs, rfl⟩ := List.mem_map.1 queued
    obtain ⟨source_eq, target_eq⟩ := move_of_mem_successors hs
    have step : a.Step c s.configuration := step_of_mem_children (List.mem_map.2 ⟨s, hs, rfl⟩)
    have there := isSome_state? (step.sound closed (h c hc)).state_lt
    exact ⟨source_eq ▸ here, target_eq ▸ there⟩

/-! ## Runs -/

/-- **Runs of built and loaded automata cannot go wrong.** -/
theorem run_cannot_go_wrong (h : a.IsBuilt ∨ ∃ text, Definition.load text = .ok a) (bound : Nat)
    (input : String) :
    a.initialStack = .ok ⟨a.stackAlphabet, [a.initialSymbol]⟩ ∧
    a.stageAfter bound (max bound 1) input = .ended (a.run ⟨bound⟩ input) ∧
    (∀ rounds, ∀ c ∈ (a.stageAfter bound rounds input).queued,
      c.Sound a (Symbol.ofText input) ∧
      ∀ top rest, c.stack.pop? = some (top, rest) → ∀ consumed,
        ∀ o ∈ a.outcomes c.state consumed top, (rest.pushAll o.push).2 = none) ∧
    (∀ event ∈ a.events ⟨bound⟩ input, event.ShowsStatesOf a) ∧
    (∀ e, (a.run ⟨bound⟩ input).verdict = .failed e →
      (∃ x, e = .undeclaredInput x a.inputAlphabet) ∨ e = .boundExceeded bound) := by
  have closed : a.Closed := by
    rcases h with built | ⟨text, loaded⟩
    · exact built.closed
    · exact (Definition.isBuilt_of_load loaded).closed
  have root_sound := sound_initialConfiguration closed input
  refine ⟨?_, iterate_round_firstStage a bound input, fun rounds c hc => ?_, ?_, fun e failed => ?_⟩
  · exact Stack.push_of_mem closed.initialSymbol_ne_epsilon closed.initialSymbol_mem
  · have sound := (reaches_of_mem_queued closed hc).sound closed root_sound
    exact ⟨sound, fun top rest popped consumed o ho => pushAll_of_sound closed sound popped ho⟩
  · rw [events_eq closed]
    exact showsStatesOf_of_mem_course closed fun c hc =>
      (reaches_of_mem_visited hc).sound closed root_sound
  · rw [verdict_eq closed] at failed
    cases ending : (a.traverse (bound - 1) [a.initialConfiguration input]).ending with
    | accepted => simp [ending, verdictOf] at failed
    | blocked x =>
      rw [ending] at failed
      exact Or.inl ⟨x, (Verdict.failed.inj failed).symm⟩
    | exhausted => simp [ending, verdictOf] at failed
    | cutOff =>
      rw [ending] at failed
      exact Or.inr (Verdict.failed.inj failed).symm

/-- On `(x` the balanced words fail with the undeclared `x`, which is one of the two ways there
are. -/
theorem run_cannot_go_wrong_balanced :
    (balanced.IsBuilt ∨ ∃ text, Definition.load text = .ok balanced) ∧
      (balanced.run ⟨10⟩ "(x").verdict = .failed (.undeclaredInput 'x' balanced.inputAlphabet) ∧
      (∀ rounds, ∀ c ∈ (balanced.stageAfter 10 rounds "(x").queued,
        c.Sound balanced (Symbol.ofText "(x")) ∧
      (∀ e, (balanced.run ⟨10⟩ "(x").verdict = .failed e →
        (∃ x, e = .undeclaredInput x balanced.inputAlphabet) ∨ e = .boundExceeded 10) := by
  obtain ⟨-, -, queued, -, failures⟩ := run_cannot_go_wrong (Or.inl balanced_isBuilt) 10 "(x"
  exact ⟨Or.inl balanced_isBuilt, by decide, fun rounds c hc => (queued rounds c hc).1, failures⟩

end Automaton

end Pushdown
