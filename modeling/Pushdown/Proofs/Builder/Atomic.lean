import Mathlib.Data.List.Basic
import Pushdown.Proofs.Builder.Closed
import Pushdown.Proofs.Builder.InPlace

/-!
# Calls are atomic

What a sequence of calls comes to, on a builder that is changed in place and may be refused any of
them. By `Workbench.follows_carryOut` each call that is refused leaves the workbench as it was, so
the refused calls might as well not have been made (`afterCalls_successful`). Two more things are
counted along a sequence: names are only ever added at the end (`names_prefix_performAll`), so the
number that a declaration was answered with stays the number of its state; and each transition that
is added, and nothing else, adds one outcome (`transitionCount_performAll`).

> `calls_atomic_closed`: whatever calls are made in whatever order, refused calls change nothing,
> and an automaton built after them is closed, has every state at the number that its declaration
> was answered with, and offers as many outcomes as transitions were added.
-/

namespace Pushdown.Automaton

namespace Builder

variable {b b' : Builder}

/-- What a call that succeeds has checked, and what it makes of the builder. -/
theorem attempt_cases {call : Call} {id : Option StateId} (h : b.attempt call = .ok (id, b')) :
    (∃ name, call = .state name ∧ name ∉ b.names ∧ id = some ⟨b.states.size⟩ ∧
      b' = { b with states := b.states.push ⟨name, .empty⟩ }) ∨
    (∃ s, call = .input s ∧ s ≠ Symbol.epsilon ∧ id = none ∧
      b' = { b with inputAlphabet := b.inputAlphabet.insert s }) ∨
    (∃ s, call = .stack s ∧ s ≠ Symbol.epsilon ∧ id = none ∧
      b' = { b with stackAlphabet := b.stackAlphabet.insert s }) ∨
    ∃ source input top target push, call = .transition source input top target push ∧
      source ∈ b.names ∧ target ∈ b.names ∧
      (input = Symbol.epsilon ∨ input ∈ b.inputAlphabet) ∧ top ∈ b.stackAlphabet ∧
      (∀ s ∈ push, s = Symbol.epsilon ∨ s ∈ b.stackAlphabet) ∧ id = none ∧
      b' = b.withOutcome (b.names.idxOf source) ⟨input, top⟩
        ⟨⟨b.names.idxOf target⟩, push⟩ := by
  cases call with
  | state name =>
    obtain ⟨⟨_, made⟩, declared, e⟩ := bind_eq_ok_iff.1 h
    cases e
    obtain ⟨fresh, rfl, rfl⟩ := declareState_eq_ok_iff.1 declared
    exact Or.inl ⟨name, rfl, fresh, rfl, rfl⟩
  | input s =>
    obtain ⟨made, declared, e⟩ := bind_eq_ok_iff.1 h
    cases e
    obtain ⟨proper, rfl⟩ := declareInput_eq_ok_iff.1 declared
    exact Or.inr (Or.inl ⟨s, rfl, proper, rfl, rfl⟩)
  | stack s =>
    obtain ⟨made, declared, e⟩ := bind_eq_ok_iff.1 h
    cases e
    obtain ⟨proper, rfl⟩ := declareStack_eq_ok_iff.1 declared
    exact Or.inr (Or.inr (Or.inl ⟨s, rfl, proper, rfl, rfl⟩))
  | transition source input top target push =>
    obtain ⟨made, added, e⟩ := bind_eq_ok_iff.1 h
    cases e
    obtain ⟨source_mem, target_mem, input_ok, top_ok, push_ok, rfl⟩ :=
      addTransition_eq_ok_iff.1 added
    exact Or.inr (Or.inr (Or.inr ⟨source, input, top, target, push, rfl, source_mem, target_mem,
      input_ok, top_ok, push_ok, rfl, rfl⟩))

/-! ## Names stay where they are -/

theorem names_prefix_attempt {call : Call} {id : Option StateId}
    (h : b.attempt call = .ok (id, b')) : b.names <+: b'.names := by
  rcases attempt_cases h with ⟨name, -, -, -, rfl⟩ | ⟨s, -, -, -, rfl⟩ | ⟨s, -, -, -, rfl⟩ |
    ⟨source, input, top, target, push, -, -, -, -, -, -, -, rfl⟩
  · exact ⟨[name], by simp [names]⟩
  · exact List.prefix_rfl
  · exact List.prefix_rfl
  · simp only [names_withOutcome, List.prefix_rfl]

theorem names_prefix_perform (b : Builder) (call : Call) :
    b.names <+: (b.perform call).1.names := by
  unfold perform
  split
  next made => exact names_prefix_attempt made
  next => exact List.prefix_rfl

/-- Calls only add names at the end. -/
theorem names_prefix_performAll (b : Builder) (calls : List Call) :
    b.names <+: (b.performAll calls).names := by
  induction calls generalizing b with
  | nil => exact List.prefix_rfl
  | cons call calls ih => exact (names_prefix_perform b call).trans (ih _)

/-- Whatever is called after a state was declared, its name stands where the answer said, and at no
place before. -/
theorem names_of_declared {name : String} {id : StateId}
    (declared : (b.perform (.state name)).2 = .ok (some id)) (calls : List Call) :
    ∃ rest, ((b.perform (.state name)).1.performAll calls).names = b.names ++ name :: rest ∧
      name ∉ b.names ∧ id = ⟨b.names.length⟩ := by
  have grown := names_prefix_performAll (b.perform (.state name)).1 calls
  unfold perform at declared grown ⊢
  cases made : b.attempt (.state name) with
  | error fault =>
    rw [made] at declared
    cases declared
  | ok r =>
    obtain ⟨answer, b'⟩ := r
    rw [made] at declared grown
    obtain rfl : answer = some id := Except.ok.inj declared
    rcases attempt_cases made with ⟨_, same, fresh, number, rfl⟩ | ⟨_, same, -⟩ | ⟨_, same, -⟩ |
      ⟨_, _, _, _, _, same, -⟩
    · cases same
      obtain ⟨rest, all⟩ := grown
      refine ⟨rest, ?_, fresh, ?_⟩
      · rw [← all]
        simp [names]
      · rw [length_names]
        exact Option.some.inj number
    · cases same
    · cases same
    · cases same

/-! ## Outcomes are counted -/

/-- How many outcomes all tables offer together. -/
def transitionCount (b : Builder) : Nat :=
  (b.states.toList.flatMap fun state => state.table.entries).length

/-- Whether a call adds a transition. -/
def Call.isTransition : Call → Bool
  | .transition .. => true
  | _ => false

/-- One place of a list that is mapped to one element more makes one element more in all. -/
theorem length_flatMap_modify {α β : Type} {f : α → α} {g : α → List β} (xs : List α) (i : Nat)
    (inside : i < xs.length) (more : ∀ x, (g (f x)).length = (g x).length + 1) :
    ((xs.modify i f).flatMap g).length = (xs.flatMap g).length + 1 := by
  induction xs generalizing i with
  | nil => exact absurd inside (Nat.not_lt_zero i)
  | cons x xs ih =>
    cases i with
    | zero =>
      simp only [List.modify_zero_cons, List.flatMap_cons, List.length_append, more]
      omega
    | succ i =>
      simp only [List.modify_succ_cons, List.flatMap_cons, List.length_append,
        ih i (Nat.lt_of_succ_lt_succ inside)]
      omega

theorem transitionCount_attempt {call : Call} {id : Option StateId}
    (h : b.attempt call = .ok (id, b')) :
    b'.transitionCount = b.transitionCount + if call.isTransition then 1 else 0 := by
  rcases attempt_cases h with ⟨name, rfl, -, -, rfl⟩ | ⟨s, rfl, -, -, rfl⟩ | ⟨s, rfl, -, -, rfl⟩ |
    ⟨source, input, top, target, push, rfl, source_mem, -, -, -, -, -, rfl⟩
  · simp [transitionCount, Call.isTransition, Transition.Table.empty]
  · rfl
  · rfl
  · unfold transitionCount withOutcome
    rw [Array.toList_modify]
    refine length_flatMap_modify _ _ (idxOf_lt_size source_mem) fun state => ?_
    exact Transition.Table.size_add _ _ _

end Builder

namespace Workbench

open Builder (Call)

variable {w : Workbench} {b b' : Builder}

/-- The workbench after some calls. -/
def afterCalls (w : Workbench) (calls : List Call) : Workbench :=
  calls.foldl (fun w call => (w.carryOut call).2) w

/-- The calls that succeed when some are made one after another. -/
def successful (w : Workbench) : List Call → List Call
  | [] => []
  | call :: calls =>
    match w.carryOut call with
    | (.ok _, w') => call :: w'.successful calls
    | (.error _, w') => w'.successful calls

/-- A workbench and its builder give one answer to a call, and correspond after it; if the call is
refused, the workbench is as it was. -/
theorem Represents.carryOut (h : w.Represents b) (call : Call) :
    (w.carryOut call).1 = (b.perform call).2 ∧
      (w.carryOut call).2.Represents (b.perform call).1 ∧
      ∀ fault, (w.carryOut call).1 = .error fault → (w.carryOut call).2 = w := by
  have follows := follows_carryOut h call
  unfold Builder.perform
  cases made : b.attempt call with
  | ok r =>
    rw [made] at follows
    obtain ⟨answer, represents⟩ := follows
    refine ⟨answer, represents, fun fault refused => ?_⟩
    cases answer.symm.trans refused
  | error fault =>
    rw [made] at follows
    have refused : w.carryOut call = (.error fault, w) := follows
    rw [refused]
    exact ⟨rfl, h, fun _ _ => rfl⟩

theorem Represents.afterCalls (h : w.Represents b) (calls : List Call) :
    (w.afterCalls calls).Represents (b.performAll calls) := by
  induction calls generalizing w b with
  | nil => exact h
  | cons call calls ih => exact ih (h.carryOut call).2.1

/-- A workbench represents one builder. -/
theorem Represents.unique (h : w.Represents b) (h' : w.Represents b') : b = b' := by
  obtain ⟨states, inputs, stack⟩ := b
  obtain ⟨states', inputs', stack'⟩ := b'
  obtain rfl : states = states' := h.states_eq.symm.trans h'.states_eq
  obtain rfl : inputs = inputs' := h.inputAlphabet_eq.symm.trans h'.inputAlphabet_eq
  obtain rfl : stack = stack' := h.stackAlphabet_eq.symm.trans h'.stackAlphabet_eq
  rfl

/-- Only the calls that succeed have any effect. -/
theorem afterCalls_successful (h : w.Represents b) (calls : List Call) :
    w.afterCalls (w.successful calls) = w.afterCalls calls := by
  induction calls generalizing w b with
  | nil => rfl
  | cons call calls ih =>
    obtain ⟨-, represents, unchanged⟩ := h.carryOut call
    show _ = (w.carryOut call).2.afterCalls calls
    rw [successful]
    rcases result : w.carryOut call with ⟨answer, w'⟩
    rw [result] at represents unchanged
    cases answer with
    | ok id =>
      show (w.carryOut call).2.afterCalls (w'.successful calls) = _
      rw [result]
      exact ih represents
    | error fault =>
      obtain rfl : w' = w := unchanged fault rfl
      exact ih h

/-- After some calls there are as many outcomes more as transitions were added. -/
theorem transitionCount_performAll (h : w.Represents b) (calls : List Call) :
    (b.performAll calls).transitionCount =
      b.transitionCount + (w.successful calls).countP Call.isTransition := by
  induction calls generalizing w b with
  | nil => rfl
  | cons call calls ih =>
    obtain ⟨answer, represents, -⟩ := h.carryOut call
    show ((b.perform call).1.performAll calls).transitionCount = _
    rw [successful, ih represents]
    rcases result : w.carryOut call with ⟨answered, w'⟩
    rw [result] at answer
    unfold Builder.perform at answer ⊢
    cases made : b.attempt call with
    | ok r =>
      rw [made] at answer
      obtain rfl : answered = .ok r.1 := answer
      simp only [List.countP_cons, Builder.transitionCount_attempt made]
      omega
    | error fault =>
      rw [made] at answer
      obtain rfl : answered = .error fault := answer
      rfl

/-- The number that a declaration was answered with is the number of its state, and the one that
its name is found under. -/
theorem found_of_declared {before after : List Call} {name start : String} {id : StateId}
    {symbol : Symbol} {a : Automaton}
    (declared : ((Builder.empty.performAll before).perform (.state name)).2 = .ok (some id))
    (built : (Builder.empty.performAll (before ++ .state name :: after)).build start symbol =
      .ok a) :
    (a.state? id).map (·.name) = some name ∧ a.find? name = some id := by
  obtain ⟨rest, names_eq, fresh, rfl⟩ := Builder.names_of_declared declared after
  obtain ⟨-, -, rfl⟩ := Builder.build_eq_ok_iff.1 built
  have all : (Builder.empty.performAll (before ++ .state name :: after)).names =
      (Builder.empty.performAll before).names ++ name :: rest := by
    rw [← names_eq, Builder.performAll, List.foldl_append]
    rfl
  generalize Builder.empty.performAll (before ++ .state name :: after) = b at all ⊢
  constructor
  · show (b.states[(Builder.empty.performAll before).names.length]?).map (·.name) = some name
    rw [← Array.getElem?_toList, ← List.getElem?_map]
    show b.names[_]? = _
    rw [all, List.getElem?_append_right (Nat.le_refl _), Nat.sub_self]
    rfl
  · show (b.states.findIdx? (·.name == name)).map StateId.mk = _
    rw [Builder.findIdx?_states, if_pos (by simp [all]), all,
      List.idxOf_append_of_notMem fresh, List.idxOf_cons_self]
    rfl

/-- **Calls are atomic, and what is built after them is closed.** -/
theorem calls_atomic_closed (calls : List Call) :
    let w := empty.afterCalls calls
    let b := Builder.empty.performAll calls
    (∀ call, (w.carryOut call).1 = (b.perform call).2 ∧
      ∀ fault, (w.carryOut call).1 = .error fault → (w.carryOut call).2 = w) ∧
    w = empty.afterCalls (empty.successful calls) ∧
    b = Builder.empty.performAll (empty.successful calls) ∧
    ∀ start symbol, w.build start symbol = b.build start symbol ∧
      ∀ a, w.build start symbol = .ok a → a.Closed ∧
        (∀ before name after id, calls = before ++ .state name :: after →
          ((empty.afterCalls before).carryOut (.state name)).1 = .ok (some id) →
          (a.state? id).map (·.name) = some name ∧ a.find? name = some id) ∧
        a.transitionCount = (empty.successful calls).countP Call.isTransition := by
  intro w b
  have represents : w.Represents b := represents_empty.afterCalls calls
  have replayed : w = empty.afterCalls (empty.successful calls) :=
    (afterCalls_successful represents_empty calls).symm
  refine ⟨fun call => ?_, replayed, ?_, fun start symbol => ?_⟩
  · obtain ⟨answer, -, unchanged⟩ := represents.carryOut call
    exact ⟨answer, unchanged⟩
  · exact represents.unique (replayed ▸ represents_empty.afterCalls (empty.successful calls))
  · refine ⟨represents.build_eq start symbol, fun a made => ?_⟩
    have built : b.build start symbol = .ok a := (represents.build_eq start symbol).symm.trans made
    refine ⟨(Builder.closed_empty.performAll calls).build built, ?_, ?_⟩
    · intro before name after id split declared
      subst split
      rw [((represents_empty.afterCalls before).carryOut _).1] at declared
      exact found_of_declared declared built
    · have counted := transitionCount_performAll represents_empty calls
      obtain ⟨-, -, rfl⟩ := Builder.build_eq_ok_iff.1 built
      rw [show Builder.empty.transitionCount = 0 from rfl, Nat.zero_add] at counted
      exact counted

/-- The calls that build an automaton of two states, three of them refused: a transition that comes
before the state it leads to, a name that is taken, and the empty symbol. -/
def interruptedCalls : List Call :=
  [.state "q", .stack 'Z', .transition "q" '.' 'Z' "r" [],
   .state "r", .state "q", .stack '.',
   .transition "q" '.' 'Z' "r" ['.']]

/-- What they build. -/
def interrupted : Automaton where
  states := #[⟨"q", ⟨[⟨⟨'.', 'Z'⟩, ⟨⟨1⟩, ['.']⟩⟩]⟩⟩, ⟨"r", .empty⟩]
  inputAlphabet := .empty
  stackAlphabet := Alphabet.ofList ['Z']
  initialState := ⟨0⟩
  initialSymbol := 'Z'

/-- The refused calls leave the second state the number 1 and the automaton one transition. -/
theorem calls_atomic_closed_interrupted :
    (empty.afterCalls interruptedCalls).build "q" 'Z' = .ok interrupted ∧ interrupted.Closed ∧
      ((empty.afterCalls (interruptedCalls.take 3)).carryOut (.state "r")).1 = .ok (some ⟨1⟩) ∧
      (interrupted.state? ⟨1⟩).map (·.name) = some "r" ∧ interrupted.find? "r" = some ⟨1⟩ ∧
      (empty.successful interruptedCalls).countP Call.isTransition = 1 := by
  obtain ⟨-, -, -, all⟩ := calls_atomic_closed interruptedCalls
  obtain ⟨same, built⟩ := all "q" 'Z'
  -- a workbench looks names up by their hash, so what it does is read off the builder
  have made := same.trans (Builder.build_eq_ok_iff.2
    ⟨by decide +kernel, by decide +kernel, (by decide +kernel : interrupted = _)⟩)
  obtain ⟨closed, placed, counted⟩ := built interrupted made
  have declared : ((empty.afterCalls (interruptedCalls.take 3)).carryOut (.state "r")).1 =
      .ok (some ⟨1⟩) :=
    ((calls_atomic_closed (interruptedCalls.take 3)).1 (.state "r")).1.trans (by decide +kernel)
  obtain ⟨name_eq, found⟩ := placed _ _ (interruptedCalls.drop 4) _ rfl declared
  have one : interrupted.transitionCount = 1 := rfl
  exact ⟨made, closed, declared, name_eq, found, counted.symm.trans one⟩

end Workbench

end Pushdown.Automaton
