import Pushdown.Proofs.Builder.Calls
import Pushdown.Proofs.Transition.Table

/-!
# Built automata are closed

An automaton made by calls on a builder names nothing that it does not have: that is
`Automaton.Closed`. The bundle for a builder, `Builder.Closed`, holds of the empty builder and
survives every call, refused or not (`Closed.perform`), hence every sequence of calls
(`Closed.performAll`), and `build` hands it on:

> `IsBuilt.closed`: whatever calls were made in whatever order, an automaton that `build` returned
> is closed.

The alphabets and the states only grow while transitions are checked against them, so an entry
that was declared once stays declared (`Declares.mono`). For a search the part that counts is
`Closed.push_declared`: no push of a closed automaton is ever refused.
-/

namespace Pushdown.Automaton

open Transition (Entry Outcome Key)

namespace Builder

/-- An entry of a table that names only what the builder has. -/
structure Declares (b : Builder) (e : Entry) : Prop where
  target_lt : e.outcome.target.index < b.states.size
  input_mem : e.key.input = Symbol.epsilon ∨ e.key.input ∈ b.inputAlphabet
  top_mem : e.key.top ∈ b.stackAlphabet
  push_mem : ∀ s ∈ e.outcome.push, s = Symbol.epsilon ∨ s ∈ b.stackAlphabet

/-- The builder invariant: distinct names, proper alphabets, and tables in order that name only
what there is. -/
structure Closed (b : Builder) : Prop where
  names_nodup : b.names.Nodup
  input_proper : ¬ Symbol.epsilon ∈ b.inputAlphabet
  stack_proper : ¬ Symbol.epsilon ∈ b.stackAlphabet
  tables_ordered : ∀ state ∈ b.states, state.table.Ordered
  entries_declared : ∀ state ∈ b.states, ∀ e ∈ state.table.entries, b.Declares e

variable {b b' : Builder}

/-- What is declared once stays declared while the builder grows. -/
theorem Declares.mono {e : Entry} (h : b.Declares e) (size_le : b.states.size ≤ b'.states.size)
    (input_sub : ∀ s ∈ b.inputAlphabet, s ∈ b'.inputAlphabet)
    (stack_sub : ∀ s ∈ b.stackAlphabet, s ∈ b'.stackAlphabet) : b'.Declares e where
  target_lt := Nat.lt_of_lt_of_le h.target_lt size_le
  input_mem := h.input_mem.imp_right (input_sub _)
  top_mem := stack_sub _ h.top_mem
  push_mem s hs := (h.push_mem s hs).imp_right (stack_sub s)

theorem closed_empty : empty.Closed where
  names_nodup := List.nodup_nil
  input_proper := Alphabet.not_mem_empty _
  stack_proper := Alphabet.not_mem_empty _
  tables_ordered state h := absurd h (Array.not_mem_empty state)
  entries_declared state h := absurd h (Array.not_mem_empty state)

/-! ## One lemma for each call -/

theorem Closed.declareState {name : String} {id : StateId} (h : b.Closed)
    (hb : b.declareState name = .ok (id, b')) : b'.Closed := by
  obtain ⟨fresh, -, rfl⟩ := declareState_eq_ok_iff.1 hb
  have old_or_new : ∀ state ∈ b.states.push ⟨name, .empty⟩,
      state ∈ b.states ∨ state = ⟨name, .empty⟩ := fun state hs => Array.mem_push.1 hs
  refine ⟨?_, h.input_proper, h.stack_proper, fun state hs => ?_, fun state hs e he => ?_⟩
  · have names_push : names { b with states := b.states.push ⟨name, .empty⟩ } =
        b.names ++ [name] := by simp [names]
    rw [names_push]
    refine List.nodup_append.2 ⟨h.names_nodup, by simp, ?_⟩
    intro m hm n hn
    rw [List.mem_singleton.1 hn]
    exact fun same => fresh (same ▸ hm)
  · rcases old_or_new state hs with old | rfl
    · exact h.tables_ordered state old
    · exact Transition.Table.ordered_empty
  · rcases old_or_new state hs with old | rfl
    · exact (h.entries_declared state old e he).mono (by simp) (fun _ hs => hs) (fun _ hs => hs)
    · exact absurd he List.not_mem_nil

theorem Closed.declareInput {s : Symbol} (h : b.Closed) (hb : b.declareInput s = .ok b') :
    b'.Closed := by
  obtain ⟨proper, rfl⟩ := declareInput_eq_ok_iff.1 hb
  refine ⟨h.names_nodup, ?_, h.stack_proper, h.tables_ordered, fun state hs e he => ?_⟩
  · rw [Alphabet.mem_insert]
    rintro (e | old)
    · exact proper e.symm
    · exact h.input_proper old
  · exact (h.entries_declared state hs e he).mono (Nat.le_refl _)
      (fun _ old => Alphabet.mem_insert.2 (Or.inr old)) (fun _ hs => hs)

theorem Closed.declareStack {s : Symbol} (h : b.Closed) (hb : b.declareStack s = .ok b') :
    b'.Closed := by
  obtain ⟨proper, rfl⟩ := declareStack_eq_ok_iff.1 hb
  refine ⟨h.names_nodup, h.input_proper, ?_, h.tables_ordered, fun state hs e he => ?_⟩
  · rw [Alphabet.mem_insert]
    rintro (e | old)
    · exact proper e.symm
    · exact h.stack_proper old
  · exact (h.entries_declared state hs e he).mono (Nat.le_refl _) (fun _ hs => hs)
      (fun _ old => Alphabet.mem_insert.2 (Or.inr old))

/-- A state after an outcome was added is an old one, or an old one with the addition. -/
theorem mem_states_withOutcome {source : Nat} {key : Key} {o : Outcome} {state : State}
    (h : state ∈ (b.withOutcome source key o).states) :
    ∃ old ∈ b.states, state = old ∨ state = { old with table := old.table.add key o } := by
  obtain ⟨i, hi⟩ := Array.mem_iff_getElem?.1 h
  simp only [withOutcome, Array.getElem?_modify] at hi
  split at hi
  next =>
    obtain ⟨old, hold, rfl⟩ := Option.map_eq_some_iff.1 hi
    exact ⟨old, Array.mem_iff_getElem?.2 ⟨i, hold⟩, Or.inr rfl⟩
  next => exact ⟨state, Array.mem_iff_getElem?.2 ⟨i, hi⟩, Or.inl rfl⟩

theorem Closed.addTransition {source target : String} {input top : Symbol} {push : List Symbol}
    (h : b.Closed) (hb : b.addTransition source input top target push = .ok b') :
    b'.Closed := by
  obtain ⟨-, target_mem, input_ok, top_ok, push_ok, rfl⟩ := addTransition_eq_ok_iff.1 hb
  refine ⟨?_, h.input_proper, h.stack_proper, fun state hs => ?_, fun state hs e he => ?_⟩
  · rw [names_withOutcome]
    exact h.names_nodup
  · obtain ⟨old, hold, rfl | rfl⟩ := mem_states_withOutcome hs
    · exact h.tables_ordered _ hold
    · exact Transition.Table.ordered_add (h.tables_ordered _ hold) _ _
  · obtain ⟨old, hold, rfl | rfl⟩ := mem_states_withOutcome hs
    · exact (h.entries_declared _ hold e he).mono (by simp) (fun _ hs => hs) (fun _ hs => hs)
    · rcases Transition.Table.mem_insertEntry.1 he with rfl | he
      · exact ⟨by simpa using idxOf_lt_size target_mem, input_ok, top_ok, push_ok⟩
      · exact (h.entries_declared _ hold e he).mono (by simp) (fun _ hs => hs) (fun _ hs => hs)

/-! ## Sequences of calls -/

/-- The builder after some calls; those that are refused change nothing. -/
def performAll (b : Builder) (calls : List Call) : Builder :=
  calls.foldl (fun b call => (b.perform call).1) b

/-- Every successful call keeps the invariant. -/
theorem Closed.attempt {call : Call} {id : Option StateId} (h : b.Closed)
    (hb : b.attempt call = .ok (id, b')) : b'.Closed := by
  cases call with
  | state name =>
    obtain ⟨⟨_, made⟩, declared, e⟩ := bind_eq_ok_iff.1 hb
    cases e
    exact h.declareState declared
  | input s =>
    obtain ⟨made, declared, e⟩ := bind_eq_ok_iff.1 hb
    cases e
    exact h.declareInput declared
  | stack s =>
    obtain ⟨made, declared, e⟩ := bind_eq_ok_iff.1 hb
    cases e
    exact h.declareStack declared
  | transition source input top target push =>
    obtain ⟨made, added, e⟩ := bind_eq_ok_iff.1 hb
    cases e
    exact h.addTransition added

theorem Closed.perform (h : b.Closed) (call : Call) : (b.perform call).1.Closed := by
  unfold Builder.perform
  split
  next hb => exact h.attempt hb
  next => exact h

theorem Closed.performAll (h : b.Closed) (calls : List Call) : (b.performAll calls).Closed := by
  induction calls generalizing b with
  | nil => exact h
  | cons call rest ih => exact ih (h.perform call)

end Builder

/-! ## Automata -/

/-- What every built automaton is: its tables, its initial state and its initial symbol name only
what it has. -/
structure Closed (a : Automaton) : Prop where
  builder : Builder.Closed ⟨a.states, a.inputAlphabet, a.stackAlphabet⟩
  initialState_lt : a.initialState.index < a.states.size
  initialSymbol_mem : a.initialSymbol ∈ a.stackAlphabet

/-- Automata that some calls on a builder, and then `build`, return. -/
def IsBuilt (a : Automaton) : Prop :=
  ∃ calls name symbol, (Builder.empty.performAll calls).build name symbol = .ok a

theorem Builder.Closed.build {b : Builder} {name : String} {symbol : Symbol} {a : Automaton}
    (h : b.Closed) (ha : b.build name symbol = .ok a) : a.Closed := by
  obtain ⟨name_mem, symbol_mem, rfl⟩ := build_eq_ok_iff.1 ha
  exact ⟨h, idxOf_lt_size name_mem, symbol_mem⟩

theorem IsBuilt.closed {a : Automaton} (h : a.IsBuilt) : a.Closed := by
  obtain ⟨calls, name, symbol, ha⟩ := h
  exact (Builder.closed_empty.performAll calls).build ha

namespace Closed

variable {a : Automaton}

theorem initialSymbol_ne_epsilon (h : a.Closed) : a.initialSymbol ≠ Symbol.epsilon :=
  fun e => h.builder.stack_proper (e ▸ h.initialSymbol_mem)

/-- An outcome that the automaton offers is an entry of one of its tables. -/
theorem declares_of_mem_outcomes (h : a.Closed) {id : StateId} {input top : Symbol} {o : Outcome}
    (ho : o ∈ a.outcomes id input top) :
    Builder.Declares ⟨a.states, a.inputAlphabet, a.stackAlphabet⟩ ⟨⟨input, top⟩, o⟩ := by
  unfold outcomes state? at ho
  split at ho
  next state hs =>
    exact h.builder.entries_declared state (Array.mem_iff_getElem?.2 ⟨_, hs⟩) _
      (Transition.Table.mem_outcomes.1 ho)
  next => exact absurd ho List.not_mem_nil

/-- Whatever an outcome pushes is empty or in the stack alphabet. -/
theorem push_declared (h : a.Closed) {id : StateId} {input top : Symbol} {o : Outcome}
    (ho : o ∈ a.outcomes id input top) :
    ∀ s ∈ o.push, s ≠ Symbol.epsilon → s ∈ a.stackAlphabet :=
  fun s hs proper => ((h.declares_of_mem_outcomes ho).push_mem s hs).resolve_left proper

end Closed

/-! ## An automaton of balanced words -/

/-- The calls that build it: each `(` is counted by an `X` on the stack, each `)` takes one away,
and at the bottom the `Z` may be dropped. -/
def balancedCalls : List Builder.Call :=
  [.state "q", .input '(', .input ')', .stack 'Z', .stack 'X',
   .transition "q" '(' 'Z' "q" ['X', 'Z'],
   .transition "q" '(' 'X' "q" ['X', 'X'],
   .transition "q" ')' 'X' "q" ['.'],
   .transition "q" '.' 'Z' "q" ['.']]

/-- The automaton that these calls build. -/
def balanced : Automaton where
  states := #[⟨"q", ⟨[
    ⟨⟨'(', 'X'⟩, ⟨⟨0⟩, ['X', 'X']⟩⟩,
    ⟨⟨'(', 'Z'⟩, ⟨⟨0⟩, ['X', 'Z']⟩⟩,
    ⟨⟨')', 'X'⟩, ⟨⟨0⟩, ['.']⟩⟩,
    ⟨⟨'.', 'Z'⟩, ⟨⟨0⟩, ['.']⟩⟩]⟩⟩]
  inputAlphabet := Alphabet.ofList ['(', ')']
  stackAlphabet := Alphabet.ofList ['X', 'Z']
  initialState := ⟨0⟩
  initialSymbol := 'Z'

theorem balanced_isBuilt : balanced.IsBuilt :=
  ⟨balancedCalls, "q", 'Z', Builder.build_eq_ok_iff.2
    ⟨by decide +kernel, by decide +kernel, by decide +kernel⟩⟩

end Pushdown.Automaton
