import Pushdown.Proofs.Automaton.Names
import Pushdown.Proofs.Search.Lockstep

/-!
# Automata that run alike

What a run does with an outcome is enter a state and put symbols on the stack. The number of that
state, and the empty symbols among those pushed, cannot be seen. So `Automaton.effects` says what an
automaton does by the names of its states: under a name, an input symbol and a stack top, the names
entered and the symbols put on the stack, in the order in which the outcomes are tried. Two automata
are `Alike` if they have the same effects, the same alphabets and states of the same names, and
start alike.

Their numbers of states may be quite different. A search never compares numbers, though, and so
configurations that look alike (`LooksLike`) are in lockstep:

> `Alike.lockstep`: no step of two searches of automata that are alike tells them apart;
> `Alike.runsLike`: their runs have one answer under every bound, and an observer that is shown
> names sees the same.
-/

namespace Pushdown.Automaton

open Search (observed)
open Transition (Outcome)

variable {a b : Automaton} {c d : Configuration}

/-- What can be seen of an outcome: the name of the state it enters, and what it puts on the
stack. -/
def effect (a : Automaton) (o : Outcome) : String × List Symbol :=
  (a.nameOf o.target, Symbol.withoutEpsilon o.push)

/-- What the state of a name does under an input symbol and a stack top, in the order in which it is
tried. -/
def effects (a : Automaton) (name : String) (input top : Symbol) : List (String × List Symbol) :=
  match a.find? name with
  | some id => (a.outcomes id input top).map a.effect
  | none => []

/-- What can be seen of a configuration: the name of its state, its input and its stack. -/
def shown (a : Automaton) (c : Configuration) : String × List Symbol × Stack :=
  (a.nameOf c.state, c.input, c.stack)

/-- Two automata that differ at most in the numbers of their states and in empty symbols that are
pushed. -/
structure Alike (a b : Automaton) : Prop where
  names_iff : ∀ name, name ∈ a.names ↔ name ∈ b.names
  inputAlphabet_eq : a.inputAlphabet = b.inputAlphabet
  stackAlphabet_eq : a.stackAlphabet = b.stackAlphabet
  initialState_eq : a.nameOf a.initialState = b.nameOf b.initialState
  initialSymbol_eq : a.initialSymbol = b.initialSymbol
  effects_eq : ∀ name input top, a.effects name input top = b.effects name input top

/-- Two automata whose runs cannot be told apart, neither by the answer nor by what is shown. -/
def RunsLike (a b : Automaton) : Prop :=
  ∀ limits input, a.run limits input = b.run limits input ∧
    (observed (a.events limits input)).map a.shown =
      (observed (b.events limits input)).map b.shown

/-! ## Configurations that look alike -/

/-- Configurations of two automata, with states that there are, of which the same is shown. -/
structure LooksLike (a b : Automaton) (c d : Configuration) : Prop where
  left_valid : c.state.index < a.states.size
  right_valid : d.state.index < b.states.size
  name_eq : a.nameOf c.state = b.nameOf d.state
  input_eq : c.input = d.input
  stack_eq : c.stack = d.stack

theorem LooksLike.shown_eq (h : LooksLike a b c d) : a.shown c = b.shown d := by
  rw [shown, shown, h.name_eq, h.input_eq, h.stack_eq]

/-- The effects under the name of a state are those of its outcomes. -/
theorem effects_nameOf (closed : a.Closed) {id : StateId} (valid : id.index < a.states.size)
    (input top : Symbol) :
    a.effects (a.nameOf id) input top = (a.outcomes id input top).map a.effect := by
  rw [effects, closed.find?_nameOf valid]

namespace Alike

/-- States of the same name have outcomes of the same effects, place by place. -/
theorem forall₂_outcomes (h : Alike a b) (closed_a : a.Closed) (closed_b : b.Closed)
    (look : LooksLike a b c d) (input top : Symbol) :
    List.Forall₂ (fun o p => a.effect o = b.effect p) (a.outcomes c.state input top)
      (b.outcomes d.state input top) := by
  have effects := h.effects_eq (a.nameOf c.state) input top
  rw [effects_nameOf closed_a look.left_valid, look.name_eq,
    effects_nameOf closed_b look.right_valid, ← List.forall₂_eq_eq_eq] at effects
  rwa [List.forall₂_map_left_iff, List.forall₂_map_right_iff] at effects

/-- The successors under one key look alike, place by place. -/
theorem forall₂_successorsUnder (h : Alike a b) (closed_a : a.Closed) (closed_b : b.Closed)
    (look : LooksLike a b c d) (consumed top : Symbol) (below rest : List Symbol) :
    List.Forall₂ (LooksLike a b)
      ((a.successorsUnder c consumed top below rest).map (·.configuration))
      ((b.successorsUnder d consumed top below rest).map (·.configuration)) := by
  have outcomes := h.forall₂_outcomes closed_a closed_b look consumed top
  unfold successorsUnder
  rw [List.map_map, List.map_map, List.forall₂_map_left_iff, List.forall₂_map_right_iff]
  refine List.forall₂_iff_zip.2 ⟨outcomes.length_eq, fun {o p} paired => ?_⟩
  obtain ⟨ho, hp⟩ := List.of_mem_zip paired
  have same : a.effect o = b.effect p := (List.forall₂_iff_zip.1 outcomes).2 paired
  obtain ⟨name_eq, push_eq⟩ := Prod.mk.inj same
  refine ⟨(closed_a.declares_of_mem_outcomes ho).target_lt,
    (closed_b.declares_of_mem_outcomes hp).target_lt, name_eq, rfl, ?_⟩
  show (⟨c.stack.alphabet, Symbol.withoutEpsilon o.push ++ below⟩ : Stack) =
    ⟨d.stack.alphabet, Symbol.withoutEpsilon p.push ++ below⟩
  rw [look.stack_eq, push_eq]

/-- Searches of automata that are alike go in lockstep. -/
theorem lockstep (h : Alike a b) (closed_a : a.Closed) (closed_b : b.Closed) :
    Lockstep a b (LooksLike a b) where
  accepting_iff look := by
    rw [Configuration.IsAccepting, Configuration.IsAccepting, look.input_eq, look.stack_eq]
  blockedOn?_eq look := by
    rw [blockedOn?, blockedOn?, look.input_eq, look.stack_eq, h.inputAlphabet_eq]
  children look := by
    have under := h.forall₂_successorsUnder closed_a closed_b look
    unfold children successors
    rw [look.input_eq, look.stack_eq, h.inputAlphabet_eq]
    split
    · exact .nil
    · exact under ..
    · split
      · exact under ..
      · split
        · rw [List.map_append, List.map_append]
          exact List.rel_append (under ..) (under ..)
        · exact .nil

theorem looksLike_initialConfiguration (h : Alike a b) (closed_a : a.Closed) (closed_b : b.Closed)
    (input : String) :
    LooksLike a b (a.initialConfiguration input) (b.initialConfiguration input) where
  left_valid := closed_a.initialState_lt
  right_valid := closed_b.initialState_lt
  name_eq := h.initialState_eq
  input_eq := rfl
  stack_eq := by
    rw [initialConfiguration, initialConfiguration, h.stackAlphabet_eq, h.initialSymbol_eq]

/-- Automata that are alike run alike. -/
theorem runsLike (h : Alike a b) (closed_a : a.Closed) (closed_b : b.Closed) : RunsLike a b := by
  intro limits input
  have start := h.looksLike_initialConfiguration closed_a closed_b input
  have lockstep := h.lockstep closed_a closed_b
  refine ⟨lockstep.run_eq closed_a closed_b h.inputAlphabet_eq start limits, ?_⟩
  have seen := lockstep.observed closed_a closed_b start limits
  rw [← List.forall₂_eq_eq_eq, List.forall₂_map_left_iff, List.forall₂_map_right_iff]
  exact seen.imp fun c d look => look.shown_eq

end Alike

end Pushdown.Automaton
