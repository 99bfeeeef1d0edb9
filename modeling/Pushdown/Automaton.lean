import Pushdown.Stack
import Pushdown.Transition.Table

/-!
# Pushdown automata

An automaton is a numbered sequence of named states, each with the table of its transitions,
two alphabets, and what a run starts with: a state and the one symbol on the stack. It is
plain data: that its names are distinct, its numbers in range and its symbols declared is
what `Pushdown.Automaton.Builder` sees to.
-/

namespace Pushdown

/-- A named state and what it may do. -/
structure State where
  name : String
  table : Transition.Table
deriving DecidableEq

instance : Inhabited State := ⟨⟨"", .empty⟩⟩

/-- A nondeterministic pushdown automaton that accepts by empty stack. -/
structure Automaton where
  /-- The states, by number. -/
  states : Array State
  /-- What may stand on the input. -/
  inputAlphabet : Alphabet
  /-- What may stand on the stack. -/
  stackAlphabet : Alphabet
  /-- The state a run starts in. -/
  initialState : StateId
  /-- What the stack holds at the start of a run. -/
  initialSymbol : Symbol
deriving DecidableEq

namespace Automaton

/-- The state of a number, if the automaton has so many. -/
def state? (a : Automaton) (id : StateId) : Option State := a.states[id.index]?

/-- The name of the state of a number; empty if there is none. -/
def nameOf (a : Automaton) (id : StateId) : String := ((a.state? id).map (·.name)).getD ""

/-- What a state offers under an input symbol and a stack top. -/
def outcomes (a : Automaton) (id : StateId) (input top : Symbol) : List Transition.Outcome :=
  match a.state? id with
  | some state => state.table.outcomes ⟨input, top⟩
  | none => []

/-- The number of the state of a name. -/
def find? (a : Automaton) (name : String) : Option StateId :=
  (a.states.findIdx? (·.name == name)).map StateId.mk

/-- The stack a run starts with. -/
def initialStack (a : Automaton) : Except DefinitionFault Stack :=
  Stack.single a.stackAlphabet a.initialSymbol

/-- How many outcomes all tables offer together. -/
def transitionCount (a : Automaton) : Nat :=
  (a.states.toList.flatMap fun state => state.table.entries).length

end Automaton

end Pushdown
