import Pushdown.Alphabet.Declare
import Pushdown.Automaton

/-!
# Building an automaton

An automaton is built by calls that declare states and symbols and add transitions, in any
order; a transition may only name what has been declared before it. `Builder.build` ends the
building with the initial state and symbol. A call is refused with the first cause that
applies, and a refused call changes nothing (`Builder.perform_of_error`).
-/

namespace Pushdown.Automaton

/-- An automaton in the making. -/
structure Builder where
  states : Array State
  inputAlphabet : Alphabet
  stackAlphabet : Alphabet
deriving DecidableEq

namespace Builder

/-- Nothing declared yet. -/
def empty : Builder := ⟨#[], .empty, .empty⟩

/-- The names declared so far, in order. -/
def names (b : Builder) : List String := b.states.toList.map (·.name)

/-- The number of a declared state. -/
def lookup (b : Builder) (role : StateRole) (name : String) : Except DefinitionFault StateId :=
  match b.states.findIdx? (·.name == name) with
  | some index => .ok ⟨index⟩
  | none => .error (.undeclaredState role name b.names)

/-- Declares a state; each name only once. -/
def declareState (b : Builder) (name : String) : Except DefinitionFault (StateId × Builder) :=
  match b.states.findIdx? (·.name == name) with
  | some _ => .error (.duplicateState name)
  | none => .ok (⟨b.states.size⟩, { b with states := b.states.push ⟨name, .empty⟩ })

/-- Declares an input symbol. -/
def declareInput (b : Builder) (s : Symbol) : Except DefinitionFault Builder := do
  let inputAlphabet ← b.inputAlphabet.declare s
  return { b with inputAlphabet }

/-- Declares a stack symbol. -/
def declareStack (b : Builder) (s : Symbol) : Except DefinitionFault Builder := do
  let stackAlphabet ← b.stackAlphabet.declare s
  return { b with stackAlphabet }

/-- Refuses a symbol that is not in an alphabet. -/
def demand (role : SymbolRole) (s : Symbol) (declared : Alphabet) : Except DefinitionFault Unit :=
  if declared.contains s then .ok () else .error (.undeclaredSymbol role s declared)

/-- Refuses a symbol that is neither empty nor in an alphabet. -/
def demandUnlessEpsilon (role : SymbolRole) (s : Symbol) (declared : Alphabet) :
    Except DefinitionFault Unit :=
  if s.isEpsilon then .ok () else demand role s declared

/-- Adds the transition that, in state `source` with `top` on the stack, reads `input`,
enters `target` and puts `push` in the place of `top`. -/
def addTransition (b : Builder) (source : String) (input top : Symbol) (target : String)
    (push : List Symbol) : Except DefinitionFault Builder := do
  let source ← b.lookup .source source
  let target ← b.lookup .target target
  demandUnlessEpsilon .input input b.inputAlphabet
  demand .top top b.stackAlphabet
  push.forM fun s => demandUnlessEpsilon .push s b.stackAlphabet
  return { b with
    states := b.states.modify source.index fun state =>
      { state with table := state.table.add ⟨input, top⟩ ⟨target, push⟩ } }

/-- The finished automaton, with its initial state and the initial symbol of its stack. -/
def build (b : Builder) (initialState : String) (initialSymbol : Symbol) :
    Except DefinitionFault Automaton := do
  let initialState ← b.lookup .initial initialState
  demand .initial initialSymbol b.stackAlphabet
  return { states := b.states
           inputAlphabet := b.inputAlphabet
           stackAlphabet := b.stackAlphabet
           initialState
           initialSymbol }

/-! ## Calls as data -/

/-- One call on a builder. -/
inductive Call where
  | state (name : String)
  | input (symbol : Symbol)
  | stack (symbol : Symbol)
  | transition (source : String) (input top : Symbol) (target : String) (push : List Symbol)

/-- What a call would make of the builder, and the number of the state if it declares one. -/
def attempt (b : Builder) : Call → Except DefinitionFault (Option StateId × Builder)
  | .state name => do
    let (id, b) ← b.declareState name
    return (some id, b)
  | .input s => do return (none, ← b.declareInput s)
  | .stack s => do return (none, ← b.declareStack s)
  | .transition source input top target push => do
    return (none, ← b.addTransition source input top target push)

/-- Performs a call: the builder afterwards, and the call's answer. -/
def perform (b : Builder) (call : Call) : Builder × Except DefinitionFault (Option StateId) :=
  match b.attempt call with
  | .ok (id, b') => (b', .ok id)
  | .error fault => (b, .error fault)

/-- A refused call changes nothing. -/
theorem perform_of_error {b : Builder} {call : Call} {fault : DefinitionFault}
    (h : (b.perform call).2 = .error fault) : (b.perform call).1 = b := by
  unfold perform at *
  split at h
  · simp at h
  · rfl

end Builder

end Pushdown.Automaton
