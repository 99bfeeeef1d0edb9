import Pushdown.Automaton.Builder

/-!
# Summaries

A summary of an automaton names what the automaton refers to by number, and writes alphabets
and pushed sequences as texts. It says everything about the automaton: `Summary.calls` are
calls on a builder that make the automaton again.
-/

namespace Pushdown

/-- One transition, by names. -/
structure TransitionSummary where
  source : String
  input : Symbol
  top : Symbol
  target : String
  push : String
deriving DecidableEq

/-- A flat description of an automaton. -/
structure Summary where
  /-- What the automaton is called. -/
  name : String
  /-- The names of the states, in order. -/
  states : List String
  inputAlphabet : String
  stackAlphabet : String
  initialState : String
  initialSymbol : Symbol
  /-- The transitions, by state, and under one state in the order of its table. -/
  transitions : List TransitionSummary
deriving DecidableEq

namespace Automaton

/-- The summary of one entry of the table of a state. -/
def summarizeEntry (a : Automaton) (source : State) (e : Transition.Entry) : TransitionSummary :=
  { source := source.name
    input := e.key.input
    top := e.key.top
    target := a.nameOf e.outcome.target
    push := Symbol.toText e.outcome.push }

/-- The summary of an automaton. -/
def summary (a : Automaton) (name : String) : Summary :=
  { name
    states := a.states.toList.map (·.name)
    inputAlphabet := a.inputAlphabet.toText
    stackAlphabet := a.stackAlphabet.toText
    initialState := a.nameOf a.initialState
    initialSymbol := a.initialSymbol
    transitions :=
      a.states.toList.flatMap fun state => state.table.entries.map (a.summarizeEntry state) }

end Automaton

namespace Summary

/-- The symbols of the written form of an alphabet: the characters at even places. -/
def symbolsOf : List Char → List Symbol
  | [] => []
  | [s] => [s]
  | s :: _ :: rest => s :: symbolsOf rest

/-- The calls that build the automaton of a summary. -/
def calls (s : Summary) : List Automaton.Builder.Call :=
  s.states.map .state ++
    (symbolsOf s.inputAlphabet.toList).map .input ++
    (symbolsOf s.stackAlphabet.toList).map .stack ++
    s.transitions.map fun t => .transition t.source t.input t.top t.target (Symbol.ofText t.push)

/-- The automaton of a summary, or the first fault. -/
def rebuild (s : Summary) : Except DefinitionFault Automaton := do
  let b ← s.calls.foldlM (fun b call => do return (← b.attempt call).2) Automaton.Builder.empty
  b.build s.initialState s.initialSymbol

/-- The line of a transition in a definition. -/
def transitionLine (t : TransitionSummary) : String :=
  " ".intercalate
    [t.source, String.singleton t.input, String.singleton t.top, t.target, t.push]

/-- A definition in the line format. An input alphabet without symbols is written as the
empty symbol. -/
def definitionText (s : Summary) : String :=
  "\n".intercalate <|
    [" ".intercalate s.states,
     if s.inputAlphabet.isEmpty then String.singleton Symbol.epsilon else s.inputAlphabet,
     s.stackAlphabet,
     s.initialState,
     String.singleton s.initialSymbol] ++ s.transitions.map transitionLine

end Summary

end Pushdown
