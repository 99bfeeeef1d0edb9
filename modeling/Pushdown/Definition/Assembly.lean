import Pushdown.Automaton.Builder
import Pushdown.Definition.Layout

/-!
# Assembling an automaton

What stands in a text comes as a sequence of its parts in their order: one `Part` for each line
that counts, with the tokens of that line. `assemble` takes one part after another. Rows of
declarations and transitions go to a builder at once; what the two initial lines name is kept
until all parts have been taken, and only then looked up, the symbol before the state.

Neither a part nor a sequence of parts says of itself that it is complete. A line that should have
one more token (`nextToken`) and an initial line that should have been there (`required`) have
faults of their own.
-/

namespace Pushdown.Definition

/-- Notes on a fault the line it was found on. -/
def onLine {α : Type} (line : Nat) : Except DefinitionFault α → Except DefinitionFault α
  | .ok a => .ok a
  | .error fault => .error (.onLine line fault)

/-- The symbol that a token should be. -/
def demandSymbol (t : Token) : Except DefinitionFault Symbol :=
  match t.symbol? with
  | some s => .ok s
  | none => .error (.onLine t.line (.longSymbol t.text))

open Automaton (Builder)

/-- Declares the state that a token names. -/
def addState (b : Builder) (t : Token) : Except DefinitionFault Builder := do
  let (_, b) ← onLine t.line (b.declareState t.text)
  return b

/-- Declares an input symbol, unless it is the empty one. -/
def addInput (b : Builder) (t : Token) : Except DefinitionFault Builder := do
  let s ← demandSymbol t
  if s.isEpsilon then return b else onLine t.line (b.declareInput s)

/-- Declares a stack symbol. -/
def addStack (b : Builder) (t : Token) : Except DefinitionFault Builder := do
  let s ← demandSymbol t
  onLine t.line (b.declareStack s)

/-- A line of a definition. A line on which single tokens are looked for has its number. -/
inductive Part where
  | states (names : List Token)
  | inputAlphabet (symbols : List Token)
  | stackAlphabet (symbols : List Token)
  | initialState (line : Nat) (tokens : List Token)
  | initialSymbol (line : Nat) (tokens : List Token)
  | transition (line : Nat) (tokens : List Token)
  /-- The end of the text. -/
  | ending

/-- What the parts up to some point have given. -/
structure Draft where
  builder : Builder
  /-- The name on the line of the initial state, and the number of that line. -/
  initialState : Option (String × Nat)
  /-- The symbol on the line of the initial symbol, and the number of that line. -/
  initialSymbol : Option (Symbol × Nat)

/-- The next token of a line that should have one more. -/
def nextToken (line : Nat) : List Token → Except DefinitionFault (Token × List Token)
  | [] => onLine line (.error .incompleteLine)
  | t :: rest => .ok (t, rest)

/-- What some line should have given. -/
def required {α : Type} (what : String) : Option α → Except DefinitionFault α
  | none => .error (.missingLine what)
  | some a => .ok a

namespace Draft

/-- What no part has given. -/
def empty : Draft := ⟨.empty, none, none⟩

/-- Takes one part more. -/
def take (d : Draft) : Part → Except DefinitionFault Draft
  | .states names => do
    return { d with builder := ← names.foldlM addState d.builder }
  | .inputAlphabet symbols => do
    return { d with builder := ← symbols.foldlM addInput d.builder }
  | .stackAlphabet symbols => do
    return { d with builder := ← symbols.foldlM addStack d.builder }
  | .initialState line tokens => do
    let (name, _) ← nextToken line tokens
    return { d with initialState := some (name.text, line) }
  | .initialSymbol line tokens => do
    let (symbol, _) ← nextToken line tokens
    return { d with initialSymbol := some (← demandSymbol symbol, line) }
  | .transition line tokens => do
    let (source, tokens) ← nextToken line tokens
    let (input, tokens) ← nextToken line tokens
    let input ← demandSymbol input
    let (top, tokens) ← nextToken line tokens
    let top ← demandSymbol top
    let (target, tokens) ← nextToken line tokens
    let (push, _) ← nextToken line tokens
    return { d with
      builder := ← onLine line
        (d.builder.addTransition source.text input top target.text (Symbol.ofText push.text)) }
  | .ending => return d

end Draft

/-- The automaton that the parts of a definition describe. -/
def assemble (parts : List Part) : Except DefinitionFault Automaton := do
  let d ← parts.foldlM Draft.take .empty
  let (state, stateLine) ← required "initial state" d.initialState
  let (symbol, symbolLine) ← required "initial stack symbol" d.initialSymbol
  onLine symbolLine (Builder.demand .initial symbol d.builder.stackAlphabet)
  onLine stateLine (d.builder.build state symbol)

/-- The part that a transition is. -/
def TransitionLine.part (l : TransitionLine) : Part :=
  .transition l.source.line [l.source, l.input, l.top, l.target, l.push]

namespace Layout

/-- The parts of a layout, in the order of the text. -/
def parts (l : Layout) : List Part :=
  [.states l.states, .inputAlphabet l.inputSymbols, .stackAlphabet l.stackSymbols,
    .initialState l.initialState.line [l.initialState],
    .initialSymbol l.initialSymbol.line [l.initialSymbol]] ++
    l.transitions.map TransitionLine.part ++ [.ending]

/-- The definitions in a text of this layout, each by its parts: there is one. -/
def definitions (l : Layout) : List (List Part) := [l.parts]

/-- The automaton that the tokens of a definition describe. -/
def build (l : Layout) : Except DefinitionFault Automaton :=
  match l.definitions.head? with
  | none => .error .emptyDefinition
  | some parts => assemble parts

end Layout

end Pushdown.Definition
