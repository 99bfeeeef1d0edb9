import Pushdown.Automaton
import Pushdown.Limits
import Pushdown.Log
import Pushdown.Queue

/-!
# Searching for an accepting run

A configuration is a state, the input not yet read and the stack. `Automaton.examine` says
what becomes of one: an empty stack ends its path, in acceptance if the input is used up;
the next input symbol must be declared or the empty symbol, or the search fails; otherwise
the configuration has successors, first those that read the next symbol, then those that
read nothing. Where the input is used up, only the latter; where the next symbol is a
written empty symbol, it is read, and there is no second round.

`Automaton.explore` takes configurations first in, first out, and counts them; reaching the
bound ends the search. An `Observer` is told of each configuration examined and of each move
queued. It has a state of its own and no say in the search: `explore` computes its answer
without looking at that state. A log is told of each configuration examined, too, and at the
end of the result.
-/

namespace Pushdown

/-- A moment of a run. -/
structure Configuration where
  state : StateId
  /-- The input still to be read, next symbol first. -/
  input : List Symbol
  stack : Stack
deriving DecidableEq

/-- A transition taken. -/
structure Move where
  source : StateId
  /-- The symbol read, or the empty one if none was. -/
  consumed : Symbol
  /-- The stack top that was replaced. -/
  top : Symbol
  target : StateId
  /-- What replaced it. -/
  push : List Symbol
deriving DecidableEq

/-- A move and where it leads. -/
structure Successor where
  move : Move
  configuration : Configuration

/-- What becomes of a configuration. -/
inductive Examination where
  /-- The input is used up and the stack empty. -/
  | accepting
  /-- The next symbol of the input is not declared. -/
  | undeclared (symbol : Symbol)
  /-- The moves from here, none if this is a dead end, up to the first whose push is refused. -/
  | moves (successors : List Successor) (refused : Option DefinitionFault)

/-- Someone who is told of a search while it runs, and whose state is of type `σ`. -/
structure Observer (σ : Type) where
  /-- A configuration was taken and is about to be examined. -/
  examined : Automaton → Configuration → σ → σ
  /-- A move was queued. -/
  queued : Automaton → Move → σ → σ

namespace Observer

/-- The observer that notices nothing. -/
def blind {σ : Type} : Observer σ := ⟨fun _ _ => id, fun _ _ => id⟩

end Observer

namespace Automaton

/-- The successors that some outcomes give, when `consumed` is read, `top` is off the stack
and `input` is left; up to the first outcome whose push is refused. -/
def expand (state : StateId) (consumed top : Symbol) (stack : Stack) (input : List Symbol) :
    List Transition.Outcome → List Successor × Option DefinitionFault
  | [] => ([], none)
  | o :: rest =>
    match stack.pushAll o.push with
    | (_, some fault) => ([], some fault)
    | (next, none) =>
      let (successors, refused) := expand state consumed top stack input rest
      (⟨⟨state, consumed, top, o.target, o.push⟩, ⟨o.target, input, next⟩⟩ :: successors, refused)

/-- The successors that read `symbol`, the next of the input, or nothing where `rest` is all
there is. -/
def readMoves (a : Automaton) (state : StateId) (symbol top : Symbol) (stack : Stack)
    (rest : List Symbol) : List Successor × Option DefinitionFault :=
  expand state symbol top stack rest (a.outcomes state symbol top)

/-- What becomes of a configuration. -/
def examine (a : Automaton) (c : Configuration) : Examination :=
  match c.stack.pop? with
  | none => if c.input.isEmpty then .accepting else .moves [] none
  | some (top, stack) =>
    match c.input with
    | [] =>
      let (successors, refused) := a.readMoves c.state Symbol.epsilon top stack []
      .moves successors refused
    | symbol :: rest =>
      -- To read a written empty symbol is to read nothing, so there is no second round.
      if symbol.isEpsilon then
        let (successors, refused) := a.readMoves c.state symbol top stack rest
        .moves successors refused
      else if a.inputAlphabet.contains symbol then
        match a.readMoves c.state symbol top stack rest with
        | (reading, some fault) => .moves reading (some fault)
        | (reading, none) =>
          let (spontaneous, refused) :=
            a.readMoves c.state Symbol.epsilon top stack (symbol :: rest)
          .moves (reading ++ spontaneous) refused
      else .undeclared symbol

/-- What a log is told of a configuration that was taken. -/
def expanding (a : Automaton) (c : Configuration) : LogEvent :=
  .expandingConfiguration (a.nameOf c.state) c.input.length c.stack.size

variable {σ : Type}

/-- The search from a queue on, when `taken` configurations have been taken and `remaining`
more may be taken without reaching `bound`. -/
def explore (a : Automaton) (bound : Nat) (o : Observer σ) :
    (remaining taken : Nat) → Queue Configuration → σ → Log → Execution × σ × Log
  | remaining, taken, queue, seen, log =>
    match queue.pop? with
    | none => (⟨.rejected, taken⟩, seen, log)
    | some (c, queue) =>
      match remaining with
      -- Taking this one reaches the bound: it is counted, but neither shown nor examined.
      | 0 => (⟨.failed (.boundExceeded bound), taken + 1⟩, seen, log)
      | remaining + 1 =>
        let seen := o.examined a c seen
        let log := log.tell (a.expanding c)
        match a.examine c with
        | .accepting => (⟨.accepted, taken + 1⟩, seen, log)
        | .undeclared symbol =>
          (⟨.failed (.undeclaredInput symbol a.inputAlphabet), taken + 1⟩, seen, log)
        | .moves successors refused =>
          let seen := successors.foldl (fun seen s => o.queued a s.move seen) seen
          match refused with
          | some fault => (⟨.failed (.definition fault), taken + 1⟩, seen, log)
          | none =>
            let queue := queue.pushAll (successors.map (·.configuration))
            explore a bound o remaining (taken + 1) queue seen log

/-- The configuration that a run on an input starts from. -/
def start (a : Automaton) (input : List Symbol) : Except DefinitionFault Configuration := do
  return ⟨a.initialState, input, ← a.initialStack⟩

/-- The search on an input. -/
def search (a : Automaton) (limits : Limits) (o : Observer σ) (input : String) (seen : σ)
    (log : Log) : Execution × σ × Log :=
  match a.start (Symbol.ofText input) with
  | .error fault => (⟨.failed (.definition fault), 0⟩, seen, log)
  | .ok c =>
    a.explore limits.maxTransitions o (limits.maxTransitions - 1) 0 (Queue.ofList [c]) seen log

/-- Runs an automaton on an input, under the eyes of an observer, and keeps a log. -/
def runWith (a : Automaton) (limits : Limits) (o : Observer σ) (input : String) (seen : σ)
    (log : Log) : Execution × σ × Log :=
  let (execution, seen, log) := a.search limits o input seen log
  (execution, seen, log.tell (.runFinished input execution))

/-- Runs an automaton on several inputs, one after another, under the eyes of one observer, and
keeps one log. -/
def runEachWith (a : Automaton) (limits : Limits) (o : Observer σ) :
    List String → σ → Log → List Execution × σ × Log
  | [], seen, log => ([], seen, log)
  | input :: rest, seen, log =>
    let (execution, seen, log) := a.runWith limits o input seen log
    let (executions, seen, log) := runEachWith a limits o rest seen log
    (execution :: executions, seen, log)

/-- Runs an automaton on an input. -/
def run (a : Automaton) (limits : Limits) (input : String) : Execution :=
  (a.runWith limits .blind input () .silent).1

/-- Runs an automaton on an input, and keeps a log at a level. -/
def runLogged (a : Automaton) (limits : Limits) (level : Level) (input : String) :
    Execution × List LogEvent :=
  let (execution, _, log) := a.runWith limits .blind input () (.blank level)
  (execution, log.events)

/-- Whether an automaton accepts an input, under the standard limits. -/
def accepts (a : Automaton) (input : String) : Except Error Bool := (a.run .standard input).answer

end Automaton

end Pushdown
