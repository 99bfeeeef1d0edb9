import Pushdown.Execution
import Pushdown.Text.Quoted

/-!
# Logging

What is worth telling about loading and running is a `LogEvent`. An event has a level, a
message and fields. A log is kept at a level, and has the events of that level and of the
graver ones (`Level.shows`). What runs is given a `Log` and tells it of events as they come
(`Log.tell`).

`Log.events_foldl_tell` says what a log has after some events.
-/

namespace Pushdown

/-- How grave an event is, the gravest first. -/
inductive Level where
  | error
  | warn
  | info
  | debug
  | trace
deriving DecidableEq

namespace Level

/-- The place of a level, the gravest first. -/
def rank : Level → Nat
  | error => 0
  | warn => 1
  | info => 2
  | debug => 3
  | trace => 4

/-- Whether a log kept at one level has the events of another. -/
def shows (kept level : Level) : Bool := level.rank ≤ kept.rank

/-- How a log names a level. -/
def label : Level → String
  | error => "ERROR"
  | warn => "WARN"
  | info => "INFO"
  | debug => "DEBUG"
  | trace => "TRACE"

end Level

/-! ## Verdicts in a log -/

/-- How a log writes an alphabet. -/
def Alphabet.logText (a : Alphabet) : String :=
  "Alphabet(\x7b" ++
    ", ".intercalate (a.symbols.map fun s => "Symbol(" ++ Text.quotedChar s ++ ")") ++ "\x7d)"

/-- How a log writes the error that ended a run. -/
def Error.logText : Error → String
  | .file fault => "FileError(" ++ Text.quoted fault.message ++ ")"
  | .layout report => "ParseError(" ++ Text.quoted report.toText ++ ")"
  | .definition fault => "DefinitionError(" ++ Text.quoted fault.message ++ ")"
  | .undeclaredInput symbol declared =>
    "InvalidInput \x7b symbol: Symbol(" ++ Text.quotedChar symbol ++ "), alphabet: " ++
      declared.logText ++ " \x7d"
  | .boundExceeded bound => "BoundExceeded(" ++ toString bound ++ ")"

/-- How a log writes a verdict. -/
def Verdict.logText : Verdict → String
  | .accepted => "Accepted"
  | .rejected => "Rejected"
  | .failed error => "Failed(" ++ error.logText ++ ")"

/-! ## Events -/

/-- Something worth telling. -/
inductive LogEvent where
  /-- A definition lists the empty symbol in its input alphabet, on this line. -/
  | epsilonListed (line : Nat)
  /-- A file was read and its definition is about to be. -/
  | loadingDefinition (path : String)
  /-- A definition was read. -/
  | definitionLoaded (states transitions : Nat)
  /-- The limits of the runs to come are settled. -/
  | engineConfigured (maxTransitions : Nat)
  /-- A configuration was taken: its state, how much input it has left, how high its stack is. -/
  | expandingConfiguration (state : String) (remaining depth : Nat)
  /-- A run ended. -/
  | runFinished (input : String) (execution : Execution)
deriving DecidableEq

/-- The value of a field of an event. -/
inductive FieldValue where
  | number (n : Nat)
  /-- A text that a log line shows as it is. -/
  | plain (text : String)
  /-- A text that a log line shows between quotes. -/
  | text (text : String)
deriving DecidableEq

namespace LogEvent

/-- How grave an event is. -/
def level : LogEvent → Level
  | epsilonListed _ => .warn
  | loadingDefinition _ | definitionLoaded .. | engineConfigured _ | runFinished .. => .debug
  | expandingConfiguration .. => .trace

/-- What an event says. -/
def message : LogEvent → String
  | epsilonListed _ => "epsilon listed in input alphabet"
  | loadingDefinition _ => "loading definition"
  | definitionLoaded .. => "definition loaded"
  | engineConfigured _ => "engine configured"
  | expandingConfiguration .. => "expanding configuration"
  | runFinished .. => "run finished"

/-- The particulars of an event, by name. -/
def fields : LogEvent → List (String × FieldValue)
  | epsilonListed line => [("line", .number line)]
  | loadingDefinition path => [("path", .plain path)]
  | definitionLoaded states transitions =>
    [("states", .number states), ("transitions", .number transitions)]
  | engineConfigured maxTransitions => [("max_transitions", .number maxTransitions)]
  | expandingConfiguration state remaining depth =>
    [("state", .text state), ("remaining", .number remaining), ("depth", .number depth)]
  | runFinished input execution =>
    [("input", .text input), ("verdict", .plain execution.verdict.logText),
     ("transitions", .number execution.transitions)]

/-- An event as a line of a log. -/
def toLine (e : LogEvent) : String :=
  e.fields.foldl
    (fun line (name, value) =>
      line ++ " " ++ name ++ "=" ++
        match value with
        | .number n => toString n
        | .plain text => text
        | .text text => Text.quoted text)
    (e.level.label ++ " " ++ e.message)

end LogEvent

/-- The events that a log kept at a level has. -/
def keptAt (level : Level) (events : List LogEvent) : List LogEvent :=
  events.filter fun e => level.shows e.level

/-- A log that is being kept. -/
structure Log where
  level : Level
  /-- The events that it has, the latest first. -/
  kept : List LogEvent
deriving DecidableEq

namespace Log

/-- The log kept at a level that has nothing yet. -/
def blank (level : Level) : Log := ⟨level, []⟩

/-- The log that has only what is gravest: nothing, for a run. -/
def silent : Log := blank .error

/-- A log is told of an event. -/
def tell (log : Log) (e : LogEvent) : Log :=
  if log.level.shows e.level then { log with kept := e :: log.kept } else log

/-- The events that a log has, in order. -/
def events (log : Log) : List LogEvent := log.kept.reverse

@[simp] theorem events_blank (level : Level) : (blank level).events = [] := rfl

@[simp] theorem level_tell (log : Log) (e : LogEvent) : (log.tell e).level = log.level := by
  unfold tell
  split
  · rfl
  · rfl

theorem events_tell (log : Log) (e : LogEvent) :
    (log.tell e).events = log.events ++ keptAt log.level [e] := by
  unfold tell keptAt events
  cases shown : log.level.shows e.level with
  | true => simp [shown]
  | false => simp [shown]

@[simp] theorem level_foldl_tell (log : Log) (events : List LogEvent) :
    (events.foldl tell log).level = log.level := by
  induction events generalizing log with
  | nil => rfl
  | cons e rest ih => rw [List.foldl_cons, ih, level_tell]

/-- Of what it is told a log has what its level shows. -/
theorem events_foldl_tell (log : Log) (events : List LogEvent) :
    (events.foldl tell log).events = log.events ++ keptAt log.level events := by
  induction events generalizing log with
  | nil => exact (List.append_nil _).symm
  | cons e rest ih =>
    rw [List.foldl_cons, ih, events_tell, level_tell, List.append_assoc]
    exact congrArg (log.events ++ ·) (List.filter_append [e] rest).symm

end Log

end Pushdown
