import Pushdown.Search

/-!
# Records of a search

What an observer is told of is an `Event`. Two observers are kept here. The `recorder` keeps
all events; the `tracer` writes each down as it comes, in the form `Event.toText`. Since
neither can change a run, a record of any kind can be made from the recorder's
(`Automaton.events`).
-/

namespace Pushdown.Search

/-- Something that an observer is told. -/
inductive Event where
  /-- A configuration was taken. -/
  | examined (configuration : Configuration)
  /-- A move was queued. -/
  | queued (move : Move)
deriving DecidableEq

/-- How the trace writes a configuration. -/
def configurationText (a : Automaton) (c : Configuration) : String :=
  "--------------------\nCurrent transition:\n\tState: " ++ a.nameOf c.state ++
    "\n\tSymbols: " ++ Symbol.toText c.input ++
    "\n\tStack: " ++ c.stack.toText ++
    "\n\tNext transitions:\n"

/-- How the trace writes a move. -/
def moveText (a : Automaton) (m : Move) : String :=
  "\t\tFrom state: " ++ a.nameOf m.source ++
    "\n\t\tConsume: " ++ String.singleton m.consumed ++
    "\n\t\tStack top: " ++ String.singleton m.top ++
    "\n\t\tTo state: " ++ a.nameOf m.target ++
    "\n\t\tStack replacement: " ++ Symbol.toText m.push ++ "\n\n"

/-- How the trace writes an event. -/
def Event.toText (a : Automaton) : Event → String
  | examined c => configurationText a c
  | queued m => moveText a m

/-- The observer that keeps every event, the latest first. -/
def recorder : Observer (List Event) :=
  ⟨fun _ c seen => .examined c :: seen, fun _ m seen => .queued m :: seen⟩

/-- The observer that writes every event down. -/
def tracer : Observer String :=
  ⟨fun a c written => written ++ configurationText a c, fun a m written => written ++ moveText a m⟩

end Pushdown.Search

namespace Pushdown.Automaton

/-- A run and what there was to see of it, in order. -/
def runRecorded (a : Automaton) (limits : Limits) (input : String) :
    Execution × List Search.Event :=
  let (execution, seen, _) := a.runWith limits Search.recorder input [] .silent
  (execution, seen.reverse)

/-- What there is to see of a run, in order. -/
def events (a : Automaton) (limits : Limits) (input : String) : List Search.Event :=
  (a.runRecorded limits input).2

/-- The trace of a run. -/
def trace (a : Automaton) (limits : Limits) (input : String) : String :=
  (a.runWith limits Search.tracer input "" .silent).2.1

end Pushdown.Automaton
