import Pushdown.CommandLine.Arguments
import Pushdown.Definition.Files
import Pushdown.Interchange
import Pushdown.Sample
import Pushdown.Search.Trace
import Pushdown.Text.Lines

/-!
# Sessions

A session carries out a command. It sees files through a function from paths to their texts,
and standard input as lines, and it is told whether these come from a terminal; what it leaves
is a `Transcript`: what it wrote, what there was to log, and what went wrong in the end, if
anything did.

A session that tests lines (`testLines`) runs the automaton on one line after another, and all
runs write to one output and one log. It ends at the first line that is empty but for its end,
at a line that is no text, or at the first run without an answer. Who sits at a terminal is
told first what is loaded and what to do (`bannerText`).
-/

namespace Pushdown.CommandLine

/-- What went wrong, for the user. -/
structure Complaint where
  message : String
  cause : Option String
deriving DecidableEq

namespace Complaint

/-- Puts four blanks before every line of a text. -/
def indented (text : String) : String :=
  String.ofList ([' ', ' ', ' ', ' '] ++
    text.toList.flatMap fun c => if c = '\n' then ['\n', ' ', ' ', ' ', ' '] else [c])

/-- A complaint as it is shown. -/
def toText (c : Complaint) : String :=
  "Error: " ++ c.message ++ "\n" ++
    match c.cause with
    | none => ""
    | some cause => "\nCaused by:\n" ++ indented cause ++ "\n"

/-- The complaint of an error. Only that of a text that does not follow the line format has
a cause apart from its message. -/
def ofError (e : Error) : Complaint :=
  match e with
  | .layout report => ⟨e.message, some report.toText⟩
  | _ => ⟨e.message, none⟩

end Complaint

/-- What a session leaves. -/
structure Transcript where
  /-- What it wrote. -/
  output : String
  log : List LogEvent
  complaint : Option Complaint

/-- The exit status of a session. -/
def Transcript.status (t : Transcript) : UInt32 := if t.complaint.isSome then 1 else 0

/-- The level of the log of a session. -/
def Command.level (c : Command) : Level :=
  match c.verbosity with
  | 0 => .warn
  | 1 => .debug
  | _ => .trace

/-- The texts of files, by path. -/
abbrev Files := String → Except AccessFault String

/-! ## Testing lines -/

/-- What stands between the answers. -/
def separator : String := String.ofList ((List.replicate 28 ['*', '-']).flatten ++ ['*'])

/-- What a session writes of a run with an answer. -/
def answerText (accepted : Bool) (transitions : Nat) : String :=
  (if accepted then "--> Accepted\n" else "--> Rejected\n") ++
    s!"Transitions processed: {transitions}\n" ++ separator ++ "\n"

/-- What a session writes to a terminal before it reads. -/
def bannerText (name : String) : String :=
  s!"PDA loaded from {name}\nReading input strings from console (empty string to exit)...\n"

/-- The observer of a session's runs, which writes their traces if the session is traced. -/
def sessionObserver (traced : Bool) : Observer String :=
  if traced then Search.tracer else .blind

/-- What runs on lines leave, when something has been written and logged before. -/
def testLines (a : Automaton) (limits : Limits) (o : Observer String) :
    List (Option String) → String → Log → Transcript
  | [], written, log => ⟨written, log.events, none⟩
  | none :: _, written, log =>
    ⟨written, log.events, some ⟨"Failed to read from stdin", some AccessFault.notText.message⟩⟩
  | some line :: rest, written, log =>
    let input := Text.withoutReturns line
    if input.isEmpty then ⟨written, log.events, none⟩
    else
      let (execution, written, log) := a.runWith limits o input written log
      match execution.answer with
      | .ok accepted =>
        testLines a limits o rest (written ++ answerText accepted execution.transitions) log
      -- After a run without an answer no line is looked at.
      | .error e => ⟨written, log.events, some (.ofError e)⟩

/-! ## Whole sessions -/

/-- The automaton of a source and its name, and what there is to log. -/
def Source.load (files : Files) : Source → List LogEvent × Except Complaint (String × Automaton)
  | .sample name =>
    (Sample.log,
      match Sample.find? name with
      | some found => .ok (found.name, found.automaton)
      | none =>
        let available := ", ".intercalate Sample.names
        .error ⟨s!"Unknown built-in program '{name}' (available: {available})", none⟩)
  | .file path =>
    let (log, loaded) := Definition.loadRead path (files path)
    (log,
      match loaded with
      | .ok a => .ok (path, a)
      | .error e => .error (.ofError e))

/-- The limits of a file of limits, or the standard ones; a number overrides either. -/
def chooseLimits (files : Files) (config : Option String) (maxTransitions : Option Nat) :
    Except Complaint Limits := do
  let limits ←
    match config with
    | none => pure Limits.standard
    | some path =>
      match files path with
      | .error fault => .error ⟨s!"Failed to read config file '{path}'", some fault.message⟩
      | .ok text =>
        match Limits.format.read text with
        | .error failure => .error ⟨s!"Invalid config file '{path}'", some failure.message⟩
        | .ok limits => pure limits
  match maxTransitions with
  | none => return limits
  | some n => return ⟨n⟩

/-- What a task leaves, when its lines come from a terminal or not. -/
def Task.perform (files : Files) (lines : List (Option String)) (terminal : Bool) (log : Log) :
    Task → Transcript
  | .listSamples =>
    ⟨String.join (Sample.names.map (· ++ "\n")), (Sample.log.foldl Log.tell log).events, none⟩
  | .describe source =>
    let (loading, loaded) := source.load files
    let log := loading.foldl Log.tell log
    match loaded with
    | .error complaint => ⟨"", log.events, some complaint⟩
    | .ok (name, a) => ⟨(Summary.format.write (a.summary name)).pretty ++ "\n", log.events, none⟩
  | .test source config maxTransitions traced =>
    let (loading, loaded) := source.load files
    let log := loading.foldl Log.tell log
    match loaded with
    | .error complaint => ⟨"", log.events, some complaint⟩
    | .ok (name, a) =>
      match chooseLimits files config maxTransitions with
      | .error complaint => ⟨"", log.events, some complaint⟩
      | .ok limits =>
        testLines a limits (sessionObserver traced) lines (if terminal then bannerText name else "")
          (log.tell (.engineConfigured limits.maxTransitions))

/-- What a command leaves, with a log at its level, when its lines come from a terminal or not. -/
def Command.performAt (terminal : Bool) (c : Command) (files : Files)
    (lines : List (Option String)) : Transcript :=
  c.task.perform files lines terminal (.blank c.level)

/-- What a command leaves whose lines do not come from a terminal. -/
def Command.perform (c : Command) (files : Files) (lines : List (Option String)) : Transcript :=
  c.performAt false files lines

/-- The paths that a command reads. -/
def Command.paths (c : Command) : List String :=
  match c.task with
  | .listSamples => []
  | .describe (.file path) => [path]
  | .describe (.sample _) => []
  | .test (.file path) config _ _ => path :: config.toList
  | .test (.sample _) config _ _ => config.toList

end Pushdown.CommandLine
