import Pushdown.Limits

/-!
# Arguments of the command

The arguments name a definition file or a sample and say what to do with it. They are read
from left to right (`Given.take`) into what has been given so far; the first argument that
is wrong, or that asks for help or the version, ends the reading. Only then is it looked at
whether what was given makes a `Command`.

A setting takes a value: attached to its name, after `=`, or as the next argument, unless
that looks like a switch itself. Letters can stand together after one dash, and a setting
among them takes the rest of the argument. After `--` nothing is a switch.
-/

namespace Pushdown.CommandLine

/-- Why some arguments make no command. -/
inductive Misuse where
  | unknownArgument (argument : String)
  | repeatedArgument (name : String)
  | missingValue (name : String)
  | unexpectedValue (name : String)
  | invalidValue (name value : String)
  | conflict (name other : String)
  | missingDefinition
deriving DecidableEq

/-- The wording of a misuse. -/
def Misuse.message : Misuse → String
  | unknownArgument argument => s!"unexpected argument '{argument}'"
  | repeatedArgument name => s!"'{name}' cannot be used more than once"
  | missingValue name => s!"'{name}' needs a value"
  | unexpectedValue name => s!"'{name}' takes no value"
  | invalidValue name value => s!"'{value}' is no value for '{name}'"
  | conflict name other => s!"'{name}' cannot be used with '{other}'"
  | missingDefinition => "no definition file given"

/-- Why the reading of arguments ends before their end. -/
inductive Interruption where
  | help
  | version
  | misuse (m : Misuse)
deriving DecidableEq

/-- A switch that is on or off. -/
inductive Flag where
  | list
  | trace
  | describe
deriving DecidableEq

/-- A switch with a value. -/
inductive Setting where
  | sample
  | maxTransitions
  | config
deriving DecidableEq

/-- Everything that has a name. -/
inductive Switch where
  | flag (f : Flag)
  | setting (s : Setting)
  /-- May be given several times. -/
  | verbose
  | help
  | version
deriving DecidableEq

/-- The long name of a flag. -/
def Flag.name : Flag → String
  | list => "list"
  | trace => "trace"
  | describe => "describe"

/-- The long name of a setting. -/
def Setting.name : Setting → String
  | sample => "builtin"
  | maxTransitions => "max-transitions"
  | config => "config"

/-- The long name of a switch. -/
def Switch.name : Switch → String
  | flag f => f.name
  | setting s => s.name
  | verbose => "verbose"
  | help => "help"
  | version => "version"

/-- The letter of a switch. -/
def Switch.letter? : Switch → Option Char
  | flag .trace => some 't'
  | setting .sample => some 'b'
  | setting .maxTransitions => some 'm'
  | setting .config => some 'c'
  | verbose => some 'v'
  | help => some 'h'
  | version => some 'V'
  | flag .list | flag .describe => none

/-- All switches. -/
def Switch.all : List Switch :=
  [.flag .list, .flag .trace, .flag .describe, .setting .sample, .setting .maxTransitions,
   .setting .config, .verbose, .help, .version]

/-- What has been given so far. -/
structure Given where
  definition : Option String
  sample : Option String
  config : Option String
  maxTransitions : Option Nat
  flags : List Flag
  verbosity : Nat
  /-- The setting whose value the next argument should be. -/
  awaiting : Option Setting
  /-- Whether `--` has been passed. -/
  plainOnly : Bool

namespace Given

/-- Nothing given. -/
def nothing : Given :=
  { definition := none, sample := none, config := none, maxTransitions := none, flags := []
    verbosity := 0, awaiting := none, plainOnly := false }

/-- Ends the reading. -/
def refuse {α : Type} (m : Misuse) : Except Interruption α := .error (.misuse m)

/-- The greatest number that can be given. -/
def greatestNumber : Nat := Nat.pow 2 64 - 1

/-- The number that a text of digits stands for; there may be a plus before them. -/
def number? (text : String) : Option Nat :=
  let digits :=
    match text.toList with
    | '+' :: digits => digits
    | digits => digits
  if digits.isEmpty || !digits.all Char.isDigit then none
  else
    let n := digits.foldl (fun n c => 10 * n + (c.toNat - '0'.toNat)) 0
    if n ≤ greatestNumber then some n else none

/-- Gives a value, once. -/
def once {α : Type} (name : String) (old : Option α) (new : α) : Except Interruption (Option α) :=
  match old with
  | some _ => refuse (.repeatedArgument name)
  | none => .ok (some new)

/-- Refuses an empty path. -/
def path (name value : String) : Except Interruption String :=
  if value.isEmpty then refuse (.invalidValue name value) else .ok value

/-- Gives a setting its value. -/
def assign (g : Given) (s : Setting) (value : String) : Except Interruption Given := do
  let g := { g with awaiting := none }
  match s with
  | .sample => return { g with sample := ← once s.name g.sample value }
  | .config => return { g with config := ← once s.name g.config (← path s.name value) }
  | .maxTransitions =>
    match number? value with
    | some n => return { g with maxTransitions := ← once s.name g.maxTransitions n }
    | none => refuse (.invalidValue s.name value)

/-- Gives a switch without a value. -/
def turnOn (g : Given) : Switch → Except Interruption Given
  | .flag f =>
    if g.flags.contains f then refuse (.repeatedArgument f.name)
    else .ok { g with flags := f :: g.flags }
  | .setting s => .ok { g with awaiting := some s }
  | .verbose => .ok { g with verbosity := g.verbosity + 1 }
  | .help => .error .help
  | .version => .error .version

/-- Gives what is no switch. -/
def plain (g : Given) (argument : String) : Except Interruption Given :=
  match g.awaiting with
  | some s => g.assign s argument
  | none =>
    match g.definition with
    | some _ => refuse (.unknownArgument argument)
    | none => do return { g with definition := some (← path "definition" argument) }

/-- Gives a switch by its long name, perhaps with a value. -/
def long (g : Given) (name : String) (value : Option String) : Except Interruption Given :=
  match Switch.all.find? (·.name == name), value with
  | none, _ => refuse (.unknownArgument ("--" ++ name))
  | some s, none => g.turnOn s
  | some (.setting s), some value => g.assign s value
  | some s, some _ => refuse (.unexpectedValue s.name)

/-- Gives switches by their letters. -/
def letters (g : Given) : List Char → Except Interruption Given
  | [] => .ok g
  | c :: rest =>
    match Switch.all.find? (·.letter? == some c), rest with
    | none, _ => refuse (.unknownArgument (String.ofList ['-', c]))
    | some (.setting s), [] => g.turnOn (.setting s)
    -- The sign between a letter and its value is no part of the value.
    | some (.setting s), '=' :: value => g.assign s (String.ofList value)
    | some (.setting s), value => g.assign s (String.ofList value)
    | some s, _ =>
      match g.turnOn s with
      | .error e => .error e
      | .ok g => g.letters rest

/-- Takes in one argument. -/
def take (g : Given) (argument : String) : Except Interruption Given :=
  if g.plainOnly then g.plain argument
  else
    let ifNoneAwaits (next : Except Interruption Given) : Except Interruption Given :=
      match g.awaiting with
      | some s => refuse (.missingValue s.name)
      | none => next
    match argument.toList with
    | ['-', '-'] => ifNoneAwaits (.ok { g with plainOnly := true })
    | '-' :: '-' :: switch =>
      ifNoneAwaits <|
        match switch.dropWhile (· != '=') with
        | [] => g.long (String.ofList switch) none
        | _ :: value =>
          g.long (String.ofList (switch.takeWhile (· != '='))) (some (String.ofList value))
    | '-' :: c :: rest => ifNoneAwaits (g.letters (c :: rest))
    -- A dash alone is no switch.
    | _ => g.plain argument

end Given

/-- Where an automaton comes from. -/
inductive Source where
  /-- A definition file. -/
  | file (path : String)
  /-- One of the samples. -/
  | sample (name : String)
deriving DecidableEq

/-- What to do. -/
inductive Task where
  /-- Name the samples. -/
  | listSamples
  /-- Summarize an automaton. -/
  | describe (source : Source)
  /-- Run an automaton on lines of input, with a file of limits or a number that overrides
  them, tracing the runs or not. -/
  | test (source : Source) (config : Option String) (maxTransitions : Option Nat) (traced : Bool)
deriving DecidableEq

/-- What the arguments ask for. -/
structure Command where
  task : Task
  /-- How often more messages were asked for. -/
  verbosity : Nat
deriving DecidableEq

namespace Given

/-- The command that has been given. -/
def command (g : Given) : Except Misuse Command :=
  match g.awaiting with
  | some s => .error (.missingValue s.name)
  | none =>
    let withSource (source : Source) : Task :=
      if g.flags.contains .describe then .describe source
      else .test source g.config g.maxTransitions (g.flags.contains .trace)
    let finish (task : Task) : Task := if g.flags.contains .list then .listSamples else task
    match g.definition, g.sample with
    | some _, some _ => .error (.conflict Setting.sample.name "definition")
    | some path, none => .ok ⟨finish (withSource (.file path)), g.verbosity⟩
    | none, some name => .ok ⟨finish (withSource (.sample name)), g.verbosity⟩
    | none, none =>
      if g.flags.contains .list then .ok ⟨.listSamples, g.verbosity⟩ else .error .missingDefinition

end Given

/-- Reads arguments as a command. -/
def Command.ofArguments (arguments : List String) : Except Interruption Command :=
  match arguments.foldlM Given.take Given.nothing with
  | .error e => .error e
  | .ok g =>
    match g.command with
    | .error m => .error (.misuse m)
    | .ok command => .ok command

/-! ## Texts about the command itself -/

/-- The name and version of the command. -/
def versionText : String := "pda-cli 0.0.1\n"

/-- How to use the command. -/
def helpText : String :=
  String.join <| List.map (· ++ "\n")
    ["Runs input strings through a pushdown automaton that accepts by empty stack.",
     "",
     "Each line read from stdin is tested; an empty line ends the session.",
     "",
     "Usage: pda-cli [OPTIONS] [DEFINITION]",
     "",
     "Arguments:",
     "  [DEFINITION]  Path to a pushdown automaton definition file (.pda)",
     "",
     "Options:",
     "  -b, --builtin <BUILTIN>  Use a built-in sample automaton instead of a file",
     "      --list               List the built-in sample automata and exit",
     "  -t, --trace              Print every configuration examined and every move queued",
     "  -m, --max-transitions <MAX_TRANSITIONS>",
     "                           Maximum number of configurations processed per input",
     "  -c, --config <CONFIG>    JSON file with engine settings",
     "      --describe           Print the loaded definition as JSON and exit",
     "  -v, --verbose...         Increase log verbosity (-v debug, -vv trace)",
     "  -h, --help               Print help",
     "  -V, --version            Print version"]

end Pushdown.CommandLine
