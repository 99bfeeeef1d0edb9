import Pushdown.Alphabet
import Pushdown.Definition.Report

/-!
# What can go wrong

Four kinds of cause, each a type of its own: a file cannot be reached (`AccessFault`), so a
definition or a directory cannot be read (`FileFault`); a definition, or a call that builds
an automaton, names something undeclared or reserved (`DefinitionFault`); and `Error`
gathers these with a text that does not follow the line format and with the two ways a run
ends without an answer.

The wording of each cause is in one function, `message`. A fault found while a definition is
read carries the number of its line (`DefinitionFault.onLine`).
-/

namespace Pushdown

/-- Why a path does not lead to a text. -/
inductive AccessFault where
  /-- No entry has this name. -/
  | notFound
  /-- A file stands where the path needs a directory. -/
  | notDirectory
  /-- The path leads to a directory. -/
  | isDirectory
  /-- The path, or one name of it, is longer than it may be. -/
  | nameTooLong
  /-- The path has a character that no name can have. -/
  | nulInPath
  /-- The bytes of the file are not UTF-8. -/
  | notText
  /-- A cause known by its wording alone. -/
  | stated (text : String)
deriving DecidableEq

/-- The wording of an access fault. -/
def AccessFault.message : AccessFault → String
  | notFound => "No such file or directory (os error 2)"
  | notDirectory => "Not a directory (os error 20)"
  | isDirectory => "Is a directory (os error 21)"
  | nameTooLong => "File name too long (os error 36)"
  | nulInPath => "file name contained an unexpected NUL byte"
  | notText => "stream did not contain valid UTF-8"
  | stated text => text

/-- Why a definition file or a directory of them cannot be read. -/
inductive FileFault where
  | unreadableFile (path : String) (cause : AccessFault)
  | missingDirectory (path : String)
  | unreadableDirectory (path : String) (cause : AccessFault)
  /-- A cause known by its wording alone. -/
  | stated (text : String)
deriving DecidableEq

/-- The wording of a file fault. -/
def FileFault.message : FileFault → String
  | unreadableFile path cause => s!"File '{path}' could not be read: " ++ cause.message
  | missingDirectory path => s!"Directory {path} does not exist"
  | unreadableDirectory path cause => s!"Failed to read directory {path}: " ++ cause.message
  | stated text => text

/-- What an undeclared state name was given for. -/
inductive StateRole where
  /-- The state a transition leaves. -/
  | source
  /-- The state a transition enters. -/
  | target
  /-- The state a run starts in. -/
  | initial
deriving DecidableEq

/-- How a message names a state's role. -/
def StateRole.label : StateRole → String
  | source => "From state"
  | target => "To state"
  | initial => "Initial state"

/-- What an undeclared symbol was given for. -/
inductive SymbolRole where
  /-- The symbol a transition reads. -/
  | input
  /-- The stack top a transition replaces. -/
  | top
  /-- A symbol a transition pushes. -/
  | push
  /-- The symbol a run starts with on its stack. -/
  | initial
  /-- A symbol put on a stack directly. -/
  | stored
deriving DecidableEq

/-- How a message names a symbol's role. -/
def SymbolRole.label : SymbolRole → String
  | input => "Input symbol:"
  | top => "Stack symbol:"
  | push => "Push symbol:"
  | initial => "Initial stack symbol:"
  | stored => "Stack symbol"

/-- How a message names the alphabet that a symbol of this role is looked up in. -/
def SymbolRole.vocabulary : SymbolRole → String
  | input => "alphabet"
  | _ => "stack alphabet"

/-- Why a definition, or one call that builds an automaton, is refused. -/
inductive DefinitionFault where
  /-- The definition has more bytes than a definition may have. -/
  | oversized (bytes limit : Nat)
  /-- The empty symbol was declared as a member of an alphabet. -/
  | reservedSymbol
  /-- A state was declared twice. -/
  | duplicateState (name : String)
  /-- A state name is not among the declared ones. -/
  | undeclaredState (role : StateRole) (name : String) (declared : List String)
  /-- A symbol is not in the alphabet it should be from. -/
  | undeclaredSymbol (role : SymbolRole) (symbol : Symbol) (declared : Alphabet)
  /-- A token that should be a symbol has more than one character. -/
  | longSymbol (text : String)
  /-- A text that follows the line format holds no definition. -/
  | emptyDefinition
  /-- A line that follows the line format lacks a token. -/
  | incompleteLine
  /-- A definition that follows the line format lacks a line. -/
  | missingLine (what : String)
  /-- The fault was found on a line of a definition. -/
  | onLine (line : Nat) (fault : DefinitionFault)
  /-- A cause known by its wording alone. -/
  | stated (text : String)
deriving DecidableEq

/-- The wording of a definition fault. -/
def DefinitionFault.message : DefinitionFault → String
  | oversized bytes limit => s!"Definition is {bytes} bytes, the limit is {limit} bytes"
  | reservedSymbol =>
    "Symbol '" ++ String.singleton Symbol.epsilon ++
      "' is reserved for epsilon and cannot be part of an alphabet"
  | duplicateState name => s!"Duplicate state: '{name}'"
  | undeclaredState role name declared =>
    role.label ++ s!": '{name}' not found in states list ( " ++ " ".intercalate declared ++ " )"
  | undeclaredSymbol role symbol declared =>
    role.label ++ s!" '{symbol}' not found in " ++ role.vocabulary ++
      " ( " ++ declared.toText ++ " )"
  | longSymbol text => s!"Symbol '{text}' must be a single character"
  | emptyDefinition => "Empty definition"
  | incompleteLine => "Incomplete line"
  | missingLine what => s!"Missing {what} line"
  | onLine line fault => s!"line {line}: " ++ fault.message
  | stated text => text

/-- Everything that keeps a definition from loading or a run from answering. -/
inductive Error where
  /-- A file or directory cannot be read. -/
  | file (fault : FileFault)
  /-- A text does not follow the line format. -/
  | layout (report : Definition.Report)
  /-- A definition names something undeclared, reserved or repeated. -/
  | definition (fault : DefinitionFault)
  /-- A run reached a symbol that is not in the input alphabet. -/
  | undeclaredInput (symbol : Symbol) (declared : Alphabet)
  /-- A run took as many configurations as it was allowed to. -/
  | boundExceeded (bound : Nat)
deriving DecidableEq

namespace Error

/-- The wording of an error. -/
def message : Error → String
  | file fault => "File error: " ++ fault.message
  | layout report => "Definition parsing error: " ++ report.toText
  | definition fault => "Definition error: " ++ fault.message
  | undeclaredInput symbol declared =>
    s!"Runtime error: symbol '{symbol}' not found in input alphabet ( " ++ declared.toText ++ " )"
  | boundExceeded bound => s!"Runtime error: computation bound of {bound} transitions exceeded"

/-- Whether an error arises before any run: while a definition is loaded or an automaton built. -/
def isDefinitionError : Error → Bool
  | file _ | layout _ | definition _ => true
  | undeclaredInput .. | boundExceeded _ => false

end Error

end Pushdown
