import Pushdown.Definition.Assembly
import Pushdown.Log

/-!
# Loading a definition

`Definition.load` makes an automaton of a text: the text must not be too long, must follow
the line format, and must declare what it names. The tokens are taken in the order of the
text (`Layout.build`), and the first fault refuses the definition, with the number of its line;
only whether the two initial lines name something declared is looked at after everything else,
the symbol first.

The empty symbol can always be read, so listing it in the input alphabet changes nothing and
is merely logged.
-/

namespace Pushdown.Definition

/-- How many bytes a definition may have. -/
def sizeLimit : Nat := 65536

namespace Layout

/-- The empty symbols that were met in the input alphabet: those before the first token that
is no symbol, if the states were in order. -/
def warnings (l : Layout) : List LogEvent :=
  match l.states.foldlM addState .empty with
  | .error _ => []
  | .ok _ =>
    ((l.inputSymbols.takeWhile fun t => t.symbol?.isSome).filter fun t =>
      t.symbol? == some Symbol.epsilon).map fun t => .epsilonListed t.line

end Layout

/-- Makes an automaton of a text, and says what there is to log. -/
def loadLogged (text : String) : List LogEvent × Except Error Automaton :=
  if text.utf8ByteSize > sizeLimit then
    ([], .error (.definition (.oversized text.utf8ByteSize sizeLimit)))
  else
    match Layout.read text with
    | .error report => ([], .error (.layout report))
    | .ok layout =>
      match layout.build with
      | .error fault => (layout.warnings, .error (.definition fault))
      | .ok a =>
        (layout.warnings ++ [.definitionLoaded a.states.size a.transitionCount], .ok a)

/-- Makes an automaton of a text. -/
def load (text : String) : Except Error Automaton := (loadLogged text).2

end Pushdown.Definition
