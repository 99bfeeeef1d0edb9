import Pushdown.Definition.Load

/-!
# Sample automata

Four automata come with the library, as definitions: one that accepts balanced parentheses,
one for words of `a`s and as many `b`s after them, one for palindromes of even length, and
one that never stops of itself.
-/

namespace Pushdown

/-- An automaton with the definition it was loaded from. -/
structure Sample where
  name : String
  source : String
  automaton : Automaton

namespace Sample

/-- A text of lines, each with its end. -/
def ofLines (lines : List String) : String := String.join (lines.map (· ++ "\n"))

/-- Words of balanced parentheses. -/
def balancedParentheses : String :=
  ofLines
    ["# Balanced parentheses, accepted by empty stack.",
     "# X counts open parentheses; Z marks the bottom and is",
     "# dropped by an epsilon move once everything is closed.",
     "q",
     "( )",
     "Z X",
     "q",
     "Z",
     "q ( Z q XZ",
     "q ( X q XX",
     "q ) X q .",
     "q . Z q ."]

/-- Words of some `a`s and then as many `b`s. -/
def anbn : String :=
  ofLines
    ["# a^n b^n for n >= 0.",
     "# q0 counts a's with A, q1 matches each b against one A.",
     "q0 q1",
     "a b",
     "A Z",
     "q0",
     "Z",
     "q0 a Z q0 AZ",
     "q0 a A q0 AA",
     "q0 . Z q1 Z",
     "q0 b A q1 .",
     "q1 b A q1 .",
     "q1 . Z q1 ."]

/-- Words of even length that read the same backwards. -/
def evenPalindrome : String :=
  ofLines
    ["# Even-length palindromes over \x7ba, b\x7d.",
     "# The machine guesses the middle of the word: in push every",
     "# symbol read is pushed, and an epsilon move switches to pop.",
     "push pop",
     "a b",
     "A B Z",
     "push",
     "Z",
     "push a Z push AZ",
     "push a A push AA",
     "push a B push AB",
     "push b Z push BZ",
     "push b A push BA",
     "push b B push BB",
     "push . Z pop Z",
     "push . A pop A",
     "push . B pop B",
     "pop a A pop .",
     "pop b B pop .",
     "pop . Z pop ."]

/-- Every run takes as many configurations as it is allowed to. -/
def epsilonLoop : String :=
  ofLines
    ["# Never halts on its own: the epsilon move rewrites Z with Z",
     "# forever, so every run ends at the transition bound.",
     "q",
     "a",
     "Z",
     "q",
     "Z",
     "q . Z q Z"]

/-- The definitions, with the names of the samples. -/
def definitions : List (String × String) :=
  [("balanced-parentheses", balancedParentheses),
   ("anbn", anbn),
   ("even-palindrome", evenPalindrome),
   ("epsilon-loop", epsilonLoop)]

/-- The sample of a definition, if that can be loaded. -/
def ofDefinition? (name source : String) : Option Sample :=
  match Definition.load source with
  | .ok automaton => some { name, source, automaton }
  | .error _ => none

/-- All samples. -/
def all : List Sample := definitions.filterMap fun (name, source) => ofDefinition? name source

/-- The names of all samples. -/
def names : List String := all.map (·.name)

/-- The sample of a name. -/
def find? (name : String) : Option Sample := all.find? (·.name == name)

/-- What there is to log when the samples are loaded. -/
def log : List LogEvent := definitions.flatMap fun (_, source) => (Definition.loadLogged source).1

end Sample

end Pushdown
