/-!
# Where a definition departs from the line format

A text that does not follow the line format is refused with a report: a position, the line it stands
on, and what was expected there. A position is a number of characters read before it.

Lines and columns count from one. Only `\n` ends a line, so `\r\n` ends one line and a lone `\r`
none: it is one more column. The line is shown without its line ends, unless the position is at a
line end, when every `\r` and `\n` of it is shown as a picture of itself.
-/

namespace Pushdown.Definition

/-- What may be demanded at a position of a definition. -/
inductive Expected where
  /-- The name of a state. -/
  | name
  /-- A symbol of an alphabet. -/
  | symbol
  /-- What a transition pushes. -/
  | push
  /-- Nothing more. -/
  | endOfInput
deriving DecidableEq

/-- The word for it in a report. -/
def Expected.label : Expected → String
  | name => "name"
  | symbol => "symbol"
  | push => "push"
  | endOfInput => "EOI"

/-- A position where something was demanded and not found. -/
structure Failure where
  /-- How many characters precede the position. -/
  offset : Nat
  /-- What was demanded. -/
  expected : Expected
deriving DecidableEq

/-- The farther of two failures, the first of two equally far ones. -/
def Failure.farther (f g : Failure) : Failure := if f.offset < g.offset then g else f

/-- The farthest of some failures, the first of equally far ones. -/
def Failure.farthest : List Failure → Option Failure
  | [] => none
  | f :: others => some (others.foldl farther f)

/-- A refusal of a text, for its reader. -/
structure Report where
  /-- The line of the failure. -/
  line : Nat
  /-- The column of the failure. -/
  column : Nat
  /-- The line itself, as it is shown. -/
  source : String
  /-- What was expected. -/
  expected : Expected
deriving DecidableEq

namespace Report

/-- The line of a position, given the characters before it. -/
def lineAfter (before : List Char) : Nat := before.count '\n' + 1

/-- What stands before a position on its line, given the characters before it. -/
def headAfter (before : List Char) : List Char :=
  (before.reverse.takeWhile (· != '\n')).reverse

/-- What stands on its line from a position on, its `\n` included. -/
def restOfLine : List Char → List Char
  | [] => []
  | c :: rest => if c = '\n' then [c] else c :: restOfLine rest

/-- Whether a character ends a line in some convention. -/
def isLineEnd (c : Char) : Bool := c == '\n' || c == '\r'

/-- The picture of a line end; any other character as it is. -/
def picture (c : Char) : Char :=
  if c = '\n' then '␊' else if c = '\r' then '␍' else c

/-- A line as a report shows it, given what stands before and after the position. -/
def shown (head tail : List Char) : List Char :=
  -- At a line end the reader must see which one it is.
  if tail.head?.any isLineEnd then (head ++ tail).map picture
  else (head ++ tail).filter fun c => !isLineEnd c

/-- The report of a failure in a text. -/
def ofFailure (text : List Char) (failure : Failure) : Report :=
  let before := text.take failure.offset
  let head := headAfter before
  { line := lineAfter before
    column := head.length + 1
    source := String.ofList (shown head (restOfLine (text.drop failure.offset)))
    expected := failure.expected }

/-- The blanks that put the marker under its column: a tab stays a tab. -/
def padding (r : Report) : String :=
  String.ofList ((r.source.toList.take (r.column - 1)).map fun c => if c = '\t' then '\t' else ' ')

/-- The text of a report. -/
def toText (r : Report) : String :=
  let number := toString r.line
  let margin := String.ofList (List.replicate number.length ' ')
  "\n".intercalate
    [margin ++ "--> " ++ number ++ ":" ++ toString r.column,
     margin ++ " |",
     number ++ " | " ++ r.source,
     margin ++ " | " ++ r.padding ++ "^---",
     margin ++ " |",
     margin ++ " = expected " ++ r.expected.label]

end Report

end Pushdown.Definition
