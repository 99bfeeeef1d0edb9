/-!
# Reading positions in a definition

A `Cursor` is a position in a text together with what is still to be read there. It knows
how many characters precede it and which line it is on; a line ends at `\n`, so that `\r\n`
ends one line and a lone `\r` none.

The steps of a reader are functions on cursors: pass over blanks, over a comment, over one
newline, over lines that hold nothing. None of them goes back (`passOver_length_le`), and
one that reads a newline goes forward (`newline?_length_lt`, `emptyLine?_length_lt`), which
is why the loops of a reader end.
-/

namespace Pushdown.Definition

/-- Spaces and tabs separate tokens. -/
def isBlank (c : Char) : Bool := c == ' ' || c == '\t'

/-- Every character that is no blank and no line end belongs to a token. -/
def isGlyph (c : Char) : Bool := !(isBlank c || c == '\n' || c == '\r')

/-- Whatever stands before the end of a line. -/
def isInLine (c : Char) : Bool := !(c == '\n' || c == '\r')

/-- A position in a text. -/
structure Cursor where
  /-- How many characters precede the position. -/
  offset : Nat
  /-- The line of the position, from one. -/
  line : Nat
  /-- What is still to be read. -/
  rest : List Char

namespace Cursor

/-- The start of a text. -/
def start (text : List Char) : Cursor := ⟨0, 1, text⟩

/-- Passes over the longest run of characters of one kind; the kind must not include `\n`. -/
def passOver (c : Cursor) (kind : Char → Bool) : Cursor :=
  { c with
    offset := c.offset + (c.rest.takeWhile kind).length
    rest := c.rest.dropWhile kind }

/-- Passes over blanks. -/
def skipBlanks (c : Cursor) : Cursor := c.passOver isBlank

/-- Passes over a comment, if one starts here: a `#` and the rest of the line. -/
def skipComment (c : Cursor) : Cursor :=
  match c.rest with
  | '#' :: _ => c.passOver isInLine
  | _ => c

/-- Passes over a newline, which is `\n`, `\r\n` or a lone `\r`. -/
def newline? (c : Cursor) : Option Cursor :=
  match c.rest with
  | '\n' :: rest => some ⟨c.offset + 1, c.line + 1, rest⟩
  | '\r' :: '\n' :: rest => some ⟨c.offset + 2, c.line + 1, rest⟩
  | '\r' :: rest => some ⟨c.offset + 1, c.line, rest⟩
  | _ => none

/-- Passes over the rest of a line that holds at most a comment, its newline included. -/
def emptyLine? (c : Cursor) : Option Cursor := c.skipBlanks.skipComment.newline?

theorem length_dropWhile_le (kind : Char → Bool) (cs : List Char) :
    (cs.dropWhile kind).length ≤ cs.length :=
  (List.dropWhile_sublist kind).length_le

theorem passOver_length_le (c : Cursor) (kind : Char → Bool) :
    (c.passOver kind).rest.length ≤ c.rest.length :=
  length_dropWhile_le kind c.rest

theorem skipBlanks_length_le (c : Cursor) : c.skipBlanks.rest.length ≤ c.rest.length :=
  c.passOver_length_le isBlank

theorem skipComment_length_le (c : Cursor) : c.skipComment.rest.length ≤ c.rest.length := by
  unfold skipComment
  split
  · exact c.passOver_length_le isInLine
  · exact Nat.le_refl _

theorem newline?_length_lt {c d : Cursor} (h : c.newline? = some d) :
    d.rest.length < c.rest.length := by
  unfold newline? at h
  split at h <;> simp only [Option.some.injEq, reduceCtorEq] at h
  all_goals
    rename_i hr
    subst h
    simp only [hr, List.length_cons]
    omega

theorem emptyLine?_length_lt {c d : Cursor} (h : c.emptyLine? = some d) :
    d.rest.length < c.rest.length := by
  have := newline?_length_lt h
  have := skipComment_length_le c.skipBlanks
  have := skipBlanks_length_le c
  omega

/-- Passes over all lines from here on that hold at most a comment. -/
def skipEmptyLines (c : Cursor) : Cursor :=
  match _h : c.emptyLine? with
  | some d => d.skipEmptyLines
  | none => c
termination_by c.rest.length
decreasing_by exact emptyLine?_length_lt _h

theorem skipEmptyLines_length_le (c : Cursor) :
    c.skipEmptyLines.rest.length ≤ c.rest.length := by
  fun_induction skipEmptyLines c with
  | case1 c d h ih =>
    have := emptyLine?_length_lt h
    omega
  | case2 c h => exact Nat.le_refl _

end Cursor

end Pushdown.Definition
