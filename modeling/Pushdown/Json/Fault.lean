import Pushdown.Decimal.Shortest
import Pushdown.Text.Quoted

/-!
# Why a JSON text is refused

Reading a JSON text as a value of a known shape goes from left to right and stops at the
first problem, which is of one of three kinds: the text is JSON but not of the shape
(`Mismatch`), it ends too early (`Construct` tells inside what), or it is not JSON at all
(`Malformation`).

A reader says where it stopped by what was left to read (`Stop`). `Failure.ofStop` turns
this into a line and a column, which count bytes: a newline starts a line with column zero,
every other byte is one column more.
-/

namespace Pushdown.Json

/-! ## Values of another shape -/

/-- The value of a numeral. -/
inductive Numeral where
  | natural (n : Nat)
  /-- A whole number below zero, given without its sign. -/
  | negative (n : Nat)
  /-- A number with a fraction or an exponent, or a whole one beyond 64 bits. -/
  | fraction (isNegative : Bool) (magnitude : Decimal.Binary)
deriving DecidableEq

/-- How messages set out fractions: positionally from `1e-5` up to below `1e16`. -/
def messageNotation : Decimal.Notation10 := ⟨-5, 15⟩

/-- How a message names a numeral. -/
def Numeral.label : Numeral → String
  | natural n => s!"integer `{n}`"
  | negative n => s!"integer `-{n}`"
  | fraction isNegative magnitude =>
    "floating point `" ++ (if isNegative then "-" else "") ++
      messageNotation.writeBinary magnitude ++ "`"

/-- A value where another one is expected. -/
inductive Found where
  | null
  | boolean (b : Bool)
  | numeral (n : Numeral)
  | text (s : String)
  | list
  | object
deriving DecidableEq

/-- How a message names a value. -/
def Found.label : Found → String
  | null => "null"
  | boolean b => s!"boolean `{b}`"
  | numeral n => n.label
  | text s => "string " ++ Text.quoted s
  | list => "sequence"
  | object => "map"

/-- How a text of JSON fails to be of the expected shape. -/
inductive Mismatch where
  /-- A value of another kind. -/
  | kind (found : Found) (expected : String)
  /-- A value of the right kind that is not one of those expected. -/
  | value (found : Found) (expected : String)
  /-- A record written as a list with too few items. -/
  | length (found : Nat) (title : String) (fields : Nat)
  /-- A field of a record is not there. -/
  | missingField (name : String)
  /-- A field of a record is there twice. -/
  | duplicateField (name : String)
deriving DecidableEq

/-- The wording of a mismatch. -/
def Mismatch.message : Mismatch → String
  | kind found expected => "invalid type: " ++ found.label ++ ", expected " ++ expected
  | value found expected => "invalid value: " ++ found.label ++ ", expected " ++ expected
  | length found title fields =>
    s!"invalid length {found}, expected struct {title} with {fields} " ++
      if fields = 1 then "element" else "elements"
  | missingField name => s!"missing field `{name}`"
  | duplicateField name => s!"duplicate field `{name}`"

/-! ## Texts that are not JSON -/

/-- What a text may end in the middle of. -/
inductive Construct where
  | list
  | object
  | text
  | value
deriving DecidableEq

/-- How a message names a construct. -/
def Construct.label : Construct → String
  | list => "a list"
  | object => "an object"
  | text => "a string"
  | value => "a value"

/-- What keeps a text from being JSON. -/
inductive Malformation where
  | missingColon
  | missingCommaInList
  | missingCommaInObject
  | unknownWord
  | missingValue
  | unknownEscape
  | badNumeral
  /-- The value of a numeral is beyond the greatest number. -/
  | hugeNumeral
  | controlCharacter
  | keyNotText
  /-- An escaped half of a surrogate pair has no other half. -/
  | loneSurrogate
  | trailingComma
  | trailingCharacters
  /-- No second escape follows the first half of a surrogate pair. -/
  | unpairedEscape
deriving DecidableEq

/-- The wording of a malformation. -/
def Malformation.message : Malformation → String
  | missingColon => "expected `:`"
  | missingCommaInList => "expected `,` or `]`"
  | missingCommaInObject => "expected `,` or `\x7d`"
  | unknownWord => "expected ident"
  | missingValue => "expected value"
  | unknownEscape => "invalid escape"
  | badNumeral => "invalid number"
  | hugeNumeral => "number out of range"
  | controlCharacter => "control character (\\u0000-\\u001F) found while parsing a string"
  | keyNotText => "key must be a string"
  | loneSurrogate => "lone leading surrogate in hex escape"
  | trailingComma => "trailing comma"
  | trailingCharacters => "trailing characters"
  | unpairedEscape => "unexpected end of hex escape"

/-- Why a text is refused. -/
inductive Fault where
  /-- The text is JSON so far, but not of the shape. -/
  | mismatch (m : Mismatch)
  /-- The text ends inside a construct. -/
  | ended (inside : Construct)
  /-- The text is not JSON. -/
  | malformed (m : Malformation)
deriving DecidableEq

/-- The wording of a fault. -/
def Fault.message : Fault → String
  | mismatch m => m.message
  | ended inside => "EOF while parsing " ++ inside.label
  | malformed m => m.message

/-! ## Places -/

/-- A fault, and where a reader stopped for it. -/
structure Stop where
  fault : Fault
  /-- What the reader had not passed. -/
  rest : List Char
  /-- How many bytes of that belong to the fault. -/
  ahead : Nat

/-- A fault and its place in the text. -/
structure Failure where
  fault : Fault
  line : Nat
  column : Nat
deriving DecidableEq

namespace Failure

/-- The line and column after some bytes. -/
def placeAfter (bytes : List UInt8) : Nat × Nat :=
  (bytes.count '\n'.toUInt8 + 1, (bytes.reverse.takeWhile (· != '\n'.toUInt8)).length)

/-- The failure of a reader that stopped in a text. -/
def ofStop (text : String) (s : Stop) : Failure :=
  let bytes := text.toUTF8.toList
  let passed := bytes.length - (String.ofList s.rest).utf8ByteSize + s.ahead
  let (line, column) := placeAfter (bytes.take passed)
  ⟨s.fault, line, column⟩

/-- The wording of a failure, with its place. -/
def message (f : Failure) : String :=
  f.fault.message ++ s!" at line {f.line} column {f.column}"

end Failure

end Pushdown.Json
