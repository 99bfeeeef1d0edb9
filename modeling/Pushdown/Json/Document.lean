/-!
# JSON documents

What this library writes as JSON: natural numbers, texts, lists and objects. A document has
two written forms, one without any blanks (`Document.compact`) and one with a line for each
item and member, indented by two spaces for each level (`Document.pretty`). In a text, only
what must be is written by an escape; a character beyond ASCII stands for itself.
-/

namespace Pushdown.Json

/-- A document. -/
inductive Document where
  | number (n : Nat)
  | text (s : String)
  | list (items : List Document)
  | object (members : List (String × Document))

/-- One hexadecimal digit, in lower case. -/
def hexDigit (n : Nat) : Char := Nat.digitChar n

/-- A character as it is written in a text. -/
def escaped (c : Char) : List Char :=
  if c = '"' then ['\\', '"']
  else if c = '\\' then ['\\', '\\']
  else if c = '\x08' then ['\\', 'b']
  else if c = '\t' then ['\\', 't']
  else if c = '\n' then ['\\', 'n']
  else if c = '\x0c' then ['\\', 'f']
  else if c = '\r' then ['\\', 'r']
  else if c < ' ' then ['\\', 'u', '0', '0', hexDigit (c.toNat / 16), hexDigit (c.toNat % 16)]
  else [c]

/-- A text between its quotes. -/
def quoted (s : String) : List Char := '"' :: s.toList.flatMap escaped ++ ['"']

namespace Document

mutual

/-- The written form without blanks. -/
def compactChars : Document → List Char
  | number n => Nat.toDigits 10 n
  | text s => quoted s
  | list items => '[' :: compactItems items ++ [']']
  | object members => '\x7b' :: compactMembers members ++ ['\x7d']

/-- Items, with a comma between neighbours. -/
def compactItems : List Document → List Char
  | [] => []
  | [d] => compactChars d
  | d :: rest => compactChars d ++ ',' :: compactItems rest

/-- Members, with a comma between neighbours. -/
def compactMembers : List (String × Document) → List Char
  | [] => []
  | [(name, d)] => quoted name ++ ':' :: compactChars d
  | (name, d) :: rest => quoted name ++ ':' :: compactChars d ++ ',' :: compactMembers rest

end

/-- A new line, indented. -/
def newLine (depth : Nat) : List Char := '\n' :: List.replicate (2 * depth) ' '

mutual

/-- The written form with a line for each item and member, inside so many others. -/
def prettyChars (depth : Nat) : Document → List Char
  | number n => Nat.toDigits 10 n
  | text s => quoted s
  | list [] => ['[', ']']
  | list items => '[' :: prettyItems (depth + 1) items ++ newLine depth ++ [']']
  | object [] => ['\x7b', '\x7d']
  | object members => '\x7b' :: prettyMembers (depth + 1) members ++ newLine depth ++ ['\x7d']

/-- Items, each on a line of its own. -/
def prettyItems (depth : Nat) : List Document → List Char
  | [] => []
  | [d] => newLine depth ++ prettyChars depth d
  | d :: rest => newLine depth ++ prettyChars depth d ++ ',' :: prettyItems depth rest

/-- Members, each on a line of its own. -/
def prettyMembers (depth : Nat) : List (String × Document) → List Char
  | [] => []
  | [(name, d)] => newLine depth ++ quoted name ++ ':' :: ' ' :: prettyChars depth d
  | (name, d) :: rest =>
    newLine depth ++ quoted name ++ ':' :: ' ' :: prettyChars depth d ++
      ',' :: prettyMembers depth rest

end

/-- The written form without blanks. -/
def compact (d : Document) : String := String.ofList d.compactChars

/-- The written form with a line for each item and member. -/
def pretty (d : Document) : String := String.ofList (d.prettyChars 0)

end Document

end Pushdown.Json
