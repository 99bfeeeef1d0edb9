import Pushdown.Text.Plain

/-!
# Quoted text

A log and some messages show a text or a symbol between quotes. There the quote itself and
the backslash are written after a backslash, four controls have a letter of their own, and
every other character that is not plain is written by its code point, in lower-case
hexadecimal digits between braces.
-/

namespace Pushdown.Text

/-- A character as it is written between quotes of one kind. -/
def escaped (quote c : Char) : List Char :=
  if c = '\x00' then ['\\', '0']
  else if c = '\t' then ['\\', 't']
  else if c = '\n' then ['\\', 'n']
  else if c = '\r' then ['\\', 'r']
  else if c = '\\' || c = quote then ['\\', c]
  else if isPlain c then [c]
  else ['\\', 'u', '\x7b'] ++ Nat.toDigits 16 c.toNat ++ ['\x7d']

/-- A text between double quotes. -/
def quoted (text : String) : String :=
  String.ofList ('"' :: text.toList.flatMap (escaped '"') ++ ['"'])

/-- A character between single quotes. -/
def quotedChar (c : Char) : String := String.ofList ('\x27' :: escaped '\x27' c ++ ['\x27'])

end Pushdown.Text
