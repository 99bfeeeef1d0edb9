/-!
# Lines

A text is divided into lines at every `\n`. What follows the last one is a line too, unless
it is empty.
-/

namespace Pushdown.Text

variable {α : Type}

/-- Divides a sequence at the elements that end a line, when the first line has begun with
some elements, the latest first. -/
def divide (isEnd : α → Bool) (begun : List α) : List α → List (List α)
  | [] => if begun.isEmpty then [] else [begun.reverse]
  | a :: rest =>
    if isEnd a then begun.reverse :: divide isEnd [] rest else divide isEnd (a :: begun) rest

/-- The lines of a text. -/
def lines (text : String) : List String :=
  (divide (· == '\n') [] text.toList).map String.ofList

/-- The lines of a sequence of bytes, as far as they are texts. -/
def linesOfBytes (bytes : ByteArray) : List (Option String) :=
  match String.fromUTF8? bytes with
  | some text => (lines text).map some
  | none =>
    (divide (· == '\n'.toUInt8) [] bytes.toList).map fun line => String.fromUTF8? ⟨line.toArray⟩

/-- A line without the `\r`s at its end. -/
def withoutReturns (line : String) : String :=
  String.ofList (line.toList.reverse.dropWhile (· == '\r')).reverse

end Pushdown.Text
