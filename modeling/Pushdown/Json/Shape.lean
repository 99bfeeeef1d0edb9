import Pushdown.Json.Document
import Pushdown.Json.Reader

/-!
# Shapes of documents

A `Shape` says which documents stand for values of one type, `Shape.Value`. It determines
both how such a value is written (`Shape.write`) and how a text is read as one
(`Shape.reader`), so that the two cannot drift apart.

The fields of a record are written in order, by name. They may be read in any order, and
fields that the record does not have are passed over; or from a list, in order and without
their names. A field that is not there is refused, unless the shape has a value for that
case.
-/

namespace Pushdown.Json

mutual

/-- The documents that stand for the values of one type. -/
inductive Shape where
  /-- Natural numbers. In a record that lacks it, the fallback stands for it, if there is one. -/
  | natural (fallback : Option Nat)
  /-- Texts of one character. -/
  | character
  /-- Texts. -/
  | text
  /-- Lists of documents of one shape. -/
  | list (item : Shape)
  /-- Records, with the name that messages have for them. -/
  | record (title : String) (fields : Fields)

/-- The fields of a record, in order. -/
inductive Fields where
  | done
  | field (name : String) (shape : Shape) (others : Fields)

end

mutual

/-- The type of the values that a shape is for. -/
def Shape.Value : Shape → Type
  | .natural _ => Nat
  | .character => Char
  | .text => String
  | .list item => List item.Value
  | .record _ fields => fields.Values

/-- The type of the values that fields are for. -/
def Fields.Values : Fields → Type
  | .done => Unit
  | .field _ shape others => shape.Value × others.Values

end

/-- What has been read of some fields so far. -/
def Fields.Slots : Fields → Type
  | .done => Unit
  | .field _ shape others => Option shape.Value × others.Slots

/-- How many fields there are. -/
def Fields.count : Fields → Nat
  | .done => 0
  | .field _ _ others => others.count + 1

/-! ## Writing -/

mutual

/-- The document that stands for a value. -/
def Shape.write : (s : Shape) → s.Value → Document
  | .natural _, (n : Nat) => .number n
  | .character, (c : Char) => .text (String.singleton c)
  | .text, (s : String) => .text s
  | .list item, (values : List item.Value) => .list (values.map item.write)
  | .record _ fields, values => .object (fields.write values)

/-- The members that stand for the values of fields. -/
def Fields.write : (fs : Fields) → fs.Values → List (String × Document)
  | .done, () => []
  | .field name shape others, (value, rest) => (name, shape.write value) :: others.write rest

end

/-! ## Reading -/

/-- What stands for a field that is not there. -/
def Shape.fallback : (s : Shape) → Option s.Value
  | .natural fallback => fallback
  | _ => none

/-- Nothing read of any field. -/
def Fields.unread : (fs : Fields) → fs.Slots
  | .done => ()
  | .field _ _ others => (none, others.unread)

/-- The values of fields that have been read, with what stands for those that have not. The
first one that is missing is refused. -/
def Fields.complete : (fs : Fields) → fs.Slots → Except Mismatch fs.Values
  | .done, () => .ok ()
  | .field name shape others, (slot, rest) =>
    match slot.or shape.fallback with
    | none => .error (.missingField name)
    | some value =>
      match others.complete rest with
      | .error m => .error m
      | .ok values => .ok (value, values)

mutual

/-- The reader of the values of a shape. -/
def Shape.reader : (s : Shape) → Reader s.Value
  | .natural _ => Reader.natural
  | .character => Reader.character
  | .text => Reader.text
  | .list item => Reader.list item.reader
  | .record title fields =>
    Reader.record
      { title
        start := fields.unread
        member := fields.member
        complete := fields.complete
        inOrder := fields.inOrder title fields.count 0 }

/-- What a key is to fields of which some have been read. -/
def Fields.member : (fs : Fields) → String → fs.Slots → Member fs.Slots
  | .done, _, () => .unknown
  | .field name shape others, key, (slot, rest) =>
    -- A field is named twice only if it has been read: the fallback is no reading.
    if key = name then
      match slot with
      | some _ => .repeated
      | none => .field (shape.reader.map fun value => (some value, rest))
    else (others.member key rest).map fun rest => (slot, rest)

/-- The reader of a list of fields, when `passed` of all `count` fields of the record have
been passed. -/
def Fields.inOrder (title : String) (count : Nat) :
    (passed : Nat) → (fs : Fields) → Reader fs.Values
  | _, .done => ⟨fun cs => .ok ((), cs), fun h => by cases h; exact Nat.le_refl _⟩
  | passed, .field _ shape others =>
    (shape.reader.item (passed == 0) shape.fallback (.length passed title count)).and
      (others.inOrder title count (passed + 1))

end

/-- Reads a whole text as a value of a shape. -/
def Shape.read (s : Shape) (text : String) : Except Failure s.Value :=
  let outcome : Except Stop s.Value :=
    match s.reader.run text.toList with
    | .error stop => .error stop
    | .ok (value, rest) =>
      match skipBlanks rest with
      | [] => .ok value
      | after => stopPast (.malformed .trailingCharacters) after
  match outcome with
  | .error stop => .error (.ofStop text stop)
  | .ok value => .ok value

end Pushdown.Json
