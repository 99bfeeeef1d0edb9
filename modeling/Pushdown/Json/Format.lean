import Pushdown.Json.Shape

/-!
# Formats

A `Format` of a type lets its values be written as JSON documents and read back from JSON
texts: it is a shape, and a way from the type to the values of the shape and back. The way
back undoes the way there.
-/

namespace Pushdown.Json

/-- How the values of a type are written and read. -/
structure Format (α : Type) where
  /-- The shape of the documents. -/
  shape : Shape
  /-- What is written for a value. -/
  toValue : α → shape.Value
  /-- What is made of what was read. -/
  ofValue : shape.Value → α
  /-- What was written is read back. -/
  ofValue_toValue : ∀ a, ofValue (toValue a) = a

namespace Format

variable {α : Type}

/-- The document of a value. -/
def write (f : Format α) (a : α) : Document := f.shape.write (f.toValue a)

/-- The value that a text stands for. -/
def read (f : Format α) (text : String) : Except Failure α :=
  match f.shape.read text with
  | .error failure => .error failure
  | .ok value => .ok (f.ofValue value)

/-- The format of lists of values. -/
def list (f : Format α) : Format (List α) where
  shape := .list f.shape
  toValue values := values.map f.toValue
  ofValue values := values.map f.ofValue
  ofValue_toValue values := by
    induction values with
    | nil => rfl
    | cons a rest ih =>
      rw [List.map_cons, List.map_cons, f.ofValue_toValue, ih]

/-- The format of a type whose values stand for values of another type that has one. -/
def via {β : Type} (f : Format α) (there : β → α) (back : α → β)
    (back_there : ∀ b, back (there b) = b) : Format β where
  shape := f.shape
  toValue b := f.toValue (there b)
  ofValue v := back (f.ofValue v)
  ofValue_toValue b := by rw [f.ofValue_toValue, back_there]

end Format

end Pushdown.Json
