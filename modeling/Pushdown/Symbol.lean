/-!
# Symbols

A symbol is one Unicode scalar value. Symbols are compared by code point, and nothing is made
of combining marks or grapheme clusters: a text is read as its scalar values, one symbol each.

One symbol is set apart. `Symbol.epsilon`, written `.`, is "no symbol": as the input of a
transition it consumes nothing, and pushed on a stack it adds nothing.
`Symbol.withoutEpsilon` is what remains of a sequence once these are dropped.
-/

namespace Pushdown

/-- An atomic element of an input or a stack vocabulary. -/
abbrev Symbol := Char

namespace Symbol

/-- The empty symbol. -/
def epsilon : Symbol := '.'

/-- Whether a symbol is the empty one. -/
def isEpsilon (s : Symbol) : Bool := s == epsilon

/-- The symbols of a text, left to right. -/
def ofText (text : String) : List Symbol := text.toList

/-- The text that a sequence of symbols spells. -/
def toText (symbols : List Symbol) : String := String.ofList symbols

/-- A sequence with its empty symbols dropped. -/
def withoutEpsilon (symbols : List Symbol) : List Symbol :=
  symbols.filter fun s => !s.isEpsilon

@[simp] theorem isEpsilon_iff (s : Symbol) : s.isEpsilon = true ↔ s = epsilon := by
  simp [isEpsilon]

@[simp] theorem toText_ofText (text : String) : toText (ofText text) = text := by
  simp [toText, ofText]

@[simp] theorem ofText_toText (symbols : List Symbol) : ofText (toText symbols) = symbols := by
  simp [toText, ofText]

@[simp] theorem withoutEpsilon_nil : withoutEpsilon [] = [] := rfl

theorem withoutEpsilon_cons (s : Symbol) (rest : List Symbol) :
    withoutEpsilon (s :: rest) =
      if s.isEpsilon then withoutEpsilon rest else s :: withoutEpsilon rest := by
  cases h : s.isEpsilon <;> simp [withoutEpsilon, h]

theorem mem_withoutEpsilon {s : Symbol} {symbols : List Symbol} :
    s ∈ withoutEpsilon symbols ↔ s ∈ symbols ∧ s ≠ epsilon := by
  simp [withoutEpsilon, isEpsilon]

@[simp] theorem withoutEpsilon_withoutEpsilon (symbols : List Symbol) :
    withoutEpsilon (withoutEpsilon symbols) = withoutEpsilon symbols := by
  simp [withoutEpsilon]

end Symbol

end Pushdown
