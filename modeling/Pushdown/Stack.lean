import Pushdown.Error

/-!
# Stacks

A stack is a sequence of symbols, top first, over a fixed alphabet. Pushing the empty symbol
does nothing, pushing a symbol outside the alphabet is refused. A sequence is pushed so that
its first symbol ends on top, hence from its last symbol to its first; if one is refused,
those after it in the sequence are already on the stack and stay there.

`pushAll_of_declared` is what a transition rests on: a sequence over the alphabet is put,
without its empty symbols, before the old contents.
-/

namespace Pushdown

/-- A last-in, first-out store of symbols over an alphabet. -/
structure Stack where
  /-- Which symbols the stack may hold. -/
  alphabet : Alphabet
  /-- The contents, top first. -/
  symbols : List Symbol
deriving DecidableEq

namespace Stack

/-- The stack that holds nothing. -/
def empty (alphabet : Alphabet) : Stack := ⟨alphabet, []⟩

/-- How many symbols a stack holds. -/
def size (s : Stack) : Nat := s.symbols.length

/-- Whether a stack holds nothing. -/
def isEmpty (s : Stack) : Bool := s.symbols.isEmpty

/-- The symbol on top. -/
def top? (s : Stack) : Option Symbol := s.symbols.head?

/-- Takes the symbol on top. -/
def pop? (s : Stack) : Option (Symbol × Stack) :=
  match s.symbols with
  | [] => none
  | x :: rest => some (x, { s with symbols := rest })

/-- Puts a symbol on top. -/
def push (s : Stack) (x : Symbol) : Except DefinitionFault Stack :=
  if x.isEpsilon then .ok s
  else if s.alphabet.contains x then .ok { s with symbols := x :: s.symbols }
  else .error (.undeclaredSymbol .stored x s.alphabet)

/-- Puts a sequence on top, its first symbol uppermost. With a refused symbol comes the stack as it
stood when that symbol was tried. -/
def pushAll (s : Stack) (sequence : List Symbol) : Stack × Option DefinitionFault :=
  sequence.foldr
    (fun x reached =>
      match reached with
      | (t, some fault) => (t, some fault)
      | (t, none) =>
        match t.push x with
        | .ok u => (u, none)
        | .error fault => (t, some fault))
    (s, none)

/-- The stack that holds one symbol. -/
def single (alphabet : Alphabet) (x : Symbol) : Except DefinitionFault Stack :=
  (empty alphabet).push x

/-- The written form: the contents, top first. -/
def toText (s : Stack) : String := Symbol.toText s.symbols

/-! ## Laws -/

theorem push_epsilon (s : Stack) : s.push Symbol.epsilon = .ok s := rfl

theorem push_of_mem {s : Stack} {x : Symbol} (ne : x ≠ Symbol.epsilon) (h : x ∈ s.alphabet) :
    s.push x = .ok { s with symbols := x :: s.symbols } := by
  have : x.isEpsilon = false := by simpa [Symbol.isEpsilon] using ne
  simp [push, this, h]

theorem push_of_not_mem {s : Stack} {x : Symbol} (ne : x ≠ Symbol.epsilon) (h : ¬ x ∈ s.alphabet) :
    s.push x = .error (.undeclaredSymbol .stored x s.alphabet) := by
  have : x.isEpsilon = false := by simpa [Symbol.isEpsilon] using ne
  simp [push, this, h]

@[simp] theorem pushAll_nil (s : Stack) : s.pushAll [] = (s, none) := rfl

theorem pushAll_cons (s : Stack) (x : Symbol) (rest : List Symbol) :
    s.pushAll (x :: rest) =
      match s.pushAll rest with
      | (t, some fault) => (t, some fault)
      | (t, none) =>
        match t.push x with
        | .ok u => (u, none)
        | .error fault => (t, some fault) := rfl

/-- A sequence whose symbols are all empty or declared is put on top, less its empty symbols. -/
theorem pushAll_of_declared {s : Stack} {sequence : List Symbol}
    (h : ∀ x ∈ sequence, x ≠ Symbol.epsilon → x ∈ s.alphabet) :
    s.pushAll sequence =
      ({ s with symbols := Symbol.withoutEpsilon sequence ++ s.symbols }, none) := by
  induction sequence with
  | nil => rfl
  | cons x rest ih =>
    have rest_declared := ih fun y hy => h y (List.mem_cons_of_mem _ hy)
    rw [pushAll_cons, rest_declared, Symbol.withoutEpsilon_cons]
    by_cases e : x = Symbol.epsilon
    · subst e
      simp [push_epsilon]
    · have ne : x.isEpsilon = false := by simpa [Symbol.isEpsilon] using e
      have declared : x ∈ s.alphabet := h x (List.mem_cons_self ..) e
      simp [push, ne, declared]

end Stack

end Pushdown
