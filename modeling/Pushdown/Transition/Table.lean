import Pushdown.Symbol

/-!
# Transition tables

A state of an automaton has a table of what it may do: under an input symbol (or the empty
one) and a stack top, the outcomes to choose from. A table is one list of entries, kept in
increasing order of their keys and, under one key, in the order in which they were added. So
the outcomes of a key are the entries with that key (`Table.outcomes`), nothing is ever
replaced, and reading the whole table is reading the list.
-/

namespace Pushdown

/-- The number of a state within its automaton. -/
structure StateId where
  /-- How many states were declared before it. -/
  index : Nat
deriving DecidableEq, Inhabited

/-- The written form of a state number. -/
def StateId.toText (id : StateId) : String := "#" ++ toString id.index

namespace Transition

/-- What a transition is chosen by. -/
structure Key where
  /-- The symbol read, or the empty one. -/
  input : Symbol
  /-- The symbol on top of the stack. -/
  top : Symbol
deriving DecidableEq

/-- Keys are ordered by input symbol, then by stack top. -/
def Key.before (k l : Key) : Bool :=
  k.input < l.input || (k.input == l.input && k.top < l.top)

/-- What a transition does. -/
structure Outcome where
  /-- The state entered. -/
  target : StateId
  /-- What takes the place of the stack top, the new top first. -/
  push : List Symbol
deriving DecidableEq

/-- One line of a table. -/
structure Entry where
  key : Key
  outcome : Outcome
deriving DecidableEq

/-- The outcomes that a state offers. -/
structure Table where
  /-- Every entry, by key, and under one key by age. -/
  entries : List Entry
deriving DecidableEq

namespace Table

/-- The table that offers nothing. -/
def empty : Table := ⟨[]⟩

instance : Inhabited Table := ⟨empty⟩

/-- Puts an entry after all entries whose keys do not come after its own. -/
def insertEntry (e : Entry) : List Entry → List Entry
  | [] => [e]
  | f :: rest => if e.key.before f.key then e :: f :: rest else f :: insertEntry e rest

/-- Offers one more outcome under a key. -/
def add (t : Table) (key : Key) (outcome : Outcome) : Table :=
  ⟨insertEntry ⟨key, outcome⟩ t.entries⟩

/-- What is offered under a key, in the order in which it was added. -/
def outcomes (t : Table) (key : Key) : List Outcome :=
  (t.entries.filter (·.key == key)).map (·.outcome)

/-- Whether anything is offered under a key. -/
def offers (t : Table) (key : Key) : Bool := t.entries.any (·.key == key)

/-- How many outcomes a table offers. -/
def size (t : Table) : Nat := t.entries.length

/-- Whether a table offers nothing. -/
def isEmpty (t : Table) : Bool := t.entries.isEmpty

@[simp] theorem outcomes_empty (key : Key) : empty.outcomes key = [] := rfl

theorem length_insertEntry (e : Entry) (entries : List Entry) :
    (insertEntry e entries).length = entries.length + 1 := by
  induction entries with
  | nil => rfl
  | cons f rest ih =>
    simp only [insertEntry]
    split <;> simp [ih]

@[simp] theorem size_add (t : Table) (key : Key) (outcome : Outcome) :
    (t.add key outcome).size = t.size + 1 :=
  length_insertEntry _ _

theorem mem_insertEntry {e f : Entry} {entries : List Entry} :
    f ∈ insertEntry e entries ↔ f = e ∨ f ∈ entries := by
  induction entries with
  | nil => simp [insertEntry]
  | cons g rest ih =>
    simp only [insertEntry]
    split
    · simp
    · simp [ih, or_left_comm]

theorem offers_iff {t : Table} {key : Key} : t.offers key = true ↔ t.outcomes key ≠ [] := by
  simp [offers, outcomes, List.filter_eq_nil_iff]

end Table

end Transition

end Pushdown
