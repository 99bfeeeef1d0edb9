import Pushdown.Symbol

/-!
# Alphabets

An alphabet is a finite set of symbols, kept as the strictly increasing list of its elements, so
that two alphabets with the same elements are the same value (`Alphabet.ext_mem`). It is written
with one space between neighbours.

`Alphabet.insert` adds any symbol at all. That the empty symbol is never *declared* is the
business of `Alphabet.declare`, in the module `Pushdown.Alphabet.Declare`; an alphabet read from a
document is taken as it stands.
-/

namespace Pushdown

/-- Puts a symbol at its place in an increasing list, once. -/
def insertSymbol (s : Symbol) : List Symbol → List Symbol
  | [] => [s]
  | t :: rest =>
    if s < t then s :: t :: rest
    else if s = t then t :: rest
    else t :: insertSymbol s rest

theorem mem_insertSymbol {s t : Symbol} {symbols : List Symbol} :
    t ∈ insertSymbol s symbols ↔ t = s ∨ t ∈ symbols := by
  induction symbols with
  | nil => simp [insertSymbol]
  | cons u rest ih =>
    simp only [insertSymbol]
    split
    · simp
    · split
      · rename_i _ h
        subst h
        simp
      · simp [ih, or_left_comm]

theorem pairwise_insertSymbol {s : Symbol} {symbols : List Symbol}
    (h : symbols.Pairwise (· < ·)) : (insertSymbol s symbols).Pairwise (· < ·) := by
  induction symbols with
  | nil => simp [insertSymbol]
  | cons t rest ih =>
    obtain ⟨below, rest_sorted⟩ := List.pairwise_cons.1 h
    simp only [insertSymbol]
    split
    · rename_i s_lt
      refine List.pairwise_cons.2 ⟨fun u hu => ?_, h⟩
      rcases List.mem_cons.1 hu with rfl | hu
      · exact s_lt
      · exact Char.lt_trans s_lt (below u hu)
    · split
      · exact h
      · rename_i not_lt ne
        refine List.pairwise_cons.2 ⟨fun u hu => ?_, ih rest_sorted⟩
        rcases mem_insertSymbol.1 hu with rfl | hu
        · exact Char.not_le.1 fun le =>
            not_lt (Char.not_le.1 fun le' => ne (Char.le_antisymm le le'))
        · exact below u hu

/-- A finite set of symbols. -/
structure Alphabet where
  /-- The elements, in increasing order. -/
  symbols : List Symbol
  /-- Each element is below the next one, so none occurs twice. -/
  sorted : symbols.Pairwise (· < ·)
deriving DecidableEq

namespace Alphabet

/-- The alphabet without symbols. -/
def empty : Alphabet := ⟨[], .nil⟩

instance : Inhabited Alphabet := ⟨empty⟩

instance : EmptyCollection Alphabet := ⟨empty⟩

instance : Membership Symbol Alphabet := ⟨fun a s => s ∈ a.symbols⟩

instance (s : Symbol) (a : Alphabet) : Decidable (s ∈ a) :=
  inferInstanceAs (Decidable (s ∈ a.symbols))

/-- How many symbols an alphabet has. -/
def size (a : Alphabet) : Nat := a.symbols.length

/-- Whether an alphabet has no symbols. -/
def isEmpty (a : Alphabet) : Bool := a.symbols.isEmpty

/-- Whether a symbol belongs to an alphabet. -/
def contains (a : Alphabet) (s : Symbol) : Bool := a.symbols.contains s

/-- The alphabet with one symbol more. -/
def insert (a : Alphabet) (s : Symbol) : Alphabet :=
  ⟨insertSymbol s a.symbols, pairwise_insertSymbol a.sorted⟩

/-- The alphabet of the symbols of a list, in whatever order and however often they occur. -/
def ofList (symbols : List Symbol) : Alphabet := symbols.foldl insert empty

/-- The written form: the symbols in order, one space between neighbours. -/
def toText (a : Alphabet) : String := String.ofList (a.symbols.intersperse ' ')

theorem mem_def {s : Symbol} {a : Alphabet} : s ∈ a ↔ s ∈ a.symbols := Iff.rfl

@[simp] theorem contains_iff {s : Symbol} {a : Alphabet} : a.contains s = true ↔ s ∈ a := by
  simp [contains, mem_def]

@[simp] theorem not_mem_empty (s : Symbol) : ¬ s ∈ empty := by
  simp [mem_def, empty]

@[simp] theorem mem_insert {s t : Symbol} {a : Alphabet} : t ∈ a.insert s ↔ t = s ∨ t ∈ a :=
  mem_insertSymbol

theorem mem_foldl_insert {t : Symbol} {symbols : List Symbol} {a : Alphabet} :
    t ∈ symbols.foldl insert a ↔ t ∈ symbols ∨ t ∈ a := by
  induction symbols generalizing a with
  | nil => simp
  | cons s rest ih => simp [ih, or_left_comm, or_assoc]

@[simp] theorem mem_ofList {t : Symbol} {symbols : List Symbol} :
    t ∈ ofList symbols ↔ t ∈ symbols := by
  simp [ofList, mem_foldl_insert]

/-- Increasing lists with the same elements are the same list. -/
theorem eq_of_sorted_of_mem_iff {xs ys : List Symbol} (hx : xs.Pairwise (· < ·))
    (hy : ys.Pairwise (· < ·)) (h : ∀ s, s ∈ xs ↔ s ∈ ys) : xs = ys := by
  induction xs generalizing ys with
  | nil =>
    cases ys with
    | nil => rfl
    | cons y ys => exact absurd ((h y).2 (List.mem_cons_self ..)) List.not_mem_nil
  | cons x xs ih =>
    cases ys with
    | nil => exact absurd ((h x).1 (List.mem_cons_self ..)) List.not_mem_nil
    | cons y ys =>
      obtain ⟨below_x, hxs⟩ := List.pairwise_cons.1 hx
      obtain ⟨below_y, hys⟩ := List.pairwise_cons.1 hy
      have heads : x = y := by
        rcases List.mem_cons.1 ((h x).1 (List.mem_cons_self ..)) with e | hm
        · exact e
        rcases List.mem_cons.1 ((h y).2 (List.mem_cons_self ..)) with e | hm'
        · exact e.symm
        exact absurd (below_x y hm') (Char.lt_asymm (below_y x hm))
      subst heads
      congr 1
      refine ih hxs hys fun s => ?_
      constructor
      · intro hs
        rcases List.mem_cons.1 ((h s).1 (List.mem_cons_of_mem _ hs)) with rfl | hs'
        · exact absurd (below_x s hs) (Char.lt_irrefl s)
        · exact hs'
      · intro hs
        rcases List.mem_cons.1 ((h s).2 (List.mem_cons_of_mem _ hs)) with rfl | hs'
        · exact absurd (below_y s hs) (Char.lt_irrefl s)
        · exact hs'

/-- Alphabets with the same elements are equal. -/
theorem ext_mem {a b : Alphabet} (h : ∀ s, s ∈ a ↔ s ∈ b) : a = b := by
  have := eq_of_sorted_of_mem_iff a.sorted b.sorted h
  cases a
  cases b
  simp_all

end Alphabet

end Pushdown
