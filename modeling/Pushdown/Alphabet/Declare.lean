import Pushdown.Error

/-!
# Declaring the symbols of an alphabet

A vocabulary is declared symbol by symbol. Any symbol may be declared, and declared again, but for
the empty one, which is refused: so no alphabet made by declarations has it
(`epsilon_not_mem_of_declareAll`).
-/

namespace Pushdown.Alphabet

/-- Adds a symbol, unless it is the empty one. -/
def declare (a : Alphabet) (s : Symbol) : Except DefinitionFault Alphabet :=
  if s.isEpsilon then .error .reservedSymbol else .ok (a.insert s)

/-- Adds symbols one after another, up to the first that is refused. -/
def declareAll (a : Alphabet) (symbols : List Symbol) : Except DefinitionFault Alphabet :=
  symbols.foldlM declare a

theorem declare_eq_ok_iff {a b : Alphabet} {s : Symbol} :
    a.declare s = .ok b ↔ s ≠ Symbol.epsilon ∧ b = a.insert s := by
  unfold declare
  split
  · rename_i h
    simp [(Symbol.isEpsilon_iff s).1 h]
  · rename_i h
    simp only [Symbol.isEpsilon_iff] at h
    simp only [Except.ok.injEq, ne_eq, h, not_false_eq_true, true_and]
    exact eq_comm

theorem declare_epsilon (a : Alphabet) : a.declare Symbol.epsilon = .error .reservedSymbol := rfl

theorem epsilon_not_mem_of_declareAll {a b : Alphabet} {symbols : List Symbol}
    (ha : ¬ Symbol.epsilon ∈ a) (h : a.declareAll symbols = .ok b) : ¬ Symbol.epsilon ∈ b := by
  induction symbols generalizing a with
  | nil =>
    cases h
    exact ha
  | cons s rest ih =>
    simp only [declareAll, List.foldlM_cons] at h
    cases hs : a.declare s with
    | error e => simp [hs, bind, Except.bind] at h
    | ok a' =>
      obtain ⟨ne, rfl⟩ := declare_eq_ok_iff.1 hs
      rw [hs] at h
      refine ih ?_ h
      simpa [mem_insert, eq_comm] using And.intro ne ha

end Pushdown.Alphabet
