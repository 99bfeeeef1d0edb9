import Pushdown.Alphabet.Declare
import Pushdown.Interchange
import Pushdown.Proofs.Json.RoundTrip

/-!
# Alphabets without the empty symbol

The empty symbol is meant to be in no alphabet. An alphabet is got hold of by default, by
declarations, by more declarations on one that is there, whether they are refused or not, or by
reading a text (`Obtained`). Declarations refuse the empty symbol. Reading does not look at it:

> `obtained_without_epsilon`: no alphabet that is got hold of has the empty symbol exactly as long
> as no text is read that lists it; and every alphabet is read back from its text as it was.

`read_lists_epsilon` is the text that shows what happens otherwise.
-/

namespace Pushdown.Alphabet

/-- An alphabet after the attempt to declare a symbol, which may have been refused. -/
def offer (a : Alphabet) (s : Symbol) : Alphabet :=
  match a.declare s with
  | .ok b => b
  | .error _ => a

/-- The alphabets that can be got hold of, if only some texts may be read. -/
inductive Obtained (readable : String → Prop) : Alphabet → Prop
  | default : Obtained readable ∅
  | declared {symbols : List Symbol} {a : Alphabet} :
    declareAll ∅ symbols = .ok a → Obtained readable a
  | offered {a : Alphabet} (s : Symbol) : Obtained readable a → Obtained readable (a.offer s)
  | read {text : String} {a : Alphabet} :
    readable text → format.read text = .ok a → Obtained readable a

/-- A declaration never adds the empty symbol. -/
theorem epsilon_not_mem_offer {a : Alphabet} (h : ¬ Symbol.epsilon ∈ a) (s : Symbol) :
    ¬ Symbol.epsilon ∈ a.offer s := by
  unfold offer
  cases declared : a.declare s with
  | error fault => exact h
  | ok b =>
    obtain ⟨proper, rfl⟩ := declare_eq_ok_iff.1 declared
    rw [mem_insert, not_or]
    exact ⟨proper.symm, h⟩

/-- What is read as an alphabet are the symbols that are read as a list. -/
theorem read_eq_ok_iff {text : String} {a : Alphabet} :
    format.read text = .ok a ↔
      ∃ symbols, Symbol.format.list.read text = .ok symbols ∧ a = ofList symbols := by
  unfold Json.Format.read
  cases found : Symbol.format.list.shape.read text with
  | error failure =>
    have found : format.shape.read text = .error failure := found
    simp [found]
  | ok value =>
    have found : format.shape.read text = .ok value := found
    simp only [found, Except.ok.injEq, exists_eq_left']
    exact eq_comm

/-- A list of symbols is read back. -/
theorem readsBack (a : Alphabet) : format.shape.ReadsBack (format.toValue a) :=
  Json.Shape.ReadsBack.list fun c _ => Json.Shape.readsBack_character c

/-- No alphabet that is got hold of has the empty symbol, if no text is read that lists it. -/
theorem Obtained.epsilon_not_mem {readable : String → Prop}
    (proper : ∀ text symbols, readable text → Symbol.format.list.read text = .ok symbols →
      Symbol.epsilon ∉ symbols) {a : Alphabet} (h : Obtained readable a) :
    ¬ Symbol.epsilon ∈ a := by
  induction h with
  | default => exact not_mem_empty _
  | declared made => exact epsilon_not_mem_of_declareAll (not_mem_empty _) made
  | offered s _ ih => exact epsilon_not_mem_offer ih s
  | read hr read =>
    obtain ⟨symbols, listed, rfl⟩ := read_eq_ok_iff.1 read
    rw [mem_ofList]
    exact proper _ symbols hr listed

/-- **Only reading can bring in the empty symbol.** -/
theorem obtained_without_epsilon (readable : String → Prop) :
    ((∀ a, Obtained readable a → a.contains Symbol.epsilon = false) ↔
      ∀ text symbols, readable text → Symbol.format.list.read text = .ok symbols →
        Symbol.epsilon ∉ symbols) ∧
    ∀ a : Alphabet, format.read (format.write a).compact = .ok a ∧
      format.read (format.write a).pretty = .ok a := by
  refine ⟨⟨fun proper text symbols hr read listed => ?_, fun proper a h => ?_⟩,
    fun a => Json.Format.read_write a.readsBack⟩
  · have kept := proper _ (.read hr (read_eq_ok_iff.2 ⟨symbols, read, rfl⟩))
    rw [contains_iff.2 (mem_ofList.2 listed)] at kept
    cases kept
  · rw [← Bool.not_eq_true, contains_iff]
    exact h.epsilon_not_mem proper

/-- A text that lists the empty symbol is read as an alphabet that has it. -/
theorem read_lists_epsilon :
    format.read "[\".\"]" = .ok (ofList [Symbol.epsilon]) ∧
      Obtained (fun _ => True) (ofList [Symbol.epsilon]) ∧
      (ofList [Symbol.epsilon]).contains Symbol.epsilon = true := by
  have written : (format.write (ofList [Symbol.epsilon])).compact = "[\".\"]" := by decide
  have read := (Json.Format.read_write (ofList [Symbol.epsilon]).readsBack).1
  rw [written] at read
  exact ⟨read, .read trivial read, by decide⟩

end Pushdown.Alphabet
