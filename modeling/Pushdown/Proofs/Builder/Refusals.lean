import Pushdown.Proofs.Builder.Calls

/-!
# Why a call on a builder is refused

The other side of `Pushdown.Proofs.Builder.Calls`: for each operation of a `Builder`, when it is
refused, and with which fault. A sequence of steps is refused by the first step that is
(`foldlM_eq_error`), so that everything before it has succeeded.

> `addTransition_eq_error`: a transition is refused for a state, its input, its stack top or a
> pushed symbol that has not been declared.
-/

namespace Pushdown

theorem bind_eq_error_iff {ε α β : Type} {x : Except ε α} {f : α → Except ε β} {e : ε} :
    (x >>= f) = .error e ↔ x = .error e ∨ ∃ a, x = .ok a ∧ f a = .error e := by
  cases x with
  | error e' => simp [bind, Except.bind]
  | ok a => simp [bind, Except.bind]

/-- A check of every element fails at one of them. -/
theorem forM_eq_error {ε α : Type} {f : α → Except ε Unit} {xs : List α} {e : ε}
    (h : xs.forM f = .error e) : ∃ x ∈ xs, f x = .error e := by
  induction xs with
  | nil => cases h
  | cons x rest ih =>
    rcases bind_eq_error_iff.1 h with here | ⟨_, -, later⟩
    · exact ⟨x, List.mem_cons_self .., here⟩
    · obtain ⟨y, hy, fails⟩ := ih later
      exact ⟨y, List.mem_cons_of_mem _ hy, fails⟩

/-- Steps in sequence fail at the first that fails, after those before it. -/
theorem foldlM_eq_error {ε α β : Type} {f : β → α → Except ε β} {xs : List α} {b : β} {e : ε}
    (h : xs.foldlM f b = .error e) :
    ∃ before x after b', xs = before ++ x :: after ∧ before.foldlM f b = .ok b' ∧
      f b' x = .error e := by
  induction xs generalizing b with
  | nil => cases h
  | cons x rest ih =>
    rw [List.foldlM_cons, bind_eq_error_iff] at h
    rcases h with here | ⟨b₁, first, later⟩
    · exact ⟨[], x, rest, b, rfl, rfl, here⟩
    · obtain ⟨before, y, after, b', split, done, fails⟩ := ih later
      refine ⟨x :: before, y, after, b', by rw [split]; rfl, ?_, fails⟩
      rw [List.foldlM_cons, first]
      exact done

theorem Alphabet.declare_eq_error_iff {a : Alphabet} {s : Symbol} {fault : DefinitionFault} :
    a.declare s = .error fault ↔ s = Symbol.epsilon ∧ fault = .reservedSymbol := by
  unfold declare
  split
  · next epsilon =>
    rw [Except.error.injEq, and_iff_right ((Symbol.isEpsilon_iff s).1 epsilon), eq_comm]
  · next proper =>
    exact ⟨fun h => (by cases h), fun h => absurd ((Symbol.isEpsilon_iff s).2 h.1) proper⟩

namespace Automaton.Builder

variable {b : Builder} {fault : DefinitionFault}

theorem lookup_eq_error_iff {role : StateRole} {name : String} :
    b.lookup role name = .error fault ↔
      name ∉ b.names ∧ fault = .undeclaredState role name b.names := by
  unfold lookup
  rw [findIdx?_states]
  by_cases h : name ∈ b.names
  · simp [h]
  · simp [h, eq_comm]

theorem declareState_eq_error_iff {name : String} :
    b.declareState name = .error fault ↔ name ∈ b.names ∧ fault = .duplicateState name := by
  unfold declareState
  rw [findIdx?_states]
  by_cases h : name ∈ b.names
  · simp [h, eq_comm]
  · simp [h]

theorem declareInput_eq_error_iff {s : Symbol} :
    b.declareInput s = .error fault ↔ s = Symbol.epsilon ∧ fault = .reservedSymbol := by
  simp [declareInput, bind_eq_error_iff, Alphabet.declare_eq_error_iff, pure, Except.pure]

theorem declareStack_eq_error_iff {s : Symbol} :
    b.declareStack s = .error fault ↔ s = Symbol.epsilon ∧ fault = .reservedSymbol := by
  simp [declareStack, bind_eq_error_iff, Alphabet.declare_eq_error_iff, pure, Except.pure]

theorem demand_eq_error_iff {role : SymbolRole} {s : Symbol} {declared : Alphabet} :
    demand role s declared = .error fault ↔
      ¬ s ∈ declared ∧ fault = .undeclaredSymbol role s declared := by
  unfold demand
  by_cases h : s ∈ declared
  · simp [h]
  · simp only [Alphabet.contains_iff, h, if_false, Except.error.injEq, not_false_eq_true, true_and]
    exact eq_comm

theorem demandUnlessEpsilon_eq_error_iff {role : SymbolRole} {s : Symbol} {declared : Alphabet} :
    demandUnlessEpsilon role s declared = .error fault ↔
      s ≠ Symbol.epsilon ∧ ¬ s ∈ declared ∧ fault = .undeclaredSymbol role s declared := by
  unfold demandUnlessEpsilon
  split
  · next epsilon =>
    exact ⟨fun h => (by cases h), fun h => absurd ((Symbol.isEpsilon_iff s).1 epsilon) h.1⟩
  · next proper =>
    have ne : s ≠ Symbol.epsilon := fun h => proper ((Symbol.isEpsilon_iff s).2 h)
    rw [demand_eq_error_iff, and_iff_right ne]

/-- A transition is refused for the first thing that it names and that has not been declared. -/
theorem addTransition_eq_error {source target : String} {input top : Symbol} {push : List Symbol}
    (h : b.addTransition source input top target push = .error fault) :
    (source ∉ b.names ∧ fault = .undeclaredState .source source b.names) ∨
    (target ∉ b.names ∧ fault = .undeclaredState .target target b.names) ∨
    (input ≠ Symbol.epsilon ∧ ¬ input ∈ b.inputAlphabet ∧
      fault = .undeclaredSymbol .input input b.inputAlphabet) ∨
    (¬ top ∈ b.stackAlphabet ∧ fault = .undeclaredSymbol .top top b.stackAlphabet) ∨
    ∃ s ∈ push, s ≠ Symbol.epsilon ∧ ¬ s ∈ b.stackAlphabet ∧
      fault = .undeclaredSymbol .push s b.stackAlphabet := by
  unfold addTransition at h
  rcases bind_eq_error_iff.1 h with h | ⟨_, -, h⟩
  · exact .inl (lookup_eq_error_iff.1 h)
  rcases bind_eq_error_iff.1 h with h | ⟨_, -, h⟩
  · exact .inr (.inl (lookup_eq_error_iff.1 h))
  rcases bind_eq_error_iff.1 h with h | ⟨_, -, h⟩
  · exact .inr (.inr (.inl (demandUnlessEpsilon_eq_error_iff.1 h)))
  rcases bind_eq_error_iff.1 h with h | ⟨_, -, h⟩
  · exact .inr (.inr (.inr (.inl (demand_eq_error_iff.1 h))))
  rcases bind_eq_error_iff.1 h with h | ⟨_, -, h⟩
  · obtain ⟨s, hs, h⟩ := forM_eq_error h
    exact .inr (.inr (.inr (.inr ⟨s, hs, demandUnlessEpsilon_eq_error_iff.1 h⟩)))
  · cases h

end Automaton.Builder

end Pushdown
