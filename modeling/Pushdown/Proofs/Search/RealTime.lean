import Pushdown.Proofs.Search.FiniteTree
import Mathlib.Algebra.Order.BigOperators.Group.List
import Mathlib.Algebra.Ring.GeomSum

/-!
# Automata without spontaneous moves

An automaton is *real-time* if nothing is stored under the empty symbol. Then a configuration has
children under its next symbol only, at most as many as one key offers (`branching`), and each has
one symbol less to read (`children_cases_of_isRealTime`). The second round of the search, under the
empty symbol, still takes place for every symbol read, but queues nothing. So the tree ends where
the input does:

> `treeSize_le_of_isRealTime`: on `n` symbols it has at most `1 + b + ⋯ + b ^ n` nodes, where `b` is
> the branching.

> `run_of_isRealTime`: under every bound above that sum the search answers by itself, and it has
> taken no more configurations than that.
-/

namespace Pushdown.Automaton

variable {a : Automaton}

/-- Nothing is stored under the empty symbol. -/
def IsRealTime (a : Automaton) : Prop :=
  ∀ state ∈ a.states, ∀ e ∈ state.table.entries, e.key.input ≠ Symbol.epsilon

instance : Decidable a.IsRealTime :=
  inferInstanceAs (Decidable (∀ state ∈ a.states, ∀ e ∈ state.table.entries, _))

/-- How many outcomes there are under each key that something is stored under. -/
def choiceCounts (a : Automaton) : List Nat :=
  a.states.toList.flatMap fun state =>
    state.table.entries.map fun e => (state.table.outcomes e.key).length

/-- The largest number of outcomes under one key of one state. -/
def branching (a : Automaton) : Nat := a.choiceCounts.max?.getD 0

/-! ## Choices -/

/-- What a state offers is stored in its table. -/
theorem exists_entry_of_mem_outcomes {q : StateId} {x top : Symbol} {o : Transition.Outcome}
    (h : o ∈ a.outcomes q x top) :
    ∃ state ∈ a.states, a.outcomes q x top = state.table.outcomes ⟨x, top⟩ ∧
      ⟨⟨x, top⟩, o⟩ ∈ state.table.entries := by
  unfold outcomes state? at h ⊢
  split at h
  next state found =>
    refine ⟨state, Array.mem_iff_getElem?.2 ⟨_, found⟩, rfl, ?_⟩
    exact Transition.Table.mem_outcomes.1 h
  next => exact absurd h List.not_mem_nil

theorem outcomes_epsilon_of_isRealTime (h : a.IsRealTime) (q : StateId) (top : Symbol) :
    a.outcomes q Symbol.epsilon top = [] := by
  refine List.eq_nil_iff_forall_not_mem.2 fun o ho => ?_
  obtain ⟨state, hs, -, stored⟩ := exists_entry_of_mem_outcomes ho
  exact h state hs _ stored rfl

theorem length_outcomes_mem_choiceCounts {q : StateId} {x top : Symbol}
    (h : a.outcomes q x top ≠ []) : (a.outcomes q x top).length ∈ a.choiceCounts := by
  obtain ⟨o, ho⟩ := List.exists_mem_of_ne_nil _ h
  obtain ⟨state, hs, same, stored⟩ := exists_entry_of_mem_outcomes ho
  rw [same]
  exact List.mem_flatMap.2 ⟨state, Array.mem_toList_iff.2 hs, List.mem_map.2 ⟨_, stored, rfl⟩⟩

theorem exists_outcomes_of_mem_choiceCounts {n : Nat} (h : n ∈ a.choiceCounts) :
    ∃ q x top, (a.outcomes q x top).length = n := by
  obtain ⟨state, hs, hn⟩ := List.mem_flatMap.1 h
  obtain ⟨e, -, rfl⟩ := List.mem_map.1 hn
  obtain ⟨i, hi⟩ := Array.mem_iff_getElem?.1 (Array.mem_toList_iff.1 hs)
  refine ⟨⟨i⟩, e.key.input, e.key.top, ?_⟩
  rw [outcomes, state?, hi]

/-- No key offers more than the branching. -/
theorem length_outcomes_le_branching (a : Automaton) (q : StateId) (x top : Symbol) :
    (a.outcomes q x top).length ≤ a.branching := by
  by_cases h : a.outcomes q x top = []
  · rw [h]
    exact Nat.zero_le _
  · have counted := length_outcomes_mem_choiceCounts h
    unfold branching
    cases largest : a.choiceCounts.max? with
    | none => exact absurd counted (List.max?_eq_none_iff.1 largest ▸ List.not_mem_nil)
    | some n => exact (List.max?_eq_some_iff.1 largest).2 _ counted

/-- Some key offers as much as the branching. -/
theorem exists_length_outcomes_eq_branching (a : Automaton) :
    ∃ q x top, (a.outcomes q x top).length = a.branching := by
  unfold branching
  cases largest : a.choiceCounts.max? with
  | some n => exact exists_outcomes_of_mem_choiceCounts (List.max?_eq_some_iff.1 largest).1
  | none =>
    -- where nothing is stored, every key will do
    have none_stored := List.max?_eq_none_iff.1 largest
    refine ⟨⟨0⟩, Symbol.epsilon, Symbol.epsilon, List.length_eq_zero_iff.2 ?_⟩
    by_contra h
    exact List.not_mem_nil (none_stored ▸ length_outcomes_mem_choiceCounts h)

/-! ## Trees -/

/-- Without spontaneous moves a configuration has no children, or those under its next symbol, which
they have read. -/
theorem children_cases_of_isRealTime (h : a.IsRealTime) (c : Configuration) :
    a.children c = [] ∨
      ∃ x rest top below, c.input = x :: rest ∧
        a.children c = (a.successorsUnder c x top below rest).map (·.configuration) := by
  have nothing_under : ∀ top below rest,
      a.successorsUnder c Symbol.epsilon top below rest = [] := by
    intro top below rest
    rw [successorsUnder, outcomes_epsilon_of_isRealTime h, List.map_nil]
  cases stack_eq : c.stack.symbols with
  | nil => exact Or.inl (by simp only [children, successors, stack_eq, List.map_nil])
  | cons top below =>
    cases input_eq : c.input with
    | nil =>
      refine Or.inl ?_
      simp only [children, successors, stack_eq, input_eq, nothing_under, List.map_nil]
    | cons x rest =>
      by_cases empty : x = Symbol.epsilon
      · refine Or.inl ?_
        simp only [children, successors, stack_eq, input_eq, if_pos empty, nothing_under,
          List.map_nil]
      · by_cases declared : x ∈ a.inputAlphabet
        · refine Or.inr ⟨x, rest, top, below, rfl, ?_⟩
          simp only [children, successors, stack_eq, input_eq, if_neg empty, if_pos declared,
            nothing_under, List.append_nil]
        · refine Or.inl ?_
          simp only [children, successors, stack_eq, input_eq, if_neg empty, if_neg declared,
            List.map_nil]

/-- The tree of a real-time automaton ends with the input. -/
theorem treeSize_le_of_isRealTime (h : a.IsRealTime) (depth : Nat) (c : Configuration) :
    a.treeSize depth c ≤ ∑ i ∈ Finset.range (c.input.length + 1), a.branching ^ i := by
  induction depth generalizing c with
  | zero => exact Nat.zero_le _
  | succ depth ih =>
    rw [treeSize]
    rcases children_cases_of_isRealTime h c with dead | ⟨x, rest, top, below, input_eq, reading⟩
    · rw [dead, geom_sum_succ]
      exact Nat.succ_le_succ (Nat.zero_le _)
    · have few : (a.children c).length ≤ a.branching := by
        rw [reading, List.length_map, successorsUnder, List.length_map]
        exact length_outcomes_le_branching a _ _ _
      have each : ∀ n ∈ (a.children c).map (a.treeSize depth),
          n ≤ ∑ i ∈ Finset.range (rest.length + 1), a.branching ^ i := by
        intro n hn
        obtain ⟨d, hd, rfl⟩ := List.mem_map.1 hn
        rw [reading] at hd
        obtain ⟨o, -, rfl⟩ := mem_successorsUnder_iff.1 hd
        exact ih _
      have together := List.sum_le_card_nsmul _ _ each
      rw [List.length_map, Nat.nsmul_eq_mul] at together
      rw [input_eq, List.length_cons, geom_sum_succ]
      exact Nat.succ_le_succ (Nat.le_trans together (Nat.mul_le_mul_right _ few))

/-! ## Runs -/

/-- A run that is not cut off accepts, rejects, or has come upon an undeclared symbol. -/
theorem verdict_of_not_isCutOff (closed : a.Closed) {bound : Nat} {input : String}
    (h : ¬ (a.run ⟨bound⟩ input).IsCutOff) :
    (a.run ⟨bound⟩ input).verdict = .accepted ∨ (a.run ⟨bound⟩ input).verdict = .rejected ∨
      ∃ x, (a.run ⟨bound⟩ input).verdict = .failed (.undeclaredInput x a.inputAlphabet) := by
  rw [isCutOff_run_iff closed] at h
  rw [run_eq closed]
  unfold executionOf
  cases ending : (a.traversalOf ⟨bound⟩ input).ending with
  | accepted => exact Or.inl rfl
  | blocked x => exact Or.inr (Or.inr ⟨x, rfl⟩)
  | exhausted => exact Or.inr (Or.inl rfl)
  | cutOff => exact absurd ending h

/-- **Without spontaneous moves the search is a decision procedure.** With `b` the largest number of
outcomes under one key, a bound above `1 + b + ⋯ + b ^ n` is never reached on `n` symbols, declared
or not. -/
theorem run_of_isRealTime (h : a.IsBuilt) (realTime : a.IsRealTime) :
    (∀ q x top, (a.outcomes q x top).length ≤ a.branching) ∧
    (∃ q x top, (a.outcomes q x top).length = a.branching) ∧
    ∀ (input : String) (bound : Nat),
      ∑ i ∈ Finset.range (input.length + 1), a.branching ^ i < bound →
        ((a.run ⟨bound⟩ input).verdict = .accepted ∨ (a.run ⟨bound⟩ input).verdict = .rejected ∨
          ∃ x, (a.run ⟨bound⟩ input).verdict = .failed (.undeclaredInput x a.inputAlphabet)) ∧
        (a.run ⟨bound⟩ input).transitions ≤
          ∑ i ∈ Finset.range (input.length + 1), a.branching ^ i := by
  refine ⟨length_outcomes_le_branching a, exists_length_outcomes_eq_branching a, ?_⟩
  intro input bound room
  have finite : ∀ depth, a.treeSize depth (a.initialConfiguration input) ≤
      ∑ i ∈ Finset.range (input.length + 1), a.branching ^ i := by
    intro depth
    rw [← String.length_toList]
    exact treeSize_le_of_isRealTime realTime depth _
  obtain ⟨answered, counted⟩ := answered_of_treeSize_le h.closed finite room
  exact ⟨verdict_of_not_isCutOff h.closed answered, counted⟩

/-- The calls of an automaton with two choices at every `a`, neither of which empties the stack. -/
def growingCalls : List Builder.Call :=
  [.state "q", .input 'a', .stack 'Z', .transition "q" 'a' 'Z' "q" ['Z', 'Z'],
   .transition "q" 'a' 'Z' "q" ['Z']]

/-- The automaton that these calls build. -/
def growing : Automaton where
  states := #[⟨"q", ⟨[⟨⟨'a', 'Z'⟩, ⟨⟨0⟩, ['Z', 'Z']⟩⟩, ⟨⟨'a', 'Z'⟩, ⟨⟨0⟩, ['Z']⟩⟩]⟩⟩]
  inputAlphabet := Alphabet.ofList ['a']
  stackAlphabet := Alphabet.ofList ['Z']
  initialState := ⟨0⟩
  initialSymbol := 'Z'

/-- On two symbols the sum is seven, and the search takes just as many configurations. -/
theorem run_of_isRealTime_growing :
    growing.IsBuilt ∧ growing.IsRealTime ∧ growing.branching = 2 ∧
      (growing.run ⟨8⟩ "aa").transitions ≤ 7 ∧ growing.run ⟨8⟩ "aa" = ⟨.rejected, 7⟩ := by
  have built : growing.IsBuilt :=
    ⟨growingCalls, "q", 'Z', Builder.build_eq_ok_iff.2
      ⟨by decide +kernel, by decide +kernel, by decide +kernel⟩⟩
  have realTime : growing.IsRealTime := by decide
  have two : growing.branching = 2 := by decide
  have sum : ∑ i ∈ Finset.range ("aa".length + 1), growing.branching ^ i = 7 := by
    rw [two]
    decide
  obtain ⟨-, -, decided⟩ := run_of_isRealTime built realTime
  have counted := (decided "aa" 8 (by rw [sum]; decide)).2
  exact ⟨built, realTime, two, sum ▸ counted, by decide⟩

end Pushdown.Automaton
