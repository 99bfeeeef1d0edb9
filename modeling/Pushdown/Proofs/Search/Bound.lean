import Pushdown.Proofs.Search.LevelOrder
import Pushdown.Proofs.Search.Rounds

/-!
# What the bound of a run decides

A traversal with room for fewer nodes is the beginning of one with room for more. So if a traversal
was not cut off and has visited `n` nodes, every room for `n` nodes gives that same traversal
(`traverse_eq_of_room`), and every smaller room cuts it off (`traverse_cutOff_of_short`). For a run,
whose count is compared with the bound before the node counted last is visited, the room is one less
than the bound:

> `run_bound_exact`: the loop of a run ends within `max bound 1` rounds and never counts further. A
> run that is not cut off has counted some `n` below its bound; it is the run under every bound
> above `n`, and under every bound up to `n` the run is cut off exactly there.
-/

namespace Pushdown

/-- The run came to its bound before there was an answer. -/
def Execution.IsCutOff (e : Execution) : Prop := ∃ bound, e.verdict = .failed (.boundExceeded bound)

namespace Automaton

variable {a : Automaton} {line : List Configuration}

/-! ## Traversals with more and with less room -/

/-- A traversal that was not cut off is the same wherever there is room for what it visited. -/
theorem traverse_eq_of_room {limit other : Nat} (h : (a.traverse limit line).ending ≠ .cutOff)
    (room : (a.traverse limit line).visited.length ≤ other) :
    a.traverse other line = a.traverse limit line := by
  fun_induction traverse a limit line generalizing other with
  | case1 limit => exact traverse_nil other
  | case2 c line => exact absurd rfl h
  | case3 limit c line accepting =>
    obtain ⟨other, rfl⟩ := Nat.exists_eq_add_of_le' room
    exact traverse_of_isAccepting accepting other
  | case4 limit c line _ x blocked =>
    obtain ⟨other, rfl⟩ := Nat.exists_eq_add_of_le' room
    exact traverse_of_isBlockedOn (blockedOn?_eq_some_iff.1 blocked) other
  | case5 limit c line not_accepting not_blocked ih =>
    have positive : 1 ≤ other := Nat.le_trans (Nat.succ_le_succ (Nat.zero_le _)) room
    obtain ⟨other, rfl⟩ := Nat.exists_eq_add_of_le' positive
    rw [traverse_of_isOpen (isOpen_iff.2 ⟨not_accepting, not_blocked⟩),
      ih h (Nat.le_of_succ_le_succ room)]

/-- A traversal that was not cut off is cut off where there is less room than it took. -/
theorem traverse_cutOff_of_short {limit other : Nat}
    (h : (a.traverse limit line).ending ≠ .cutOff)
    (short : other < (a.traverse limit line).visited.length) :
    (a.traverse other line).ending = .cutOff := by
  fun_induction traverse a limit line generalizing other with
  | case1 limit => exact absurd short (Nat.not_lt_zero other)
  | case2 c line => exact absurd rfl h
  | case3 limit c line accepting =>
    obtain rfl : other = 0 := Nat.lt_one_iff.1 short
    rfl
  | case4 limit c line _ x blocked =>
    obtain rfl : other = 0 := Nat.lt_one_iff.1 short
    rfl
  | case5 limit c line not_accepting not_blocked ih =>
    cases other with
    | zero => rfl
    | succ other =>
      rw [traverse_of_isOpen (isOpen_iff.2 ⟨not_accepting, not_blocked⟩)]
      exact ih h (Nat.lt_of_succ_lt_succ short)

/-! ## Runs -/

theorem isCutOff_executionOf {bound : Nat} {t : Traversal} :
    (a.executionOf bound t).IsCutOff ↔ t.ending = .cutOff := by
  unfold Execution.IsCutOff executionOf
  cases t.ending with
  | accepted => simp [verdictOf]
  | blocked x => simp [verdictOf]
  | exhausted => simp [verdictOf]
  | cutOff => simp [verdictOf]

/-- Only the answer of a search that is cut off tells the bound. -/
theorem executionOf_congr {bound other : Nat} {t : Traversal} (h : t.ending ≠ .cutOff) :
    a.executionOf bound t = a.executionOf other t := by
  unfold executionOf
  cases ending : t.ending with
  | accepted => rfl
  | blocked x => rfl
  | exhausted => rfl
  | cutOff => exact absurd ending h

theorem isCutOff_run_iff (closed : a.Closed) {limits : Limits} {input : String} :
    (a.run limits input).IsCutOff ↔ (a.traversalOf limits input).ending = .cutOff := by
  rw [run_eq closed]
  exact isCutOff_executionOf

/-- A run that is cut off has counted to its bound, but at least to one. -/
theorem run_of_cutOff (closed : a.Closed) {bound : Nat} {input : String}
    (h : (a.traversalOf ⟨bound⟩ input).ending = .cutOff) :
    a.run ⟨bound⟩ input = ⟨.failed (.boundExceeded bound), max bound 1⟩ := by
  obtain ⟨-, visited, -⟩ := traverse_cutOff h
  have counted : (a.traversalOf ⟨bound⟩ input).taken = max bound 1 := by
    rw [Traversal.taken_of_cutOff h, traversalOf, visited]
    show bound - 1 + 1 = max bound 1
    omega
  rw [run_eq closed, executionOf, h, counted]
  rfl

/-- A run that is not cut off has counted the nodes it visited, fewer than its bound. -/
theorem transitions_run (closed : a.Closed) {bound : Nat} {input : String}
    (h : (a.traversalOf ⟨bound⟩ input).ending ≠ .cutOff) :
    (a.run ⟨bound⟩ input).transitions = (a.traversalOf ⟨bound⟩ input).visited.length ∧
      (a.run ⟨bound⟩ input).transitions < bound := by
  have counted : (a.run ⟨bound⟩ input).transitions =
      (a.traversalOf ⟨bound⟩ input).visited.length := by
    rw [run_eq closed]
    exact Traversal.taken_of_ne_cutOff h
  exact ⟨counted, counted ▸ length_visited_lt h⟩

/-- A run that is not cut off is the run under every bound above its count. -/
theorem run_eq_of_transitions_lt (closed : a.Closed) {bound other : Nat} {input : String}
    (answered : ¬ (a.run ⟨bound⟩ input).IsCutOff)
    (above : (a.run ⟨bound⟩ input).transitions < other) :
    a.run ⟨other⟩ input = a.run ⟨bound⟩ input := by
  have ending : (a.traversalOf ⟨bound⟩ input).ending ≠ .cutOff :=
    fun h => answered ((isCutOff_run_iff closed).2 h)
  rw [(transitions_run closed ending).1] at above
  have same : a.traversalOf ⟨other⟩ input = a.traversalOf ⟨bound⟩ input :=
    traverse_eq_of_room ending (Nat.le_sub_one_of_lt above)
  rw [run_eq closed, run_eq closed, same]
  exact executionOf_congr ending

/-- Under every bound up to the count of a run that is not cut off, the run is cut off. -/
theorem run_cutOff_of_le_transitions (closed : a.Closed) {bound other : Nat} {input : String}
    (answered : ¬ (a.run ⟨bound⟩ input).IsCutOff)
    (below : other ≤ (a.run ⟨bound⟩ input).transitions) :
    a.run ⟨other⟩ input = ⟨.failed (.boundExceeded other), max other 1⟩ := by
  have ending : (a.traversalOf ⟨bound⟩ input).ending ≠ .cutOff :=
    fun h => answered ((isCutOff_run_iff closed).2 h)
  refine run_of_cutOff closed ?_
  cases other with
  | zero => rfl
  | succ other =>
    rw [(transitions_run closed ending).1] at below
    exact traverse_cutOff_of_short ending below

/-- **The bound cuts a run off exactly where its count comes to it**, and decides nothing else. -/
theorem run_bound_exact (h : a.IsBuilt) (input : String) :
    (∀ bound,
      a.stageAfter bound (max bound 1) input = .ended (a.run ⟨bound⟩ input) ∧
      (∀ rounds, (a.stageAfter bound rounds input).taken ≤ max bound 1) ∧
      (a.run ⟨bound⟩ input).transitions ≤ max bound 1 ∧
      (a.run ⟨bound⟩ input = ⟨.failed (.boundExceeded bound), max bound 1⟩ ∨
        ¬ (a.run ⟨bound⟩ input).IsCutOff ∧ (a.run ⟨bound⟩ input).transitions < bound)) ∧
    -- a bound of one machine word is never counted past the word
    (∀ bound, bound < UInt64.size → ∀ rounds,
      (a.stageAfter bound rounds input).taken < UInt64.size) ∧
    (∀ bound, ¬ (a.run ⟨bound⟩ input).IsCutOff → ∀ other,
      ((a.run ⟨bound⟩ input).transitions < other →
        a.run ⟨other⟩ input = a.run ⟨bound⟩ input) ∧
      (other ≤ (a.run ⟨bound⟩ input).transitions →
        a.run ⟨other⟩ input = ⟨.failed (.boundExceeded other), max other 1⟩)) ∧
    (∀ bound other, ¬ (a.run ⟨bound⟩ input).IsCutOff → ¬ (a.run ⟨other⟩ input).IsCutOff →
      a.run ⟨bound⟩ input = a.run ⟨other⟩ input) := by
  have closed := h.closed
  have counted : ∀ bound rounds, (a.stageAfter bound rounds input).taken ≤ max bound 1 :=
    fun bound rounds => (counted_stageAfter a bound rounds input).taken_le
  have ended : ∀ bound, a.stageAfter bound (max bound 1) input = .ended (a.run ⟨bound⟩ input) :=
    fun bound => iterate_round_firstStage a bound input
  refine ⟨fun bound => ⟨ended bound, counted bound, ?_, ?_⟩, fun bound word rounds => ?_,
    fun bound answered other => ⟨fun above => ?_, fun below => ?_⟩,
    fun bound other answered answered' => ?_⟩
  · have last := counted bound (max bound 1)
    rw [ended bound] at last
    exact last
  · by_cases cut : (a.traversalOf ⟨bound⟩ input).ending = .cutOff
    · exact Or.inl (run_of_cutOff closed cut)
    · exact Or.inr ⟨fun h => cut ((isCutOff_run_iff closed).1 h), (transitions_run closed cut).2⟩
  · have room : max bound 1 < UInt64.size := Nat.max_lt.2 ⟨word, by decide⟩
    exact Nat.lt_of_le_of_lt (counted bound rounds) room
  · exact run_eq_of_transitions_lt closed answered above
  · exact run_cutOff_of_le_transitions closed answered below
  · rcases Nat.lt_or_ge (a.run ⟨bound⟩ input).transitions other with above | below
    · exact (run_eq_of_transitions_lt closed answered above).symm
    · rw [run_cutOff_of_le_transitions closed answered below] at answered'
      exact absurd ⟨other, rfl⟩ answered'

/-- On `()` the balanced words are found with the fifth configuration: no bound above five changes
that, and the bound five is one too small. -/
theorem run_bound_exact_balanced :
    balanced.IsBuilt ∧ balanced.run ⟨10⟩ "()" = ⟨.accepted, 5⟩ ∧
      (∀ other, 5 < other → balanced.run ⟨other⟩ "()" = ⟨.accepted, 5⟩) ∧
      balanced.run ⟨5⟩ "()" = ⟨.failed (.boundExceeded 5), 5⟩ := by
  obtain ⟨-, -, stable, -⟩ := run_bound_exact balanced_isBuilt "()"
  have found : balanced.run ⟨10⟩ "()" = ⟨.accepted, 5⟩ := by decide
  have answered : ¬ (balanced.run ⟨10⟩ "()").IsCutOff := by
    rw [found]
    rintro ⟨bound, same⟩
    cases same
  have counted : (balanced.run ⟨10⟩ "()").transitions = 5 := congrArg Execution.transitions found
  refine ⟨balanced_isBuilt, found, fun other above => ?_, ?_⟩
  · exact ((stable 10 answered other).1 (counted ▸ above)).trans found
  · exact (stable 10 answered 5).2 (Nat.le_of_eq counted.symm)

end Automaton

end Pushdown
