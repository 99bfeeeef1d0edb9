import Pushdown.Search
import Mathlib.Logic.Function.Iterate

/-!
# The search, round by round

`Automaton.explore` is told in advance how many configurations it may still take. The loop itself
knows nothing of that: it counts, and after each count it compares with the bound. A `Stage` is
where the loop stands, under way or ended with an answer, and one `Automaton.round` takes a
configuration, counts it, gives up if the count has come to the bound, and only otherwise looks at
what it took. A stage that has ended is not left again.

> `iterate_round_firstStage`: whatever the bound, the loop has ended after `max bound 1` rounds, and
> its answer is that of the run.

What one round can do is `round_cases`. An invariant of the search is read off that lemma and then
holds at every stage, as the count does, which never passes `max bound 1` (`counted_stageAfter`).
-/

namespace Pushdown

/-- Where a search stands. -/
inductive Stage where
  /-- So many configurations have been counted, and these are queued. -/
  | underWay (taken : Nat) (queue : Queue Configuration)
  /-- The search is over. -/
  | ended (execution : Execution)

namespace Stage

/-- How many configurations have been counted. -/
def taken : Stage → Nat
  | underWay taken _ => taken
  | ended execution => execution.transitions

/-- The configurations that wait to be taken, oldest first. -/
def queued : Stage → List Configuration
  | underWay _ queue => queue.toList
  | ended _ => []

/-- As long as the search is under way, there is room for one more count. -/
def Counted (bound : Nat) : Stage → Prop
  | underWay taken _ => taken < max bound 1
  | ended execution => execution.transitions ≤ max bound 1

theorem Counted.taken_le {bound : Nat} {s : Stage} (h : s.Counted bound) :
    s.taken ≤ max bound 1 := by
  cases s with
  | underWay taken queue => exact Nat.le_of_lt h
  | ended execution => exact h

end Stage

namespace Automaton

/-- One round of the search: the count is compared with the bound before the configuration that was
counted is looked at. -/
def round (a : Automaton) (bound : Nat) : Stage → Stage
  | .ended execution => .ended execution
  | .underWay taken queue =>
    match queue.pop? with
    | none => .ended ⟨.rejected, taken⟩
    | some (c, queue) =>
      if bound ≤ taken + 1 then .ended ⟨.failed (.boundExceeded bound), taken + 1⟩
      else
        match a.examine c with
        | .accepting => .ended ⟨.accepted, taken + 1⟩
        | .undeclared x => .ended ⟨.failed (.undeclaredInput x a.inputAlphabet), taken + 1⟩
        | .moves _ (some fault) => .ended ⟨.failed (.definition fault), taken + 1⟩
        | .moves successors none =>
          .underWay (taken + 1) (queue.pushAll (successors.map (·.configuration)))

/-- The stage that a search on an input starts from. -/
def firstStage (a : Automaton) (input : String) : Stage :=
  match a.start (Symbol.ofText input) with
  | .error fault => .ended ⟨.failed (.definition fault), 0⟩
  | .ok c => .underWay 0 (Queue.ofList [c])

/-- The stage after some rounds. -/
def stageAfter (a : Automaton) (bound rounds : Nat) (input : String) : Stage :=
  (a.round bound)^[rounds] (a.firstStage input)

variable {a : Automaton} {bound : Nat} {σ : Type}

/-! ## The loop computes the run -/

@[simp] theorem iterate_round_ended (rounds : Nat) (e : Execution) :
    (a.round bound)^[rounds] (.ended e) = .ended e :=
  Function.iterate_fixed rfl rounds

/-- A search that may take so many more configurations is as many rounds of the loop, and one,
whoever observes it and whatever the log. -/
theorem iterate_round_underWay (o : Observer σ) (remaining taken : Nat)
    (queue : Queue Configuration) (seen : σ) (log : Log) (room : remaining = bound - (taken + 1)) :
    (a.round bound)^[remaining + 1] (.underWay taken queue) =
      .ended (a.explore bound o remaining taken queue seen log).1 := by
  induction remaining generalizing taken queue seen log with
  | zero =>
    have reached : bound ≤ taken + 1 := by omega
    unfold explore
    rw [Function.iterate_one, round]
    cases queue.pop? with
    | none => rfl
    | some popped => exact if_pos reached
  | succ remaining ih =>
    have not_reached : ¬ bound ≤ taken + 1 := by omega
    unfold explore
    rw [Function.iterate_succ_apply, round]
    cases queue.pop? with
    | none => exact iterate_round_ended _ _
    | some popped =>
      obtain ⟨c, queue⟩ := popped
      simp only [if_neg not_reached]
      cases a.examine c with
      | accepting => exact iterate_round_ended _ _
      | undeclared x => exact iterate_round_ended _ _
      | moves successors refused =>
        cases refused with
        | some fault => exact iterate_round_ended _ _
        | none => exact ih _ _ _ _ (by omega)

/-- The loop ends, with the answer of the run. -/
theorem iterate_round_firstStage (a : Automaton) (bound : Nat) (input : String) :
    a.stageAfter bound (max bound 1) input = .ended (a.run ⟨bound⟩ input) := by
  have rounds : max bound 1 = bound - 1 + 1 := by omega
  unfold stageAfter firstStage run runWith search
  cases a.start (Symbol.ofText input) with
  | error fault => exact iterate_round_ended _ _
  | ok c =>
    rw [rounds]
    exact iterate_round_underWay .blind _ _ _ _ _ rfl

/-! ## What every round keeps -/

/-- A round from a search under way ends it, or takes a configuration that is neither accepting nor
blocked and queues its successors, with room for another. -/
theorem round_cases (a : Automaton) (bound taken : Nat) (queue : Queue Configuration) :
    a.round bound (.underWay taken queue) = .ended ⟨.rejected, taken⟩ ∨
    (∃ verdict, a.round bound (.underWay taken queue) = .ended ⟨verdict, taken + 1⟩) ∨
    ∃ (c : Configuration) (rest : Queue Configuration) (successors : List Successor),
      queue.toList = c :: rest.toList ∧ taken + 1 < bound ∧ a.examine c = .moves successors none ∧
      a.round bound (.underWay taken queue) =
        .underWay (taken + 1) (rest.pushAll (successors.map (·.configuration))) := by
  rw [round]
  cases hq : queue.pop? with
  | none => exact Or.inl rfl
  | some popped =>
    obtain ⟨c, rest⟩ := popped
    refine Or.inr ?_
    by_cases reached : bound ≤ taken + 1
    · exact Or.inl ⟨_, if_pos reached⟩
    · simp only [if_neg reached]
      cases looked : a.examine c with
      | accepting => exact Or.inl ⟨_, rfl⟩
      | undeclared x => exact Or.inl ⟨_, rfl⟩
      | moves successors refused =>
        cases refused with
        | some fault => exact Or.inl ⟨_, rfl⟩
        | none =>
          exact Or.inr ⟨c, rest, successors, Queue.toList_of_pop? hq, Nat.lt_of_not_le reached,
            looked, rfl⟩

theorem stageAfter_succ (rounds : Nat) (input : String) :
    a.stageAfter bound (rounds + 1) input = a.round bound (a.stageAfter bound rounds input) :=
  Function.iterate_succ_apply' _ _ _

theorem counted_round {s : Stage} (h : s.Counted bound) : (a.round bound s).Counted bound := by
  cases s with
  | ended execution => exact h
  | underWay taken queue =>
    have room : taken < max bound 1 := h
    rcases round_cases a bound taken queue with
      next | ⟨verdict, next⟩ | ⟨c, rest, successors, -, before_bound, -, next⟩
    · rw [next]
      exact Nat.le_of_lt room
    · rw [next]
      exact room
    · rw [next]
      exact Nat.lt_of_lt_of_le before_bound (Nat.le_max_left bound 1)

/-- The count never passes the bound. -/
theorem counted_stageAfter (a : Automaton) (bound rounds : Nat) (input : String) :
    (a.stageAfter bound rounds input).Counted bound := by
  induction rounds with
  | zero =>
    show (a.firstStage input).Counted bound
    unfold firstStage
    cases a.start (Symbol.ofText input) with
    | error fault => exact Nat.zero_le _
    | ok c => exact Nat.lt_of_lt_of_le Nat.zero_lt_one (Nat.le_max_right bound 1)
  | succ rounds ih =>
    rw [stageAfter_succ]
    exact counted_round ih

end Automaton

end Pushdown
