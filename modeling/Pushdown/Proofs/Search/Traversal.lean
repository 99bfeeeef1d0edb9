import Pushdown.Proofs.Search.Tree
import Pushdown.Search.Trace

/-!
# The search as a traversal

`Automaton.explore` runs on a queue of two lists, counts what it takes and talks to an observer.
`Automaton.traverse` is what it computes, without any of that: the nodes that are visited, when so
many may be, and how the visit ends. Taking a node puts its children at the end of the line.

> `explore_eq`: from a line of nodes over the stack alphabet, `explore` answers with the ending of
> the traversal, counts its nodes, and tells any observer exactly the events of these nodes, in
> order (`Automaton.course`), and any log that they are expanded.

> `runWith_eq`: hence a run of a closed automaton is the traversal from its initial configuration,
> and no observer has a say in it.

A search that reaches its bound has counted one node more than it visited (`Traversal.taken`).
-/

namespace Pushdown

open Search (Event)

/-- How a traversal ends. -/
inductive Ending where
  /-- The last node visited is accepting. -/
  | accepted
  /-- The last node visited is blocked on a symbol. -/
  | blocked (symbol : Symbol)
  /-- No node is left. -/
  | exhausted
  /-- A node is left, but no more may be visited. -/
  | cutOff
deriving DecidableEq

/-- The nodes that were visited, in order, and what ended the visit. -/
structure Traversal where
  visited : List Configuration
  ending : Ending
deriving DecidableEq

namespace Traversal

/-- The traversal that visits a node before all others. -/
def after (t : Traversal) (c : Configuration) : Traversal := ⟨c :: t.visited, t.ending⟩

/-- How many nodes a search counts: those visited, and the one that it was cut off at. -/
def taken (t : Traversal) : Nat := t.visited.length + if t.ending = .cutOff then 1 else 0

@[simp] theorem visited_after (t : Traversal) (c : Configuration) :
    (t.after c).visited = c :: t.visited := rfl

@[simp] theorem ending_after (t : Traversal) (c : Configuration) :
    (t.after c).ending = t.ending := rfl

theorem taken_after (t : Traversal) (c : Configuration) : (t.after c).taken = t.taken + 1 :=
  Nat.add_right_comm ..

theorem taken_of_ne_cutOff {t : Traversal} (h : t.ending ≠ .cutOff) :
    t.taken = t.visited.length := by
  rw [taken, if_neg h, Nat.add_zero]

theorem taken_of_cutOff {t : Traversal} (h : t.ending = .cutOff) :
    t.taken = t.visited.length + 1 := by
  rw [taken, if_pos h]

end Traversal

namespace Automaton

/-- The traversal of the trees below a line of nodes, when `limit` nodes may be visited. -/
def traverse (a : Automaton) : (limit : Nat) → List Configuration → Traversal
  | _, [] => ⟨[], .exhausted⟩
  | 0, _ :: _ => ⟨[], .cutOff⟩
  | limit + 1, c :: line =>
    if c.IsAccepting then ⟨[c], .accepted⟩
    else
      match a.blockedOn? c with
      | some x => ⟨[c], .blocked x⟩
      | none => (a.traverse limit (line ++ a.children c)).after c

/-- The verdict of a search that ends so. -/
def verdictOf (a : Automaton) (bound : Nat) : Ending → Verdict
  | .accepted => .accepted
  | .blocked x => .failed (.undeclaredInput x a.inputAlphabet)
  | .exhausted => .rejected
  | .cutOff => .failed (.boundExceeded bound)

/-- The answer of a search with a bound that makes a traversal. -/
def executionOf (a : Automaton) (bound : Nat) (t : Traversal) : Execution :=
  ⟨a.verdictOf bound t.ending, t.taken⟩

/-- What there is to see of a visit: each node, and then the moves from it. -/
def course (a : Automaton) (visited : List Configuration) : List Event :=
  visited.flatMap fun c => .examined c :: (a.successors c).map fun s => .queued s.move

end Automaton

/-- An observer is told of an event. -/
def Observer.notice {σ : Type} (o : Observer σ) (a : Automaton) (seen : σ) : Event → σ
  | .examined c => o.examined a c seen
  | .queued m => o.queued a m seen

namespace Automaton

variable {a : Automaton} {c : Configuration} {line : List Configuration} {σ : Type}

/-! ## One step of a traversal -/

@[simp] theorem traverse_nil (limit : Nat) : a.traverse limit [] = ⟨[], .exhausted⟩ := by
  cases limit with
  | zero => rfl
  | succ limit => rfl

@[simp] theorem traverse_zero (c : Configuration) (line : List Configuration) :
    a.traverse 0 (c :: line) = ⟨[], .cutOff⟩ := rfl

theorem traverse_of_isAccepting (h : c.IsAccepting) (limit : Nat) :
    a.traverse (limit + 1) (c :: line) = ⟨[c], .accepted⟩ := by
  rw [traverse, if_pos h]

theorem traverse_of_isBlockedOn {x : Symbol} (h : a.IsBlockedOn c x) (limit : Nat) :
    a.traverse (limit + 1) (c :: line) = ⟨[c], .blocked x⟩ := by
  rw [traverse, if_neg (not_isAccepting_of_isBlockedOn h), blockedOn?_eq_some_iff.2 h]

theorem traverse_of_isOpen (h : a.IsOpen c) (limit : Nat) :
    a.traverse (limit + 1) (c :: line) =
      (a.traverse limit (line ++ a.children c)).after c := by
  obtain ⟨not_accepting, not_blocked⟩ := isOpen_iff.1 h
  rw [traverse, if_neg not_accepting, not_blocked]

/-! ## The search -/

/-- Telling an observer of a node and its moves, one by one, is telling it of a course. -/
theorem foldl_notice_course_cons (o : Observer σ) (c : Configuration)
    (visited : List Configuration) (seen : σ) :
    (a.course (c :: visited)).foldl (o.notice a) seen =
      (a.course visited).foldl (o.notice a)
        ((a.successors c).foldl (fun seen s => o.queued a s.move seen)
          (o.examined a c seen)) := by
  simp only [course, List.flatMap_cons, List.foldl_append, List.foldl_cons, List.foldl_map,
    Observer.notice]

/-- A search whose line is over the stack alphabet computes its traversal. -/
theorem explore_eq (closed : a.Closed) (bound : Nat) (o : Observer σ) :
    ∀ (remaining taken : Nat) (queue : Queue Configuration) (seen : σ) (log : Log),
      (∀ c ∈ queue.toList, c.stack.alphabet = a.stackAlphabet) →
      a.explore bound o remaining taken queue seen log =
        (⟨a.verdictOf bound (a.traverse remaining queue.toList).ending,
          taken + (a.traverse remaining queue.toList).taken⟩,
         (a.course (a.traverse remaining queue.toList).visited).foldl (o.notice a) seen,
         ((a.traverse remaining queue.toList).visited.map a.expanding).foldl Log.tell log) := by
  intro remaining
  induction remaining with
  | zero =>
    intro taken queue seen log _
    unfold explore
    cases hq : queue.pop? with
    | none => simp [Queue.pop?_eq_none_iff.1 hq, verdictOf, course, Traversal.taken]
    | some popped =>
      obtain ⟨c, queue'⟩ := popped
      simp [Queue.toList_of_pop? hq, verdictOf, course, Traversal.taken]
  | succ remaining ih =>
    intro taken queue seen log shared
    unfold explore
    cases hq : queue.pop? with
    | none => simp [Queue.pop?_eq_none_iff.1 hq, verdictOf, course, Traversal.taken]
    | some popped =>
      obtain ⟨c, queue'⟩ := popped
      have split_line := Queue.toList_of_pop? hq
      rw [split_line] at shared ⊢
      obtain ⟨shared_c, shared_line⟩ := List.forall_mem_cons.1 shared
      rcases examine_eq closed shared_c with
        ⟨accepting, looked⟩ | ⟨x, blocked, looked⟩ | ⟨opened, looked⟩
      · simp only [looked, traverse_of_isAccepting accepting, foldl_notice_course_cons,
          successors_of_isAccepting accepting]
        rfl
      · simp only [looked, traverse_of_isBlockedOn blocked, foldl_notice_course_cons,
          successors_of_isBlockedOn blocked]
        rfl
      · have over_next : ∀ d ∈ (queue'.pushAll ((a.successors c).map (·.configuration))).toList,
            d.stack.alphabet = a.stackAlphabet := by
          intro d hd
          rcases List.mem_append.1 (Queue.toList_pushAll _ _ ▸ hd) with hd | hd
          · exact shared_line d hd
          · exact (alphabet_of_mem_children hd).trans shared_c
        have next_line : (queue'.pushAll ((a.successors c).map (·.configuration))).toList =
            queue'.toList ++ a.children c := Queue.toList_pushAll _ _
        simp only [looked, ih _ _ _ _ over_next, next_line, traverse_of_isOpen opened,
          Traversal.ending_after, Traversal.visited_after, Traversal.taken_after,
          foldl_notice_course_cons, List.map_cons, List.foldl_cons]
        rw [Nat.add_assoc, Nat.add_comm 1]

/-- The configuration that a run of a closed automaton starts from. -/
def initialConfiguration (a : Automaton) (input : String) : Configuration :=
  ⟨a.initialState, Symbol.ofText input, ⟨a.stackAlphabet, [a.initialSymbol]⟩⟩

theorem start_eq (closed : a.Closed) (input : String) :
    a.start (Symbol.ofText input) = .ok (a.initialConfiguration input) := by
  have pushed : a.initialStack = .ok ⟨a.stackAlphabet, [a.initialSymbol]⟩ :=
    Stack.push_of_mem closed.initialSymbol_ne_epsilon closed.initialSymbol_mem
  simp only [start, pushed]
  rfl

/-- The traversal that a run makes: the node that reaches the bound is not visited. -/
def traversalOf (a : Automaton) (limits : Limits) (input : String) : Traversal :=
  a.traverse (limits.maxTransitions - 1) [a.initialConfiguration input]

/-- A run of a closed automaton is its traversal, whoever observes it. -/
theorem runWith_eq (closed : a.Closed) (limits : Limits) (o : Observer σ) (input : String)
    (seen : σ) (log : Log) :
    a.runWith limits o input seen log =
      (a.executionOf limits.maxTransitions (a.traversalOf limits input),
        (a.course (a.traversalOf limits input).visited).foldl (o.notice a) seen,
        (((a.traversalOf limits input).visited.map a.expanding).foldl Log.tell log).tell
          (.runFinished input
            (a.executionOf limits.maxTransitions (a.traversalOf limits input)))) := by
  have shared : ∀ c ∈ (Queue.ofList [a.initialConfiguration input]).toList,
      c.stack.alphabet = a.stackAlphabet := by
    intro c hc
    rw [Queue.toList_ofList, List.mem_singleton] at hc
    rw [hc]
    rfl
  simp only [runWith, search, start_eq closed, explore_eq closed _ o _ _ _ _ _ shared,
    Queue.toList_ofList, Nat.zero_add]
  rfl

theorem run_eq (closed : a.Closed) (limits : Limits) (input : String) :
    a.run limits input =
      a.executionOf limits.maxTransitions (a.traversalOf limits input) := by
  rw [run, runWith_eq closed]

/-- The recorder keeps the events of a course, the latest first. -/
theorem foldl_notice_recorder (events seen : List Event) :
    events.foldl (Search.recorder.notice a) seen = events.reverse ++ seen := by
  induction events generalizing seen with
  | nil => rfl
  | cons e rest ih =>
    have kept : Search.recorder.notice a seen e = e :: seen := by
      cases e with
      | examined c => rfl
      | queued m => rfl
    rw [List.foldl_cons, kept, ih, List.reverse_cons, List.append_assoc]
    rfl

theorem events_eq (closed : a.Closed) (limits : Limits) (input : String) :
    a.events limits input = a.course (a.traversalOf limits input).visited := by
  simp only [events, runRecorded, runWith_eq closed, foldl_notice_recorder, List.append_nil,
    List.reverse_reverse]

end Automaton

end Pushdown
