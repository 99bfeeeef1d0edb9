import Pushdown.Proofs.Search.Traversal
import Mathlib.Data.List.Basic

/-!
# The search is the level-order traversal of the computation tree

A traversal takes nodes from the front of a line and puts their children at its end. Whatever it
visits, it visits in the order of that line, `queueOrder`; and since a level has been taken when all
of the next one stands in the line, that order is the order of levels:

> `queueOrder_eq_take`: the first `n` nodes in the order of the line are the first `n` of the level
> order.

What a traversal has visited when it ends, and why it ends there, is one lemma for each ending
(`traverse_accepted`, `traverse_blocked`, `traverse_exhausted`, `traverse_cutOff`). For a run they
are put together in `EndsAt`:

> `events_levelOrder`: the configurations that an observer of a run is shown are the first of the
> level order; each but the first is what the next move told of makes of the configuration shown
> before that move; and they end at the first that is accepting or blocked, at the end of the tree,
> or where the bound is reached.
-/

namespace Pushdown

open Search (Event)

namespace Automaton

variable {a : Automaton} {c : Configuration} {line : List Configuration}

/-- The first nodes in the order of a line to whose end children are put. -/
def queueOrder (a : Automaton) : (count : Nat) → List Configuration → List Configuration
  | 0, _ => []
  | _ + 1, [] => []
  | count + 1, c :: line => c :: a.queueOrder count (line ++ a.children c)

@[simp] theorem queueOrder_nil (count : Nat) : a.queueOrder count [] = [] := by
  cases count with
  | zero => rfl
  | succ count => rfl

theorem queueOrder_cons (count : Nat) (c : Configuration) (line : List Configuration) :
    a.queueOrder (count + 1) (c :: line) = c :: a.queueOrder count (line ++ a.children c) := rfl

/-! ## The order of the line is the order of levels -/

/-- As long as the line reaches, its own nodes are taken. -/
theorem queueOrder_of_le {count : Nat} (h : count ≤ line.length) :
    a.queueOrder count line = line.take count := by
  induction count generalizing line with
  | zero => rfl
  | succ count ih =>
    cases line with
    | nil => exact absurd h (Nat.not_succ_le_zero count)
    | cons c line =>
      have le : count ≤ line.length := Nat.le_of_succ_le_succ h
      rw [queueOrder_cons, ih (by rw [List.length_append]; omega), List.take_succ_cons,
        List.take_append_of_le_length le]

/-- When some nodes have been taken, their children stand in the line after all others. -/
theorem queueOrder_append (xs ys : List Configuration) (count : Nat) :
    a.queueOrder (xs.length + count) (xs ++ ys) =
      xs ++ a.queueOrder count (ys ++ xs.flatMap a.children) := by
  induction xs generalizing ys with
  | nil => simp
  | cons x xs ih =>
    rw [List.length_cons, Nat.add_right_comm, List.cons_append, queueOrder_cons,
      List.append_assoc, ih, List.flatMap_cons, List.cons_append, List.append_assoc]

/-- The order of the line is the order of levels. -/
theorem queueOrder_eq_take {count depth : Nat} (h : count ≤ depth) :
    a.queueOrder count line = (a.levelOrder depth line).take count := by
  induction depth generalizing count line with
  | zero =>
    obtain rfl := Nat.le_zero.1 h
    rfl
  | succ depth ih =>
    rw [levelOrder_succ]
    rcases Nat.le_total count line.length with le | ge
    · rw [queueOrder_of_le le, List.take_append_of_le_length le]
    · obtain ⟨more, rfl⟩ := Nat.exists_eq_add_of_le ge
      cases line with
      | nil => simp [levelOrder_nil]
      | cons c line =>
        -- at least one node is on this level, so fewer are asked of the levels below
        have fewer : more ≤ depth := by
          rw [List.length_cons] at h
          omega
        have this_level := queueOrder_append (a := a) (c :: line) [] more
        rw [List.append_nil, List.nil_append] at this_level
        rw [this_level, ih fewer, List.take_length_add_append]

/-! ## What is visited, and why it ends there -/

theorem traverse_prefix_queueOrder (limit : Nat) (line : List Configuration) :
    (a.traverse limit line).visited <+: a.queueOrder limit line := by
  fun_induction traverse a limit line with
  | case1 limit => simp
  | case2 c line => simp
  | case3 limit c line accepting => exact ⟨_, rfl⟩
  | case4 limit c line _ x _ => exact ⟨_, rfl⟩
  | case5 limit c line _ _ ih => exact List.cons_prefix_cons.2 ⟨rfl, ih⟩

theorem traverse_length_le (limit : Nat) (line : List Configuration) :
    (a.traverse limit line).visited.length ≤ limit := by
  fun_induction traverse a limit line with
  | case1 limit => exact Nat.zero_le _
  | case2 c line => exact Nat.le_refl _
  | case3 limit c line accepting => exact Nat.succ_le_succ (Nat.zero_le _)
  | case4 limit c line _ x _ => exact Nat.succ_le_succ (Nat.zero_le _)
  | case5 limit c line _ _ ih => exact Nat.succ_le_succ ih

/-- A traversal that accepts has come to its first node that is not open, an accepting one. -/
theorem traverse_accepted {limit : Nat} (h : (a.traverse limit line).ending = .accepted) :
    ∃ before c, (a.traverse limit line).visited = before ++ [c] ∧ c.IsAccepting ∧
      ∀ b ∈ before, a.IsOpen b := by
  fun_induction traverse a limit line with
  | case1 limit => cases h
  | case2 c line => cases h
  | case3 limit c line accepting =>
    exact ⟨[], c, rfl, accepting, fun b hb => absurd hb List.not_mem_nil⟩
  | case4 limit c line _ x _ => cases h
  | case5 limit c line not_accepting not_blocked ih =>
    obtain ⟨before, d, visited, accepting, opened⟩ := ih h
    refine ⟨c :: before, d, congrArg (c :: ·) visited, accepting, ?_⟩
    exact List.forall_mem_cons.2 ⟨isOpen_iff.2 ⟨not_accepting, not_blocked⟩, opened⟩

/-- A traversal that is blocked has come to its first node that is not open, a blocked one. -/
theorem traverse_blocked {limit : Nat} {x : Symbol}
    (h : (a.traverse limit line).ending = .blocked x) :
    ∃ before c, (a.traverse limit line).visited = before ++ [c] ∧ a.IsBlockedOn c x ∧
      ∀ b ∈ before, a.IsOpen b := by
  fun_induction traverse a limit line with
  | case1 limit => cases h
  | case2 c line => cases h
  | case3 limit c line accepting => cases h
  | case4 limit c line _ y blocked =>
    cases h
    exact ⟨[], c, rfl, blockedOn?_eq_some_iff.1 blocked, fun b hb => absurd hb List.not_mem_nil⟩
  | case5 limit c line not_accepting not_blocked ih =>
    obtain ⟨before, d, visited, blocked, opened⟩ := ih h
    refine ⟨c :: before, d, congrArg (c :: ·) visited, blocked, ?_⟩
    exact List.forall_mem_cons.2 ⟨isOpen_iff.2 ⟨not_accepting, not_blocked⟩, opened⟩

/-- A traversal that runs out of nodes has visited all there are, and all are open. -/
theorem traverse_exhausted {limit : Nat} (h : (a.traverse limit line).ending = .exhausted) :
    (∀ b ∈ (a.traverse limit line).visited, a.IsOpen b) ∧
      ∀ count, (a.traverse limit line).visited.length ≤ count →
        a.queueOrder count line = (a.traverse limit line).visited := by
  fun_induction traverse a limit line with
  | case1 limit =>
    exact ⟨fun b hb => absurd hb List.not_mem_nil, fun count _ => queueOrder_nil count⟩
  | case2 c line => cases h
  | case3 limit c line accepting => cases h
  | case4 limit c line _ x _ => cases h
  | case5 limit c line not_accepting not_blocked ih =>
    obtain ⟨opened, all⟩ := ih h
    refine ⟨List.forall_mem_cons.2 ⟨isOpen_iff.2 ⟨not_accepting, not_blocked⟩, opened⟩, ?_⟩
    intro count le
    have positive : 1 ≤ count := Nat.le_trans (Nat.succ_le_succ (Nat.zero_le _)) le
    obtain ⟨count, rfl⟩ := Nat.exists_eq_add_of_le' positive
    exact congrArg (c :: ·) (all count (Nat.le_of_succ_le_succ le))

/-- A traversal that is cut off has visited as many nodes as it may, all of them open, and at
least one more is there. -/
theorem traverse_cutOff {limit : Nat} (h : (a.traverse limit line).ending = .cutOff) :
    (∀ b ∈ (a.traverse limit line).visited, a.IsOpen b) ∧
      (a.traverse limit line).visited.length = limit ∧
      (a.queueOrder (limit + 1) line).length = limit + 1 := by
  fun_induction traverse a limit line with
  | case1 limit => cases h
  | case2 c line => exact ⟨fun b hb => absurd hb List.not_mem_nil, rfl, rfl⟩
  | case3 limit c line accepting => cases h
  | case4 limit c line _ x _ => cases h
  | case5 limit c line not_accepting not_blocked ih =>
    obtain ⟨opened, visited, more⟩ := ih h
    refine ⟨List.forall_mem_cons.2 ⟨isOpen_iff.2 ⟨not_accepting, not_blocked⟩, opened⟩, ?_, ?_⟩
    · exact congrArg (· + 1) visited
    · exact congrArg (· + 1) more

/-- What a traversal visits are the first nodes of the level order. -/
theorem traverse_prefix_levelOrder (limit : Nat) (line : List Configuration) :
    (a.traverse limit line).visited <+: a.levelOrder limit line := by
  refine (traverse_prefix_queueOrder limit line).trans ?_
  rw [queueOrder_eq_take (Nat.le_refl limit)]
  exact List.take_prefix _ _

/-- A traversal that runs out of nodes has visited finite trees, and these whole. -/
theorem traverse_whole_tree {limit : Nat} (h : (a.traverse limit line).ending = .exhausted) :
    ∃ depth, line.flatMap (a.level depth) = [] ∧
      (a.traverse limit line).visited = a.levelOrder depth line := by
  obtain ⟨-, all⟩ := traverse_exhausted h
  generalize (a.traverse limit line).visited = visited at all ⊢
  have first := all (visited.length + 1) (Nat.le_succ _)
  rw [queueOrder_eq_take (Nat.le_refl _)] at first
  have count := congrArg List.length first
  rw [List.length_take] at count
  have length_eq : (a.levelOrder (visited.length + 1) line).length = visited.length := by omega
  refine ⟨visited.length + 1, ?_, ?_⟩
  · by_contra not_empty
    have := le_length_levelOrder not_empty
    omega
  · exact first.symm.trans (List.take_of_length_le (by omega))

/-- A traversal that ends without an answer has visited every level whose nodes it had the
room for. -/
theorem mem_visited_of_mem_levelOrder {limit depth : Nat}
    (room : (a.levelOrder depth line).length ≤ limit)
    (h : (a.traverse limit line).ending = .exhausted ∨ (a.traverse limit line).ending = .cutOff)
    (hc : c ∈ a.levelOrder depth line) : c ∈ (a.traverse limit line).visited := by
  rcases h with h | h
  · obtain ⟨-, all⟩ := traverse_exhausted h
    -- all nodes, and so these, are the first nodes of an order that is long enough
    have shallow := levelOrder_mono (a := a) (Nat.le_add_right depth
      (limit + (a.levelOrder depth line).length)) line
    have enough := all (depth + (limit + (a.levelOrder depth line).length)) (by
      have := traverse_length_le (a := a) limit line
      omega)
    rw [queueOrder_eq_take (Nat.le_refl _)] at enough
    rw [← enough]
    refine List.IsPrefix.subset ?_ hc
    exact List.prefix_take_iff.2 ⟨shallow, by omega⟩
  · obtain ⟨-, length_eq, -⟩ := traverse_cutOff h
    have deep : a.levelOrder limit line <+: a.levelOrder (limit + depth) line :=
      levelOrder_mono (Nat.le_add_right _ _) line
    have shallow : a.levelOrder depth line <+: a.levelOrder (limit + depth) line :=
      levelOrder_mono (Nat.le_add_left _ _) line
    have visited := (traverse_prefix_levelOrder limit line).trans deep
    exact (List.prefix_of_prefix_length_le shallow visited (by omega)).subset hc

end Automaton

/-! ## What an observer sees -/

/-- Where a move leads from a configuration: the symbol it reads is removed, if it is the next one,
and what it pushes takes the place of the stack top. -/
def Move.result (m : Move) (c : Configuration) : Configuration where
  state := m.target
  input := if c.input.head? = some m.consumed then c.input.tail else c.input
  stack := { c.stack with symbols := Symbol.withoutEpsilon m.push ++ c.stack.symbols.tail }

namespace Search

/-- The configurations that events show, in order. -/
def observed (events : List Event) : List Configuration :=
  events.filterMap fun
    | .examined c => some c
    | .queued _ => none

/-- Where the moves of events lead, in order, each from the configuration shown last before it. -/
def moveResults (shown : Option Configuration) : List Event → List Configuration
  | [] => []
  | .examined c :: rest => moveResults (some c) rest
  | .queued m :: rest => (shown.map m.result).toList ++ moveResults shown rest

theorem moveResults_queued (c : Configuration) (moves : List Move) (rest : List Event) :
    moveResults (some c) (moves.map .queued ++ rest) =
      moves.map (·.result c) ++ moveResults (some c) rest := by
  induction moves with
  | nil => rfl
  | cons m moves ih => exact congrArg (m.result c :: ·) ih

theorem observed_append (events rest : List Event) :
    observed (events ++ rest) = observed events ++ observed rest :=
  List.filterMap_append ..

theorem observed_queued (moves : List Move) : observed (moves.map .queued) = [] := by
  induction moves with
  | nil => rfl
  | cons m moves ih => exact ih

end Search

namespace Automaton

open Search (observed moveResults)

variable {a : Automaton} {c : Configuration} {line : List Configuration}

/-- A successor is where its move leads. -/
theorem result_move_of_mem_successors {s : Successor} (h : s ∈ a.successors c) :
    s.move.result c = s.configuration := by
  obtain ⟨state, input, alphabet, symbols⟩ := c
  have under : ∀ {consumed top : Symbol} {below rest : List Symbol}, symbols = top :: below →
      (if input.head? = some consumed then input.tail else input) = rest →
      s ∈ a.successorsUnder ⟨state, input, alphabet, symbols⟩ consumed top below rest →
      s.move.result ⟨state, input, alphabet, symbols⟩ = s.configuration := by
    rintro consumed top below rest rfl left hs
    obtain ⟨o, -, rfl⟩ := List.mem_map.1 hs
    simp only [Move.result, left, List.tail_cons]
  cases symbols with
  | nil => exact absurd h List.not_mem_nil
  | cons top below =>
    cases input with
    | nil => exact under rfl rfl h
    | cons x rest =>
      simp only [successors] at h
      split at h
      next hx => exact under rfl (if_pos (congrArg some hx)) h
      next hx =>
        split at h
        next =>
          rcases List.mem_append.1 h with h | h
          · exact under rfl (if_pos rfl) h
          · exact under rfl (if_neg fun e => hx (Option.some.inj e)) h
        next => exact absurd h List.not_mem_nil

theorem course_cons (c : Configuration) (visited : List Configuration) :
    a.course (c :: visited) =
      .examined c :: (((a.successors c).map (·.move)).map .queued ++ a.course visited) := by
  simp only [course, List.flatMap_cons, List.map_map, List.cons_append]
  rfl

/-- The configurations shown during a visit are those visited. -/
theorem observed_course (visited : List Configuration) : observed (a.course visited) = visited := by
  induction visited with
  | nil => rfl
  | cons c visited ih =>
    have tail : observed (((a.successors c).map (·.move)).map .queued ++ a.course visited) =
        visited := by
      rw [Search.observed_append, Search.observed_queued, List.nil_append, ih]
    rw [course_cons]
    exact congrArg (c :: ·) tail

/-- The moves told of during a visit lead to the children of the nodes visited. -/
theorem moveResults_course (visited : List Configuration) (shown : Option Configuration) :
    moveResults shown (a.course visited) = visited.flatMap a.children := by
  induction visited generalizing shown with
  | nil => rfl
  | cons c visited ih =>
    have leads : ((a.successors c).map (·.move)).map (·.result c) = a.children c := by
      rw [List.map_map]
      exact List.map_congr_left fun s hs => result_move_of_mem_successors hs
    rw [course_cons, moveResults, Search.moveResults_queued, leads, ih, List.flatMap_cons]

/-- In the order of the line every node but the first ones is a child of an earlier node. -/
theorem traverse_prefix_children (limit : Nat) (line : List Configuration) :
    (a.traverse limit line).visited <+:
      line ++ (a.traverse limit line).visited.flatMap a.children := by
  fun_induction traverse a limit line with
  | case1 limit => exact List.nil_prefix
  | case2 c line => exact List.nil_prefix
  | case3 limit c line accepting => exact ⟨_, rfl⟩
  | case4 limit c line _ x _ => exact ⟨_, rfl⟩
  | case5 limit c line _ _ ih =>
    rw [Traversal.visited_after, List.flatMap_cons, List.cons_append, ← List.append_assoc]
    exact List.cons_prefix_cons.2 ⟨rfl, ih⟩

/-- Where the configurations `seen` by an observer of a run end, and what the run then answers. -/
inductive EndsAt (a : Automaton) (root : Configuration) (bound : Nat)
    (seen : List Configuration) : Execution → Prop where
  /-- The last one is the first of the level order that is not open, and it is accepting. -/
  | accepted {before : List Configuration} {c : Configuration} :
    seen = before ++ [c] → c.IsAccepting → (∀ b ∈ before, a.IsOpen b) → seen.length < bound →
      EndsAt a root bound seen ⟨.accepted, seen.length⟩
  /-- The last one is the first of the level order that is not open, and it is blocked. -/
  | blocked {before : List Configuration} {c : Configuration} {x : Symbol} :
    seen = before ++ [c] → a.IsBlockedOn c x → (∀ b ∈ before, a.IsOpen b) → seen.length < bound →
      EndsAt a root bound seen ⟨.failed (.undeclaredInput x a.inputAlphabet), seen.length⟩
  /-- They are the whole tree, which is finite. -/
  | exhausted {depth : Nat} :
    a.level depth root = [] → seen = a.levelOrder depth [root] → (∀ b ∈ seen, a.IsOpen b) →
      seen.length < bound → EndsAt a root bound seen ⟨.rejected, seen.length⟩
  /-- One more is there, and it is the one that reaches the bound. -/
  | cutOff {depth : Nat} :
    seen.length + 1 = max bound 1 → seen.length < (a.levelOrder depth [root]).length →
      (∀ b ∈ seen, a.IsOpen b) →
      EndsAt a root bound seen ⟨.failed (.boundExceeded bound), seen.length + 1⟩

/-- A traversal that is not cut off ends before the bound. -/
theorem length_visited_lt {bound : Nat} {root : Configuration}
    (h : (a.traverse (bound - 1) [root]).ending ≠ .cutOff) :
    (a.traverse (bound - 1) [root]).visited.length < bound := by
  have le := traverse_length_le (a := a) (bound - 1) [root]
  by_contra not_lt
  have room : bound - 1 = 0 := by omega
  rw [room] at h
  exact h rfl

/-- A traversal from one root ends where a run with that bound has to end. -/
theorem traverse_endsAt (bound : Nat) (root : Configuration) :
    EndsAt a root bound (a.traverse (bound - 1) [root]).visited
      (a.executionOf bound (a.traverse (bound - 1) [root])) := by
  unfold executionOf
  by_cases cut : (a.traverse (bound - 1) [root]).ending = .cutOff
  · obtain ⟨opened, length_eq, more⟩ := traverse_cutOff cut
    rw [queueOrder_eq_take (Nat.le_refl _), List.length_take] at more
    rw [Traversal.taken_of_cutOff cut, cut]
    have beyond : (a.traverse (bound - 1) [root]).visited.length <
        (a.levelOrder (bound - 1 + 1) [root]).length := by omega
    exact EndsAt.cutOff (by omega) beyond opened
  · have lt := length_visited_lt cut
    rw [Traversal.taken_of_ne_cutOff cut]
    cases ending : (a.traverse (bound - 1) [root]).ending with
    | accepted =>
      obtain ⟨before, c, visited, accepting, opened⟩ := traverse_accepted ending
      exact EndsAt.accepted visited accepting opened lt
    | blocked x =>
      obtain ⟨before, c, visited, blocked, opened⟩ := traverse_blocked ending
      exact EndsAt.blocked visited blocked opened lt
    | exhausted =>
      obtain ⟨depth, bottom, visited⟩ := traverse_whole_tree ending
      rw [List.flatMap_singleton] at bottom
      exact EndsAt.exhausted bottom visited (traverse_exhausted ending).1 lt
    | cutOff => exact absurd ending cut

/-- **The search is the level-order traversal of the computation tree.** -/
theorem events_levelOrder (h : a.IsBuilt) (limits : Limits) (input : String) :
    let root := a.initialConfiguration input
    let events := a.events limits input
    (∃ depth, observed events <+: a.levelOrder depth [root]) ∧
      (∀ k, k + 1 < (observed events).length →
        (observed events)[k + 1]? = (moveResults none events)[k]?) ∧
      EndsAt a root limits.maxTransitions (observed events) (a.run limits input) := by
  intro root events
  have events_visited : events = a.course (a.traversalOf limits input).visited :=
    events_eq h.closed limits input
  rw [events_visited, observed_course, moveResults_course, run_eq h.closed]
  refine ⟨⟨_, traverse_prefix_levelOrder _ _⟩, ?_, traverse_endsAt _ _⟩
  intro k hk
  -- the configurations visited are the root and then children of earlier ones
  have in_order := traverse_prefix_children (a := a) (limits.maxTransitions - 1) [root]
  exact (List.getElem?_eq_getElem hk).trans (List.prefix_iff_getElem?.1 in_order (k + 1) hk).symm

theorem events_levelOrder_balanced :
    balanced.IsBuilt ∧ balanced.run ⟨10⟩ "()" = ⟨.accepted, 5⟩ ∧
      (∃ depth, observed (balanced.events ⟨10⟩ "()") <+:
        balanced.levelOrder depth [balanced.initialConfiguration "()"]) ∧
      EndsAt balanced (balanced.initialConfiguration "()") 10
        (observed (balanced.events ⟨10⟩ "()")) (balanced.run ⟨10⟩ "()") := by
  obtain ⟨in_order, -, ends⟩ := events_levelOrder balanced_isBuilt ⟨10⟩ "()"
  exact ⟨balanced_isBuilt, by decide, in_order, ends⟩

end Automaton

end Pushdown
