import Pushdown.Proofs.Search.Bound
import Pushdown.Proofs.Search.Reachability
import Mathlib.Algebra.GroupWithZero.Nat

/-!
# Finite computation trees

A search ends of itself exactly where the tree below its first configuration is finite, and then the
size of the tree is what its bound has to exceed. Sizes are counted along the branches: the first
levels of a tree have one node for the root and, below each child, the nodes of the levels left
(`treeSize`). If no number of levels has more than `size` nodes, then under every bound above
`size`

> `answered_of_treeSize_le`: the run is not cut off, and it counts at most `size` configurations.

Whether an accepting configuration stands in a tree is told along the branches as well
(`acceptsFrom_iff`). `Decides` says both of a configuration: how large its tree is at most, and when
it accepts. It has one rule for each number of children up to two (`Decides.leaf`, `Decides.only`,
`Decides.fork`), so a proof by these rules follows the moves of an automaton, as a run does:

> `verdict_of_decides`: on a word of declared symbols, and under every bound above the size, the run
> accepts or rejects as was decided.
-/

namespace Pushdown.Automaton

variable {a : Automaton} {c d e : Configuration} {size : Nat} {p q : Prop}

/-! ## Sizes -/

/-- How many nodes the first `depth` levels of the tree below a configuration have. -/
def treeSize (a : Automaton) : (depth : Nat) → Configuration → Nat
  | 0, _ => 0
  | depth + 1, c => ((a.children c).map (a.treeSize depth)).sum + 1

/-- The first levels of a forest have the nodes of its trees. -/
theorem length_levelOrder (depth : Nat) (roots : List Configuration) :
    (a.levelOrder depth roots).length = (roots.map (a.treeSize depth)).sum := by
  induction depth generalizing roots with
  | zero => simp [levelOrder, treeSize]
  | succ depth ih =>
    rw [levelOrder_succ, List.length_append, ih]
    clear ih
    induction roots with
    | nil => rfl
    | cons c roots ih =>
      simp only [List.length_cons, List.flatMap_cons, List.map_append, List.sum_append,
        List.map_cons, List.sum_cons, treeSize] at ih ⊢
      omega

theorem length_levelOrder_singleton (depth : Nat) (c : Configuration) :
    (a.levelOrder depth [c]).length = a.treeSize depth c := by
  rw [length_levelOrder, List.map_singleton, List.sum_singleton]

/-- A traversal with room for a whole tree is not cut off, and visits no more than the tree. -/
theorem traverse_of_treeSize_le {limit : Nat} (finite : ∀ depth, a.treeSize depth c ≤ size)
    (room : size ≤ limit) :
    (a.traverse limit [c]).ending ≠ .cutOff ∧ (a.traverse limit [c]).visited.length ≤ size := by
  constructor
  · intro cut
    obtain ⟨-, -, more⟩ := traverse_cutOff cut
    rw [queueOrder_eq_take (Nat.le_refl _), List.length_take] at more
    have within := finite (limit + 1)
    rw [← length_levelOrder_singleton] at within
    omega
  · have within := finite limit
    rw [← length_levelOrder_singleton] at within
    exact Nat.le_trans (traverse_prefix_levelOrder limit [c]).length_le within

/-- Under a bound above the size of its tree a run is not cut off, and takes no more configurations
than the tree has. -/
theorem answered_of_treeSize_le (closed : a.Closed) {input : String} {bound : Nat}
    (finite : ∀ depth, a.treeSize depth (a.initialConfiguration input) ≤ size)
    (room : size < bound) :
    ¬ (a.run ⟨bound⟩ input).IsCutOff ∧ (a.run ⟨bound⟩ input).transitions ≤ size := by
  obtain ⟨not_cut, visited⟩ := traverse_of_treeSize_le finite (Nat.le_sub_one_of_lt room)
  refine ⟨fun cut => not_cut ((isCutOff_run_iff closed).1 cut), ?_⟩
  rw [(transitions_run closed not_cut).1]
  exact visited

/-! ## Acceptance -/

/-- An accepting configuration can be reached. -/
def AcceptsFrom (a : Automaton) (c : Configuration) : Prop := ∃ d, a.Reaches c d ∧ d.IsAccepting

theorem acceptsFrom_iff :
    a.AcceptsFrom c ↔ c.IsAccepting ∨ ∃ d ∈ a.children c, a.AcceptsFrom d := by
  constructor
  · intro h
    obtain ⟨e, reached, accepting⟩ := h
    rcases Relation.ReflTransGen.cases_head reached with rfl | ⟨d, step, rest⟩
    · exact Or.inl accepting
    · exact Or.inr ⟨d, step.mem_children, e, rest, accepting⟩
  · intro h
    rcases h with accepting | ⟨d, child, e, rest, accepting⟩
    · exact ⟨c, Relation.ReflTransGen.refl, accepting⟩
    · exact ⟨e, Relation.ReflTransGen.head (step_of_mem_children child) rest, accepting⟩

/-- What has a child is not accepting. -/
theorem not_isAccepting_of_mem_children (h : d ∈ a.children c) : ¬ c.IsAccepting := by
  intro accepting
  rw [children, successors_of_isAccepting accepting] at h
  exact List.not_mem_nil h

/-! ## Deciding -/

/-- The tree below a configuration has at most `size` nodes, and one of them is accepting exactly
if `p` holds. -/
structure Decides (a : Automaton) (c : Configuration) (size : Nat) (p : Prop) : Prop where
  size_le : ∀ depth, a.treeSize depth c ≤ size
  acceptsFrom_iff : a.AcceptsFrom c ↔ p

namespace Decides

variable {more : Nat}

theorem mono (h : a.Decides c size p) (le : size ≤ more) (same : p ↔ q) : a.Decides c more q where
  size_le depth := Nat.le_trans (h.size_le depth) le
  acceptsFrom_iff := h.acceptsFrom_iff.trans same

/-- A node without children is all of its tree. -/
theorem leaf (none : a.children c = []) : a.Decides c 1 c.IsAccepting where
  size_le depth := by
    cases depth with
    | zero => exact Nat.zero_le 1
    | succ depth =>
      rw [treeSize, none]
      exact Nat.le_refl 1
  acceptsFrom_iff := by
    rw [Automaton.acceptsFrom_iff, none]
    simp

/-- With an empty stack all depends on whether the input is used up. -/
theorem emptied (empty : c.stack.symbols = []) : a.Decides c 1 (c.input = []) := by
  have none : a.children c = [] := by rw [children, successors, empty, List.map_nil]
  exact (leaf none).mono (Nat.le_refl 1) (and_iff_left empty)

/-- With something on the stack and no move to make there is no way to accept. -/
theorem stuck (stack : c.stack.symbols ≠ []) (none : a.children c = []) : a.Decides c 1 False :=
  (leaf none).mono (Nat.le_refl 1) (iff_false_intro fun h => stack h.2)

/-- A node with one child accepts as the child does. -/
theorem only (one : a.children c = [d]) (h : a.Decides d size p) : a.Decides c (size + 1) p where
  size_le depth := by
    cases depth with
    | zero => exact Nat.zero_le _
    | succ depth =>
      rw [treeSize, one, List.map_singleton, List.sum_singleton]
      exact Nat.succ_le_succ (h.size_le depth)
  acceptsFrom_iff := by
    have opened := not_isAccepting_of_mem_children (one ▸ List.mem_cons_self ..)
    rw [Automaton.acceptsFrom_iff, or_iff_right opened, one, ← h.acceptsFrom_iff]
    simp

/-- A node with two children accepts as either child does. -/
theorem fork (two : a.children c = [d, e]) (h : a.Decides d size p) (h' : a.Decides e more q) :
    a.Decides c (size + more + 1) (p ∨ q) where
  size_le depth := by
    cases depth with
    | zero => exact Nat.zero_le _
    | succ depth =>
      rw [treeSize, two, List.map_cons, List.sum_cons, List.map_singleton, List.sum_singleton]
      exact Nat.succ_le_succ (Nat.add_le_add (h.size_le depth) (h'.size_le depth))
  acceptsFrom_iff := by
    have opened := not_isAccepting_of_mem_children (two ▸ List.mem_cons_self ..)
    rw [Automaton.acceptsFrom_iff, or_iff_right opened, two, ← h.acceptsFrom_iff,
      ← h'.acceptsFrom_iff]
    simp

end Decides

/-- On a tape of declared symbols nothing blocked can be reached. -/
theorem not_isBlockedOn_of_declared {x : Symbol} (declared : ∀ y ∈ c.input, y ∈ a.inputAlphabet)
    (reached : a.Reaches c d) : ¬ a.IsBlockedOn d x := by
  intro blocked
  obtain ⟨read, rest, input_eq, -, unread⟩ := reached.first_unread blocked
  have on_tape : x ∈ c.input := by
    rw [input_eq]
    exact List.mem_append_right _ (List.mem_cons_self ..)
  exact unread (Or.inr (declared x on_tape))

/-- A run on a word of declared symbols gives the verdict that its first configuration decides, if
its bound is above the size of the tree. -/
theorem verdict_of_decides (closed : a.Closed) {w : List Symbol} {bound : Nat}
    (declared : ∀ x ∈ w, x ∈ a.inputAlphabet)
    (h : a.Decides ⟨a.initialState, w, ⟨a.stackAlphabet, [a.initialSymbol]⟩⟩ size p)
    (room : size < bound) :
    (p → (a.run ⟨bound⟩ (Symbol.toText w)).verdict = .accepted) ∧
      (¬ p → (a.run ⟨bound⟩ (Symbol.toText w)).verdict = .rejected) := by
  have root : a.initialConfiguration (Symbol.toText w) =
      ⟨a.initialState, w, ⟨a.stackAlphabet, [a.initialSymbol]⟩⟩ := by
    rw [initialConfiguration, Symbol.ofText_toText]
  obtain ⟨not_cut, -⟩ := traverse_of_treeSize_le h.size_le (Nat.le_sub_one_of_lt room)
  rw [verdict_eq closed, root, ← h.acceptsFrom_iff]
  cases ending : (a.traverse (bound - 1) [_]).ending with
  | accepted =>
    exact ⟨fun _ => rfl, fun never => absurd (reaches_of_accepted ending) never⟩
  | blocked x =>
    obtain ⟨b, reached, blocked⟩ := reaches_of_blocked ending
    exact absurd blocked (not_isBlockedOn_of_declared declared reached)
  | exhausted =>
    refine ⟨fun accepts => ?_, fun _ => rfl⟩
    obtain ⟨b, reached, accepting⟩ := accepts
    exact absurd accepting (isOpen_of_exhausted ending reached).1
  | cutOff => exact absurd ending not_cut

end Pushdown.Automaton
