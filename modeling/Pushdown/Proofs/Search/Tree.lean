import Pushdown.Proofs.Builder.Closed
import Pushdown.Search

/-!
# The computation tree

A configuration and what can become of it form a tree. The children of a node are, in stored order,
the outcomes under the next symbol and the stack top, with that symbol removed, and after them, if
the next symbol is there and is not the empty one, the outcomes under the empty symbol, with the
input as it was (`Automaton.successors`). A node with an empty stack is a leaf, and so is one that
is blocked: whose next symbol is neither empty nor declared.

The search looks at nodes through `Automaton.examine`, which pushes symbol by symbol and may be
refused. In a closed automaton it never is:

> `examine_eq`: what `examine` says of a node over the stack alphabet is told by the tree alone:
> accepting, blocked, or its successors, none refused.

`level` lists the nodes of one depth from left to right, and `levelOrder` those of the first depths,
level by level. More levels only add nodes at the end (`levelOrder_mono`), and

> `length_levelOrder_le`: below a level without nodes there is nothing to add.
-/

namespace Pushdown

/-- The input is used up and the stack is empty. -/
def Configuration.IsAccepting (c : Configuration) : Prop := c.input = [] ∧ c.stack.symbols = []

instance (c : Configuration) : Decidable c.IsAccepting :=
  inferInstanceAs (Decidable (_ ∧ _))

namespace Automaton

/-- Something is on the stack, but the next symbol is neither empty nor declared. -/
def IsBlockedOn (a : Automaton) (c : Configuration) (x : Symbol) : Prop :=
  c.stack.symbols ≠ [] ∧ c.input.head? = some x ∧ x ≠ Symbol.epsilon ∧ ¬ x ∈ a.inputAlphabet

/-- The symbol that a configuration is blocked on, if it is blocked. -/
def blockedOn? (a : Automaton) (c : Configuration) : Option Symbol :=
  if c.stack.symbols = [] then none
  else c.input.head?.filter fun x => !x.isEpsilon && !a.inputAlphabet.contains x

/-- Neither accepting nor blocked: a search goes on from here. -/
def IsOpen (a : Automaton) (c : Configuration) : Prop :=
  ¬ c.IsAccepting ∧ ∀ x, ¬ a.IsBlockedOn c x

/-- The successors of a configuration that one key gives, in stored order, when `below` is what is
under the stack top and `rest` is the input left. -/
def successorsUnder (a : Automaton) (c : Configuration) (consumed top : Symbol)
    (below rest : List Symbol) : List Successor :=
  (a.outcomes c.state consumed top).map fun o =>
    ⟨⟨c.state, consumed, top, o.target, o.push⟩,
      ⟨o.target, rest, { c.stack with symbols := Symbol.withoutEpsilon o.push ++ below }⟩⟩

/-- The moves from a configuration and where they lead, in order. -/
def successors (a : Automaton) (c : Configuration) : List Successor :=
  match c.stack.symbols, c.input with
  | [], _ => []
  | top :: below, [] => a.successorsUnder c Symbol.epsilon top below []
  | top :: below, x :: rest =>
    if x = Symbol.epsilon then a.successorsUnder c Symbol.epsilon top below rest
    else if x ∈ a.inputAlphabet then
      a.successorsUnder c x top below rest ++
        a.successorsUnder c Symbol.epsilon top below (x :: rest)
    else []

/-- The children of a configuration in the computation tree, in order. -/
def children (a : Automaton) (c : Configuration) : List Configuration :=
  (a.successors c).map (·.configuration)

/-- The nodes at one depth below a node, from left to right. -/
def level (a : Automaton) : (depth : Nat) → Configuration → List Configuration
  | 0, c => [c]
  | depth + 1, c => (a.children c).flatMap (a.level depth)

/-- The nodes of the first `depth` levels of the trees below some roots, level by level. -/
def levelOrder (a : Automaton) (depth : Nat) (roots : List Configuration) : List Configuration :=
  (List.range depth).flatMap fun d => roots.flatMap (a.level d)

variable {a : Automaton} {c : Configuration}

/-! ## Leaves -/

theorem successors_of_isAccepting (h : c.IsAccepting) : a.successors c = [] := by
  simp [successors, h.2]

theorem successors_of_isBlockedOn {x : Symbol} (h : a.IsBlockedOn c x) : a.successors c = [] := by
  obtain ⟨stack_ne, next, proper, undeclared⟩ := h
  obtain ⟨top, below, hs⟩ := List.exists_cons_of_ne_nil stack_ne
  obtain ⟨rest, hi⟩ := List.head?_eq_some_iff.1 next
  simp only [successors, hs, hi, if_neg proper, if_neg undeclared]

theorem not_isAccepting_of_isBlockedOn {x : Symbol} (h : a.IsBlockedOn c x) :
    ¬ c.IsAccepting := fun accepting => h.1 accepting.2

theorem blockedOn?_eq_some_iff {x : Symbol} : a.blockedOn? c = some x ↔ a.IsBlockedOn c x := by
  unfold blockedOn? IsBlockedOn
  by_cases empty : c.stack.symbols = []
  · simp [empty]
  · have declared : a.inputAlphabet.contains x = false ↔ ¬ x ∈ a.inputAlphabet := by
      rw [← Alphabet.contains_iff, Bool.not_eq_true]
    rw [if_neg empty, Option.filter_eq_some_iff]
    simp [empty, Symbol.isEpsilon, declared]

theorem isOpen_iff : a.IsOpen c ↔ ¬ c.IsAccepting ∧ a.blockedOn? c = none := by
  rw [Option.eq_none_iff_forall_ne_some]
  simp only [IsOpen, ne_eq, blockedOn?_eq_some_iff]

/-! ## Examining a node -/

/-- Children keep the alphabet of the stack. -/
theorem alphabet_of_mem_children {d : Configuration} (h : d ∈ a.children c) :
    d.stack.alphabet = c.stack.alphabet := by
  have under : ∀ {consumed top below rest} {s : Successor},
      s ∈ a.successorsUnder c consumed top below rest →
        s.configuration.stack.alphabet = c.stack.alphabet := by
    intro consumed top below rest s hs
    obtain ⟨o, -, rfl⟩ := List.mem_map.1 hs
    rfl
  obtain ⟨s, hs, rfl⟩ := List.mem_map.1 h
  unfold successors at hs
  split at hs
  next => exact absurd hs List.not_mem_nil
  next => exact under hs
  next =>
    split at hs
    next => exact under hs
    next =>
      split at hs
      next => exact (List.mem_append.1 hs).elim under under
      next => exact absurd hs List.not_mem_nil

/-- Outcomes whose pushes are all declared give one successor each, and none is refused. -/
theorem expand_of_declared {state : StateId} {consumed top : Symbol} {stack : Stack}
    {rest : List Symbol} {outcomes : List Transition.Outcome}
    (h : ∀ o ∈ outcomes, ∀ s ∈ o.push, s ≠ Symbol.epsilon → s ∈ stack.alphabet) :
    expand state consumed top stack rest outcomes =
      (outcomes.map fun o =>
        ⟨⟨state, consumed, top, o.target, o.push⟩, ⟨o.target, rest,
          { stack with symbols := Symbol.withoutEpsilon o.push ++ stack.symbols }⟩⟩,
        none) := by
  induction outcomes with
  | nil => rfl
  | cons o others ih =>
    have others_declared := ih fun p hp => h p (List.mem_cons_of_mem _ hp)
    have pushed := Stack.pushAll_of_declared (h o (List.mem_cons_self ..))
    simp only [expand, pushed, others_declared, List.map_cons]

/-- A closed automaton reads its outcomes into successors, refusing none. -/
theorem readMoves_eq (closed : a.Closed) (shared : c.stack.alphabet = a.stackAlphabet)
    (consumed top : Symbol) (below rest : List Symbol) :
    a.readMoves c.state consumed top { c.stack with symbols := below } rest =
      (a.successorsUnder c consumed top below rest, none) := by
  refine expand_of_declared fun o ho s hs proper => ?_
  show s ∈ c.stack.alphabet
  rw [shared]
  exact closed.push_declared ho s hs proper

/-- What `examine` says of a node, told by the tree. -/
theorem examine_eq (closed : a.Closed) (shared : c.stack.alphabet = a.stackAlphabet) :
    (c.IsAccepting ∧ a.examine c = .accepting) ∨
    (∃ x, a.IsBlockedOn c x ∧ a.examine c = .undeclared x) ∨
    (a.IsOpen c ∧ a.examine c = .moves (a.successors c) none) := by
  obtain ⟨state, input, alphabet, symbols⟩ := c
  have reads := readMoves_eq (c := ⟨state, input, alphabet, symbols⟩) closed shared
  simp only at reads
  cases symbols with
  | nil =>
    cases input with
    | nil => exact Or.inl ⟨⟨rfl, rfl⟩, rfl⟩
    | cons x rest =>
      exact Or.inr (Or.inr ⟨⟨fun h => List.cons_ne_nil _ _ h.1, fun _ h => h.1 rfl⟩, rfl⟩)
  | cons top below =>
    have not_accepting : ¬ Configuration.IsAccepting ⟨state, input, alphabet, top :: below⟩ :=
      fun h => nomatch h.2
    cases input with
    | nil =>
      refine Or.inr (Or.inr ⟨⟨not_accepting, fun _ h => nomatch h.2.1⟩, ?_⟩)
      simp only [examine, Stack.pop?, reads, successors]
    | cons x rest =>
      by_cases hx : x = Symbol.epsilon
      · have never_blocked : ∀ y,
            ¬ a.IsBlockedOn ⟨state, x :: rest, alphabet, top :: below⟩ y := by
          intro y h
          obtain ⟨-, next, proper, -⟩ := h
          exact proper ((Option.some.inj next).symm.trans hx)
        refine Or.inr (Or.inr ⟨⟨not_accepting, never_blocked⟩, ?_⟩)
        simp only [examine, Stack.pop?, hx, Symbol.isEpsilon_iff, if_true, reads, successors]
      · by_cases declared : x ∈ a.inputAlphabet
        · have never_blocked : ∀ y,
              ¬ a.IsBlockedOn ⟨state, x :: rest, alphabet, top :: below⟩ y := by
            intro y h
            obtain ⟨-, next, -, undeclared⟩ := h
            exact undeclared (Option.some.inj next ▸ declared)
          refine Or.inr (Or.inr ⟨⟨not_accepting, never_blocked⟩, ?_⟩)
          simp only [examine, Stack.pop?, Symbol.isEpsilon_iff, Alphabet.contains_iff, if_neg hx,
            if_pos declared, reads, successors]
        · refine Or.inr (Or.inl ⟨x, ⟨List.cons_ne_nil _ _, rfl, hx, declared⟩, ?_⟩)
          simp only [examine, Stack.pop?, Symbol.isEpsilon_iff, Alphabet.contains_iff, if_neg hx,
            if_neg declared]

/-! ## Levels -/

/-- The first level of a forest is its roots; the others are the levels of the forest below. -/
theorem levelOrder_succ (depth : Nat) (roots : List Configuration) :
    a.levelOrder (depth + 1) roots = roots ++ a.levelOrder depth (roots.flatMap a.children) := by
  unfold levelOrder
  rw [List.range_succ_eq_map, List.flatMap_cons, List.flatMap_map]
  congr 1
  · exact List.flatMap_singleton' roots
  · simp only [level, List.flatMap_assoc]

/-- A depth without nodes has none below it. -/
theorem level_succ_eq_nil {depth : Nat} {roots : List Configuration}
    (h : roots.flatMap (a.level depth) = []) : roots.flatMap (a.level (depth + 1)) = [] := by
  induction depth generalizing roots with
  | zero =>
    have none_left : roots = [] := by simpa [level] using h
    simp [none_left]
  | succ depth ih =>
    have below : roots.flatMap (a.level (depth + 1 + 1)) =
        (roots.flatMap a.children).flatMap (a.level (depth + 1)) := by
      simp only [level, List.flatMap_assoc]
    rw [below]
    refine ih ?_
    simpa only [level, List.flatMap_assoc] using h

/-- Levels that are not empty have a node each. -/
theorem le_length_levelOrder {depth : Nat} {roots : List Configuration}
    (h : roots.flatMap (a.level depth) ≠ []) : depth ≤ (a.levelOrder depth roots).length := by
  induction depth generalizing roots with
  | zero => exact Nat.zero_le _
  | succ depth ih =>
    have roots_ne : roots ≠ [] := by
      rintro rfl
      exact h rfl
    have below : (roots.flatMap a.children).flatMap (a.level depth) ≠ [] := by
      simpa only [level, List.flatMap_assoc] using h
    have := ih below
    have := List.length_pos_iff.2 roots_ne
    rw [levelOrder_succ, List.length_append]
    omega

theorem levelOrder_nil (depth : Nat) : a.levelOrder depth [] = [] := by
  simp [levelOrder]

/-- More levels only add nodes at the end. -/
theorem levelOrder_mono {depth deeper : Nat} (h : depth ≤ deeper) (line : List Configuration) :
    a.levelOrder depth line <+: a.levelOrder deeper line := by
  obtain ⟨more, rfl⟩ := Nat.exists_eq_add_of_le h
  unfold levelOrder
  rw [List.range_add, List.flatMap_append]
  exact List.prefix_append _ _

/-- Below a level without nodes there is nothing. -/
theorem level_eq_nil_of_le {depth deeper : Nat} {roots : List Configuration}
    (h : roots.flatMap (a.level depth) = []) (le : depth ≤ deeper) :
    roots.flatMap (a.level deeper) = [] := by
  induction le with
  | refl => exact h
  | step _ ih => exact level_succ_eq_nil ih

/-- A finite tree has as many nodes as the levels before an empty one. -/
theorem length_levelOrder_le {depth : Nat} {roots : List Configuration}
    (h : roots.flatMap (a.level depth) = []) (other : Nat) :
    (a.levelOrder other roots).length ≤ (a.levelOrder depth roots).length := by
  rcases Nat.le_total other depth with le | ge
  · exact (levelOrder_mono le roots).length_le
  · obtain ⟨more, rfl⟩ := Nat.exists_eq_add_of_le ge
    have beyond : (List.range more).flatMap
        (fun d => roots.flatMap (a.level (depth + d))) = [] :=
      List.flatMap_eq_nil_iff.2 fun d _ => level_eq_nil_of_le h (Nat.le_add_right depth d)
    have same : a.levelOrder (depth + more) roots = a.levelOrder depth roots := by
      unfold levelOrder
      rw [List.range_add, List.flatMap_append, List.flatMap_map, beyond, List.append_nil]
    exact Nat.le_of_eq (congrArg List.length same)

end Automaton

end Pushdown
