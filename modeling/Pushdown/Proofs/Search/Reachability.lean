import Pushdown.Proofs.Search.LevelOrder
import Mathlib.Logic.Relation

/-!
# The search is sound and complete

`Automaton.Step` is the move relation of an automaton, said without queues and lists: reading the
next symbol, if it is the empty symbol or declared, under that symbol, or reading nothing, under the
empty symbol, where the next symbol is declared or the input used up. Its steps lead to the children
of the computation tree (`step_iff_mem_children`), so what can be reached is what stands on some
level (`reaches_iff_mem_level`).

Every symbol that a computation has read was empty or declared (`Reaches.read`). Hence a
configuration that is blocked and one that is accepting are never both reachable
(`not_isAccepting_of_blocked`), and all that are blocked are blocked on one symbol
(`blocked_unique`): the order in which the search comes upon them does not matter.

> `run_sound_complete`: the verdict of a run tells what is reachable, whatever the bound; and an
> accepting configuration, a blocked one, or the end of all computations is found at every bound
> that is large enough.
-/

namespace Pushdown.Automaton

variable {a : Automaton} {root c d : Configuration}

/-- A symbol that a move may read: the empty one, or one of the input alphabet. -/
def Reads (a : Automaton) (x : Symbol) : Prop := x = Symbol.epsilon ∨ x ∈ a.inputAlphabet

/-- The moves of an automaton. -/
inductive Step (a : Automaton) : Configuration → Configuration → Prop where
  /-- The next symbol is read, under that symbol. -/
  | reading {q : StateId} {x top : Symbol} {rest below : List Symbol} {alphabet : Alphabet}
      {o : Transition.Outcome} :
    a.Reads x → o ∈ a.outcomes q x top →
      Step a ⟨q, x :: rest, ⟨alphabet, top :: below⟩⟩
        ⟨o.target, rest, ⟨alphabet, Symbol.withoutEpsilon o.push ++ below⟩⟩
  /-- Nothing is read, under the empty symbol. -/
  | spontaneous {q : StateId} {top : Symbol} {input below : List Symbol} {alphabet : Alphabet}
      {o : Transition.Outcome} :
    (∀ x, input.head? = some x → x ∈ a.inputAlphabet ∧ x ≠ Symbol.epsilon) →
      o ∈ a.outcomes q Symbol.epsilon top →
      Step a ⟨q, input, ⟨alphabet, top :: below⟩⟩
        ⟨o.target, input, ⟨alphabet, Symbol.withoutEpsilon o.push ++ below⟩⟩

/-- Some moves, or none, lead from one configuration to another. -/
def Reaches (a : Automaton) : Configuration → Configuration → Prop :=
  Relation.ReflTransGen a.Step

/-! ## Steps and levels -/

/-- The children that one key gives. -/
theorem mem_successorsUnder_iff {consumed top : Symbol} {below rest : List Symbol} :
    d ∈ (a.successorsUnder c consumed top below rest).map (·.configuration) ↔
      ∃ o ∈ a.outcomes c.state consumed top,
        d = ⟨o.target, rest, ⟨c.stack.alphabet, Symbol.withoutEpsilon o.push ++ below⟩⟩ := by
  simp only [successorsUnder, List.map_map, List.mem_map, Function.comp_def]
  exact ⟨fun ⟨o, ho, e⟩ => ⟨o, ho, e.symm⟩, fun ⟨o, ho, e⟩ => ⟨o, ho, e.symm⟩⟩

theorem Step.mem_children (h : a.Step c d) : d ∈ a.children c := by
  cases h with
  | @reading q x top rest below alphabet o readable ho =>
    by_cases hx : x = Symbol.epsilon
    · subst hx
      simp only [children, successors, if_pos]
      exact mem_successorsUnder_iff.2 ⟨o, ho, rfl⟩
    · have declared : x ∈ a.inputAlphabet := readable.resolve_left hx
      simp only [children, successors, if_neg hx, if_pos declared, List.map_append]
      exact List.mem_append_left _ (mem_successorsUnder_iff.2 ⟨o, ho, rfl⟩)
  | @spontaneous q top input below alphabet o next ho =>
    cases input with
    | nil => exact mem_successorsUnder_iff.2 ⟨o, ho, rfl⟩
    | cons x rest =>
      obtain ⟨declared, hx⟩ := next x rfl
      simp only [children, successors, if_neg hx, if_pos declared, List.map_append]
      exact List.mem_append_right _ (mem_successorsUnder_iff.2 ⟨o, ho, rfl⟩)

theorem step_of_mem_children (h : d ∈ a.children c) : a.Step c d := by
  obtain ⟨q, input, alphabet, symbols⟩ := c
  cases symbols with
  | nil => exact absurd h List.not_mem_nil
  | cons top below =>
    cases input with
    | nil =>
      obtain ⟨o, ho, rfl⟩ := mem_successorsUnder_iff.1 h
      exact Step.spontaneous (fun x hx => nomatch hx) ho
    | cons x rest =>
      by_cases hx : x = Symbol.epsilon
      · simp only [children, successors, if_pos hx] at h
        obtain ⟨o, ho, rfl⟩ := mem_successorsUnder_iff.1 h
        exact Step.reading (Or.inl hx) (hx ▸ ho)
      · by_cases declared : x ∈ a.inputAlphabet
        · simp only [children, successors, if_neg hx, if_pos declared, List.map_append] at h
          rcases List.mem_append.1 h with h | h
          · obtain ⟨o, ho, rfl⟩ := mem_successorsUnder_iff.1 h
            exact Step.reading (Or.inr declared) ho
          · obtain ⟨o, ho, rfl⟩ := mem_successorsUnder_iff.1 h
            refine Step.spontaneous (fun y hy => ?_) ho
            obtain rfl := Option.some.inj hy
            exact ⟨declared, hx⟩
        · simp only [children, successors, if_neg hx, if_neg declared] at h
          exact absurd h List.not_mem_nil

/-- The steps of an automaton lead to the children of the computation tree. -/
theorem step_iff_mem_children : a.Step c d ↔ d ∈ a.children c :=
  ⟨Step.mem_children, step_of_mem_children⟩

/-- What can be reached is what stands on some level of the tree. -/
theorem reaches_iff_mem_level : a.Reaches root c ↔ ∃ depth, c ∈ a.level depth root := by
  constructor
  · intro h
    induction h using Relation.ReflTransGen.head_induction_on with
    | refl => exact ⟨0, List.mem_singleton_self _⟩
    | head step _ ih =>
      obtain ⟨depth, hc⟩ := ih
      exact ⟨depth + 1, List.mem_flatMap.2 ⟨_, step.mem_children, hc⟩⟩
  · intro h
    obtain ⟨depth, hc⟩ := h
    induction depth generalizing root with
    | zero =>
      rw [List.mem_singleton.1 hc]
      exact Relation.ReflTransGen.refl
    | succ depth ih =>
      obtain ⟨child, hchild, hc⟩ := List.mem_flatMap.1 hc
      exact Relation.ReflTransGen.head (step_of_mem_children hchild) (ih hc)

theorem mem_levelOrder_iff {depth : Nat} :
    c ∈ a.levelOrder depth [root] ↔ ∃ d < depth, c ∈ a.level d root := by
  simp [levelOrder, List.mem_flatMap]

theorem reaches_of_mem_levelOrder {depth : Nat} (h : c ∈ a.levelOrder depth [root]) :
    a.Reaches root c := by
  obtain ⟨d, -, hc⟩ := mem_levelOrder_iff.1 h
  exact reaches_iff_mem_level.2 ⟨d, hc⟩

theorem reaches_of_mem_visited {limit : Nat} (h : c ∈ (a.traverse limit [root]).visited) :
    a.Reaches root c :=
  reaches_of_mem_levelOrder ((traverse_prefix_levelOrder limit [root]).subset h)

/-! ## What a computation has read -/

/-- A computation has read symbols that are empty or declared, and has the rest still to read. -/
theorem Reaches.read (h : a.Reaches root c) :
    ∃ read, root.input = read ++ c.input ∧ ∀ x ∈ read, a.Reads x := by
  induction h using Relation.ReflTransGen.head_induction_on with
  | refl => exact ⟨[], rfl, fun x hx => absurd hx List.not_mem_nil⟩
  | head step _ ih =>
    obtain ⟨read, rest, all_read⟩ := ih
    cases step with
    | @reading _ x _ _ _ _ _ readable _ =>
      exact ⟨x :: read, congrArg (x :: ·) rest, List.forall_mem_cons.2 ⟨readable, all_read⟩⟩
    | spontaneous _ _ => exact ⟨read, rest, all_read⟩

/-- The symbol that a reachable configuration is blocked on is the first of the input that cannot
be read. -/
theorem Reaches.first_unread {x : Symbol} (h : a.Reaches root c) (blocked : a.IsBlockedOn c x) :
    ∃ read rest, root.input = read ++ x :: rest ∧ (∀ y ∈ read, a.Reads y) ∧ ¬ a.Reads x := by
  obtain ⟨read, input_eq, all_read⟩ := h.read
  obtain ⟨-, next, proper, undeclared⟩ := blocked
  obtain ⟨rest, hr⟩ := List.head?_eq_some_iff.1 next
  exact ⟨read, rest, hr ▸ input_eq, all_read, fun readable => readable.elim proper undeclared⟩

/-- Where something blocked can be reached, nothing accepting can. -/
theorem not_isAccepting_of_blocked {x : Symbol} (hc : a.Reaches root c)
    (blocked : a.IsBlockedOn c x) (hd : a.Reaches root d) : ¬ d.IsAccepting := by
  intro h
  obtain ⟨used_up, -⟩ := h
  obtain ⟨read, rest, input_eq, -, unread⟩ := hc.first_unread blocked
  obtain ⟨all, whole, all_read⟩ := hd.read
  rw [used_up, List.append_nil] at whole
  refine unread (all_read x ?_)
  rw [← whole, input_eq]
  exact List.mem_append_right _ (List.mem_cons_self ..)

/-- A tape has one first symbol that cannot be read. -/
theorem first_unread_unique {before before' after after' : List Symbol} {x y : Symbol}
    (all_before : ∀ z ∈ before, a.Reads z) (unread_x : ¬ a.Reads x)
    (all_before' : ∀ z ∈ before', a.Reads z) (unread_y : ¬ a.Reads y)
    (same : before ++ x :: after = before' ++ y :: after') : x = y := by
  -- the two places are the same, or one is among the symbols read before the other
  rcases List.append_eq_append_iff.1 same with ⟨between, hb, ht⟩ | ⟨between, hb, ht⟩
  · cases between with
    | nil => exact (List.cons.inj ht).1
    | cons z between =>
      obtain ⟨rfl, -⟩ := List.cons.inj ht
      exact absurd (all_before' x (by simp [hb])) unread_x
  · cases between with
    | nil => exact (List.cons.inj ht).1.symm
    | cons z between =>
      obtain ⟨rfl, -⟩ := List.cons.inj ht
      exact absurd (all_before y (by simp [hb])) unread_y

/-- Whatever is blocked is blocked on the same symbol. -/
theorem blocked_unique {x y : Symbol} (hc : a.Reaches root c) (hx : a.IsBlockedOn c x)
    (hd : a.Reaches root d) (hy : a.IsBlockedOn d y) : x = y := by
  obtain ⟨before, after, input_eq, all_before, unread_x⟩ := hc.first_unread hx
  obtain ⟨before', after', input_eq', all_before', unread_y⟩ := hd.first_unread hy
  exact first_unread_unique all_before unread_x all_before' unread_y
    (input_eq.symm.trans input_eq')

/-! ## Bounds that are large enough -/

/-- If a configuration that is not open can be reached, every traversal with enough room ends at
one. -/
theorem exists_room_of_not_isOpen (hc : a.Reaches root c) (final : ¬ a.IsOpen c) :
    ∃ room, ∀ limit, room ≤ limit → (a.traverse limit [root]).ending = .accepted ∨
      ∃ x, (a.traverse limit [root]).ending = .blocked x := by
  obtain ⟨depth, hd⟩ := reaches_iff_mem_level.1 hc
  have hc : c ∈ a.levelOrder (depth + 1) [root] :=
    mem_levelOrder_iff.2 ⟨depth, Nat.lt_succ_self depth, hd⟩
  refine ⟨(a.levelOrder (depth + 1) [root]).length, fun limit room => ?_⟩
  cases ending : (a.traverse limit [root]).ending with
  | accepted => exact Or.inl rfl
  | blocked x => exact Or.inr ⟨x, rfl⟩
  | exhausted =>
    have visited := mem_visited_of_mem_levelOrder room (Or.inl ending) hc
    exact absurd ((traverse_exhausted ending).1 c visited) final
  | cutOff =>
    have visited := mem_visited_of_mem_levelOrder room (Or.inr ending) hc
    exact absurd ((traverse_cutOff ending).1 c visited) final

/-- A tree in which every computation ends has a level without nodes. -/
theorem exists_level_eq_nil (h : Acc (fun d c => a.Step c d) root) :
    ∃ depth, a.level depth root = [] := by
  induction h with
  | intro c _ ih =>
    have children_end : ∀ nodes : List Configuration, (∀ d ∈ nodes, a.Step c d) →
        ∃ depth, nodes.flatMap (a.level depth) = [] := by
      intro nodes
      induction nodes with
      | nil => exact fun _ => ⟨0, rfl⟩
      | cons d nodes ih_nodes =>
        intro steps
        obtain ⟨step, steps⟩ := List.forall_mem_cons.1 steps
        obtain ⟨depth, hd⟩ := ih d step
        obtain ⟨others, ho⟩ := ih_nodes steps
        refine ⟨max depth others, ?_⟩
        rw [← List.flatMap_singleton (a.level depth) d] at hd
        have first := level_eq_nil_of_le hd (Nat.le_max_left depth others)
        rw [List.flatMap_singleton] at first
        rw [List.flatMap_cons, first, level_eq_nil_of_le ho (Nat.le_max_right depth others)]
        rfl
    obtain ⟨depth, below⟩ := children_end (a.children c) fun d hd => step_of_mem_children hd
    exact ⟨depth + 1, below⟩

/-- A finite tree of open nodes is visited whole where there is room for it. -/
theorem exhausted_of_finite {limit depth : Nat} (bottom : a.level depth root = [])
    (opened : ∀ c, a.Reaches root c → a.IsOpen c)
    (room : (a.levelOrder depth [root]).length ≤ limit) :
    (a.traverse limit [root]).ending = .exhausted ∧
      (a.traverse limit [root]).visited.length = (a.levelOrder depth [root]).length := by
  rw [← List.flatMap_singleton (a.level depth) root] at bottom
  have ending : (a.traverse limit [root]).ending = .exhausted := by
    cases ending : (a.traverse limit [root]).ending with
    | accepted =>
      obtain ⟨before, c, visited, accepting, -⟩ := traverse_accepted ending
      have reached : a.Reaches root c := reaches_of_mem_visited (by rw [visited]; simp)
      exact absurd accepting (opened c reached).1
    | blocked x =>
      obtain ⟨before, c, visited, blocked, -⟩ := traverse_blocked ending
      have reached : a.Reaches root c := reaches_of_mem_visited (by rw [visited]; simp)
      exact absurd blocked ((opened c reached).2 x)
    | exhausted => rfl
    | cutOff =>
      obtain ⟨-, -, more⟩ := traverse_cutOff ending
      rw [queueOrder_eq_take (Nat.le_refl _), List.length_take] at more
      have bounded := length_levelOrder_le bottom (limit + 1)
      omega
  refine ⟨ending, ?_⟩
  obtain ⟨other, bottom', visited⟩ := traverse_whole_tree ending
  rw [visited]
  exact Nat.le_antisymm (length_levelOrder_le bottom other) (length_levelOrder_le bottom' depth)

/-- If every computation ends and nothing but open configurations can be reached, every traversal
with enough room runs out of nodes. -/
theorem exists_room_of_acc (ends : Acc (fun d c => a.Step c d) root)
    (opened : ∀ c, a.Reaches root c → a.IsOpen c) :
    ∃ room, ∀ limit, room ≤ limit → (a.traverse limit [root]).ending = .exhausted := by
  obtain ⟨depth, bottom⟩ := exists_level_eq_nil ends
  exact ⟨_, fun limit room => (exhausted_of_finite bottom opened room).1⟩

/-! ## Verdicts -/

/-- The verdict of a run tells how its traversal ended. -/
theorem verdict_eq (closed : a.Closed) (bound : Nat) (input : String) :
    (a.run ⟨bound⟩ input).verdict =
      a.verdictOf bound (a.traverse (bound - 1) [a.initialConfiguration input]).ending := by
  rw [run_eq closed]
  rfl

/-- A verdict tells one ending from another. -/
theorem verdictOf_inj {bound : Nat} {e f : Ending} (h : a.verdictOf bound e = a.verdictOf bound f) :
    e = f := by
  cases e <;> cases f <;> simp_all [verdictOf]

/-- An accepting traversal has reached an accepting configuration. -/
theorem reaches_of_accepted {limit : Nat} (h : (a.traverse limit [root]).ending = .accepted) :
    ∃ c, a.Reaches root c ∧ c.IsAccepting := by
  obtain ⟨before, c, visited, accepting, -⟩ := traverse_accepted h
  exact ⟨c, reaches_of_mem_visited (by rw [visited]; simp), accepting⟩

/-- A blocked traversal has reached a blocked configuration. -/
theorem reaches_of_blocked {limit : Nat} {x : Symbol}
    (h : (a.traverse limit [root]).ending = .blocked x) :
    ∃ c, a.Reaches root c ∧ a.IsBlockedOn c x := by
  obtain ⟨before, c, visited, blocked, -⟩ := traverse_blocked h
  exact ⟨c, reaches_of_mem_visited (by rw [visited]; simp), blocked⟩

/-- A traversal that ran out of nodes has left nothing unvisited. -/
theorem isOpen_of_exhausted {limit : Nat} (h : (a.traverse limit [root]).ending = .exhausted)
    (hc : a.Reaches root c) : a.IsOpen c := by
  obtain ⟨depth, bottom, visited⟩ := traverse_whole_tree h
  refine (traverse_exhausted h).1 c ?_
  obtain ⟨d, hd⟩ := reaches_iff_mem_level.1 hc
  rw [visited]
  refine mem_levelOrder_iff.2 ⟨d, ?_, hd⟩
  by_contra too_deep
  have empty := level_eq_nil_of_le bottom (Nat.le_of_not_lt too_deep)
  rw [List.flatMap_singleton] at empty
  exact absurd (empty ▸ hd) List.not_mem_nil

/-- A run that accepts has reached an accepting configuration. -/
theorem reaches_of_run_accepted (closed : a.Closed) {bound : Nat} {input : String}
    (h : (a.run ⟨bound⟩ input).verdict = .accepted) :
    ∃ d, a.Reaches (a.initialConfiguration input) d ∧ d.IsAccepting :=
  reaches_of_accepted (verdictOf_inj ((verdict_eq closed bound input).symm.trans h))

/-- What can be reached and accepts is found under every bound that is large enough. -/
theorem accepted_of_reaches (closed : a.Closed) {input : String}
    (h : ∃ d, a.Reaches (a.initialConfiguration input) d ∧ d.IsAccepting) :
    ∃ least, ∀ bound, least ≤ bound → (a.run ⟨bound⟩ input).verdict = .accepted := by
  obtain ⟨d, reached, accepting⟩ := h
  obtain ⟨room, enough⟩ := exists_room_of_not_isOpen reached fun opened => opened.1 accepting
  refine ⟨room + 1, fun bound le => ?_⟩
  rw [verdict_eq closed]
  rcases enough (bound - 1) (by omega) with ending | ⟨x, ending⟩
  · rw [ending]
    rfl
  · obtain ⟨b, hb, stuck⟩ := reaches_of_blocked ending
    exact absurd accepting (not_isAccepting_of_blocked hb stuck reached)

/-- A run that fails on an undeclared symbol has reached a configuration that is blocked on it. -/
theorem reaches_of_run_blocked (closed : a.Closed) {bound : Nat} {input : String} {x : Symbol}
    {alphabet : Alphabet}
    (h : (a.run ⟨bound⟩ input).verdict = .failed (.undeclaredInput x alphabet)) :
    alphabet = a.inputAlphabet ∧
      ∃ c, a.Reaches (a.initialConfiguration input) c ∧ a.IsBlockedOn c x := by
  rw [verdict_eq closed] at h
  cases ending : (a.traverse (bound - 1) [a.initialConfiguration input]).ending with
  | blocked y =>
    rw [ending] at h
    cases h
    exact ⟨rfl, reaches_of_blocked ending⟩
  | accepted => rw [ending] at h; cases h
  | exhausted => rw [ending] at h; cases h
  | cutOff => rw [ending] at h; cases h

/-- What can be reached and is blocked is found under every bound that is large enough. -/
theorem blocked_of_reaches (closed : a.Closed) {input : String} {x : Symbol}
    (h : ∃ c, a.Reaches (a.initialConfiguration input) c ∧ a.IsBlockedOn c x) :
    ∃ least, ∀ bound, least ≤ bound →
      (a.run ⟨bound⟩ input).verdict = .failed (.undeclaredInput x a.inputAlphabet) := by
  obtain ⟨c, reached, stuck⟩ := h
  obtain ⟨room, enough⟩ := exists_room_of_not_isOpen reached fun opened => opened.2 x stuck
  refine ⟨room + 1, fun bound le => ?_⟩
  rw [verdict_eq closed]
  rcases enough (bound - 1) (by omega) with ending | ⟨y, ending⟩
  · obtain ⟨d, hd, accepting⟩ := reaches_of_accepted ending
    exact absurd accepting (not_isAccepting_of_blocked reached stuck hd)
  · obtain ⟨d, hd, stuck'⟩ := reaches_of_blocked ending
    rw [ending, blocked_unique hd stuck' reached stuck]
    rfl

/-- **The search is sound and complete** for what the moves of the automaton can reach. -/
theorem run_sound_complete (h : a.IsBuilt) (input : String) :
    let root := a.initialConfiguration input
    let verdict := fun bound => (a.run ⟨bound⟩ input).verdict
    (∀ bound,
      (verdict bound = .accepted → ∃ c, a.Reaches root c ∧ c.IsAccepting) ∧
      (verdict bound = .rejected → ∀ c, a.Reaches root c → a.IsOpen c) ∧
      (∀ x alphabet, verdict bound = .failed (.undeclaredInput x alphabet) →
        (∃ c, a.Reaches root c ∧ a.IsBlockedOn c x) ∧
          ∀ c, a.Reaches root c → ¬ c.IsAccepting)) ∧
    ((∃ c, a.Reaches root c ∧ c.IsAccepting) →
      ∃ least, ∀ bound, least ≤ bound → verdict bound = .accepted) ∧
    (∀ x, (∃ c, a.Reaches root c ∧ a.IsBlockedOn c x) →
      ∃ least, ∀ bound, least ≤ bound →
        verdict bound = .failed (.undeclaredInput x a.inputAlphabet)) ∧
    ((∀ c, a.Reaches root c → a.IsOpen c) → Acc (fun d c => a.Step c d) root →
      ∃ least, ∀ bound, least ≤ bound → verdict bound = .rejected) := by
  intro root verdict
  have told : ∀ bound, verdict bound = a.verdictOf bound (a.traverse (bound - 1) [root]).ending :=
    fun bound => verdict_eq h.closed bound input
  refine ⟨fun bound => ⟨fun hv => ?_, fun hv c hc => ?_, fun x alphabet hv => ?_⟩, ?_, ?_, ?_⟩
  · exact reaches_of_accepted (verdictOf_inj ((told bound).symm.trans hv))
  · exact isOpen_of_exhausted (verdictOf_inj ((told bound).symm.trans hv)) hc
  · have blocked : (a.traverse (bound - 1) [root]).ending = .blocked x := by
      rw [told bound] at hv
      cases ending : (a.traverse (bound - 1) [root]).ending <;> simp_all [verdictOf]
    obtain ⟨c, hc, stuck⟩ := reaches_of_blocked blocked
    exact ⟨⟨c, hc, stuck⟩, fun d hd => not_isAccepting_of_blocked hc stuck hd⟩
  · intro h
    obtain ⟨c, hc, accepting⟩ := h
    obtain ⟨room, enough⟩ := exists_room_of_not_isOpen hc fun opened => opened.1 accepting
    refine ⟨room + 1, fun bound le => ?_⟩
    rw [told bound]
    rcases enough (bound - 1) (by omega) with ending | ⟨x, ending⟩
    · rw [ending]
      rfl
    · obtain ⟨d, hd, stuck⟩ := reaches_of_blocked ending
      exact absurd accepting (not_isAccepting_of_blocked hd stuck hc)
  · intro x h
    obtain ⟨c, hc, stuck⟩ := h
    obtain ⟨room, enough⟩ := exists_room_of_not_isOpen hc fun opened => opened.2 x stuck
    refine ⟨room + 1, fun bound le => ?_⟩
    rw [told bound]
    rcases enough (bound - 1) (by omega) with ending | ⟨y, ending⟩
    · obtain ⟨d, hd, accepting⟩ := reaches_of_accepted ending
      exact absurd accepting (not_isAccepting_of_blocked hc stuck hd)
    · obtain ⟨d, hd, stuck'⟩ := reaches_of_blocked ending
      rw [ending, blocked_unique hd stuck' hc stuck]
      rfl
  · intro opened ends
    obtain ⟨room, enough⟩ := exists_room_of_acc ends opened
    refine ⟨room + 1, fun bound le => ?_⟩
    rw [told bound, enough (bound - 1) (by omega)]
    rfl

/-- On the balanced calls, `()` is accepted within ten moves, so an accepting configuration can be
reached, and every larger bound finds it too. -/
theorem run_sound_complete_balanced :
    balanced.IsBuilt ∧ (balanced.run ⟨10⟩ "()").verdict = .accepted ∧
      (∃ c, balanced.Reaches (balanced.initialConfiguration "()") c ∧ c.IsAccepting) ∧
      ∃ least, ∀ bound, least ≤ bound → (balanced.run ⟨bound⟩ "()").verdict = .accepted := by
  obtain ⟨sound, complete, -⟩ := run_sound_complete balanced_isBuilt "()"
  have accepted : (balanced.run ⟨10⟩ "()").verdict = .accepted := by decide
  have reached := (sound 10).1 accepted
  exact ⟨balanced_isBuilt, accepted, reached, complete reached⟩

end Pushdown.Automaton
