import Mathlib.Data.List.Perm.Basic
import Pushdown.Proofs.Automaton.Names
import Pushdown.Proofs.Search.Bound
import Pushdown.Proofs.Search.Reachability

/-!
# The order of alternatives

Two automata may offer the same outcomes, under every key, in another order (`SameChoices`). Their
searches take different configurations one after the other, so they cannot be compared step by step.
What can be compared are whole levels of the two trees:

> `SameChoices.level_perm`: each level of one tree is a rearrangement of that level of the other.

So the two automata reach the same configurations, and if one tree is finite, so is the other, with
as many nodes. That is all that an answer depends on:

> `SameChoices.run_eq_of_rejected`: if one of them rejects, the other one has the same run under
> every bound;
> `SameChoices.eventually_verdict`: whatever the one answers, the other one answers under every
> bound that is large enough.

> `run_choice_order_irrelevant`: the order of alternatives decides when an answer is found, but
> never which.
-/

namespace Pushdown.Automaton

variable {a b : Automaton} {c d root : Configuration}

/-- An answer is no sign of a bound. -/
theorem not_isCutOff {e : Execution} {v : Verdict} (told : e.verdict = v)
    (other : ∀ bound, v ≠ .failed (.boundExceeded bound)) : ¬ e.IsCutOff := by
  rintro ⟨bound, cut⟩
  exact other bound (told.symm.trans cut)

/-- Two automata that differ only in the order of the outcomes under one key. -/
structure SameChoices (a b : Automaton) : Prop where
  names_eq : a.names = b.names
  inputAlphabet_eq : a.inputAlphabet = b.inputAlphabet
  stackAlphabet_eq : a.stackAlphabet = b.stackAlphabet
  initialState_eq : a.initialState = b.initialState
  initialSymbol_eq : a.initialSymbol = b.initialSymbol
  outcomes_perm : ∀ id input top, (a.outcomes id input top).Perm (b.outcomes id input top)

namespace SameChoices

theorem symm (h : SameChoices a b) : SameChoices b a where
  names_eq := h.names_eq.symm
  inputAlphabet_eq := h.inputAlphabet_eq.symm
  stackAlphabet_eq := h.stackAlphabet_eq.symm
  initialState_eq := h.initialState_eq.symm
  initialSymbol_eq := h.initialSymbol_eq.symm
  outcomes_perm id input top := (h.outcomes_perm id input top).symm

theorem initialConfiguration_eq (h : SameChoices a b) (input : String) :
    a.initialConfiguration input = b.initialConfiguration input := by
  rw [initialConfiguration, initialConfiguration, h.initialState_eq, h.stackAlphabet_eq,
    h.initialSymbol_eq]

/-! ## Levels -/

theorem children_perm (h : SameChoices a b) (c : Configuration) :
    (a.children c).Perm (b.children c) := by
  have under (consumed top : Symbol) (below rest : List Symbol) :
      (a.successorsUnder c consumed top below rest).Perm
        (b.successorsUnder c consumed top below rest) :=
    (h.outcomes_perm c.state consumed top).map _
  refine List.Perm.map _ ?_
  unfold successors
  rw [h.inputAlphabet_eq]
  split
  · exact .refl _
  · exact under ..
  · split
    · exact under ..
    · split
      · exact (under ..).append (under ..)
      · exact .refl _

/-- The levels of the two trees are rearrangements of each other. -/
theorem level_perm (h : SameChoices a b) (depth : Nat) (c : Configuration) :
    (a.level depth c).Perm (b.level depth c) := by
  induction depth generalizing c with
  | zero => exact .refl _
  | succ depth ih => exact (h.children_perm c).flatMap fun d _ => ih d

theorem levelOrder_perm (h : SameChoices a b) (depth : Nat) (roots : List Configuration) :
    (a.levelOrder depth roots).Perm (b.levelOrder depth roots) :=
  .flatMap_left _ fun d _ => .flatMap_left _ fun root _ => h.level_perm d root

/-! ## What can be reached -/

theorem reaches_iff (h : SameChoices a b) : a.Reaches root c ↔ b.Reaches root c := by
  rw [reaches_iff_mem_level, reaches_iff_mem_level]
  exact exists_congr fun depth => (h.level_perm depth root).mem_iff

theorem isBlockedOn_iff (h : SameChoices a b) {x : Symbol} :
    a.IsBlockedOn c x ↔ b.IsBlockedOn c x := by
  rw [IsBlockedOn, IsBlockedOn, h.inputAlphabet_eq]

theorem isOpen_iff (h : SameChoices a b) : a.IsOpen c ↔ b.IsOpen c := by
  simp only [IsOpen, h.isBlockedOn_iff]

/-! ## Runs -/

/-- Where one of the automata rejects, the other one rejects after as many configurations. -/
theorem run_eq_of_rejected_at (h : SameChoices a b) (closed_a : a.Closed) (closed_b : b.Closed)
    {bound : Nat} {input : String} (rejected : (a.run ⟨bound⟩ input).verdict = .rejected) :
    b.run ⟨bound⟩ input = a.run ⟨bound⟩ input := by
  have ending : (a.traverse (bound - 1) [a.initialConfiguration input]).ending = .exhausted :=
    verdictOf_inj ((verdict_eq closed_a bound input).symm.trans rejected)
  obtain ⟨depth, bottom, visited⟩ := traverse_whole_tree ending
  have sizes := (h.levelOrder_perm depth [a.initialConfiguration input]).length_eq
  -- the tree of the other automaton ends where this one does, and all its nodes are open
  have bottom_b : b.level depth (a.initialConfiguration input) = [] := by
    rw [List.flatMap_singleton] at bottom
    have empty := h.level_perm depth (a.initialConfiguration input)
    rw [bottom] at empty
    exact empty.nil_eq.symm
  have opened : ∀ c, b.Reaches (a.initialConfiguration input) c → b.IsOpen c := by
    intro c reached
    exact h.isOpen_iff.1 (isOpen_of_exhausted ending (h.reaches_iff.2 reached))
  have room : (b.levelOrder depth [a.initialConfiguration input]).length ≤ bound - 1 := by
    rw [← sizes, ← visited]
    exact traverse_length_le _ _
  obtain ⟨ending_b, count⟩ := exhausted_of_finite bottom_b opened room
  rw [h.initialConfiguration_eq] at ending visited sizes ending_b count
  rw [run_eq closed_a, run_eq closed_b]
  unfold executionOf traversalOf Traversal.taken
  rw [h.initialConfiguration_eq, ending, ending_b, count, visited, sizes]
  rfl

/-- Where one of the automata rejects, the other one has the same run under every bound. -/
theorem run_eq_of_rejected (h : SameChoices a b) (closed_a : a.Closed) (closed_b : b.Closed)
    {bound : Nat} {input : String} (rejected : (a.run ⟨bound⟩ input).verdict = .rejected)
    (other : Nat) : b.run ⟨other⟩ input = a.run ⟨other⟩ input := by
  have same := h.run_eq_of_rejected_at closed_a closed_b rejected
  have answered_a := not_isCutOff rejected nofun
  have answered_b : ¬ (b.run ⟨bound⟩ input).IsCutOff := same ▸ answered_a
  rcases Nat.lt_or_ge (a.run ⟨bound⟩ input).transitions other with above | below
  · rw [run_eq_of_transitions_lt closed_a answered_a above,
      run_eq_of_transitions_lt closed_b answered_b (same ▸ above), same]
  · rw [run_cutOff_of_le_transitions closed_a answered_a below,
      run_cutOff_of_le_transitions closed_b answered_b (same ▸ below)]

/-- What one of the automata answers, the other one answers under every bound that is large
enough. -/
theorem eventually_verdict (h : SameChoices a b) (closed_a : a.Closed) (closed_b : b.Closed)
    {bound : Nat} {input : String} (answered : ¬ (a.run ⟨bound⟩ input).IsCutOff) :
    ∃ least, ∀ other, least ≤ other →
      (b.run ⟨other⟩ input).verdict = (a.run ⟨bound⟩ input).verdict := by
  have told := verdict_eq closed_a bound input
  cases ending : (a.traverse (bound - 1) [a.initialConfiguration input]).ending with
  | accepted =>
    rw [ending] at told
    obtain ⟨c, reached, accepting⟩ := reaches_of_run_accepted closed_a told
    rw [h.initialConfiguration_eq, h.reaches_iff] at reached
    rw [told]
    exact accepted_of_reaches closed_b ⟨c, reached, accepting⟩
  | blocked x =>
    rw [ending] at told
    obtain ⟨-, c, reached, blocked⟩ := reaches_of_run_blocked closed_a told
    rw [h.initialConfiguration_eq, h.reaches_iff] at reached
    rw [told, verdictOf, h.inputAlphabet_eq]
    exact blocked_of_reaches closed_b ⟨c, reached, h.isBlockedOn_iff.1 blocked⟩
  | exhausted =>
    rw [ending] at told
    refine ⟨(a.run ⟨bound⟩ input).transitions + 1, fun other above => ?_⟩
    rw [h.run_eq_of_rejected closed_a closed_b told,
      run_eq_of_transitions_lt closed_a answered above]
  | cutOff => exact absurd ((isCutOff_run_iff closed_a).2 ending) answered

/-- The two automata never contradict each other. -/
theorem verdict_eq_of_answered (h : SameChoices a b) (closed_a : a.Closed) (closed_b : b.Closed)
    {bound other : Nat} {input : String} (answered_a : ¬ (a.run ⟨bound⟩ input).IsCutOff)
    (answered_b : ¬ (b.run ⟨other⟩ input).IsCutOff) :
    (a.run ⟨bound⟩ input).verdict = (b.run ⟨other⟩ input).verdict := by
  obtain ⟨least, eventually⟩ := h.eventually_verdict closed_a closed_b answered_a
  -- a bound at which both answers stand
  have far := eventually (max least ((b.run ⟨other⟩ input).transitions + 1)) (Nat.le_max_left _ _)
  rw [← far, run_eq_of_transitions_lt closed_b answered_b (Nat.le_max_right _ _)]

end SameChoices

/-- **The order of alternatives never changes the answer.** -/
theorem run_choice_order_irrelevant (ha : a.IsBuilt) (hb : b.IsBuilt) (h : SameChoices a b)
    (input : String) :
    (∀ bound, (a.run ⟨bound⟩ input).verdict = .rejected →
      ∀ other, b.run ⟨other⟩ input = a.run ⟨other⟩ input) ∧
    (∀ bound, (a.run ⟨bound⟩ input).verdict = .accepted →
      ∃ least, ∀ other, least ≤ other → (b.run ⟨other⟩ input).verdict = .accepted) ∧
    (∀ bound x alphabet, (a.run ⟨bound⟩ input).verdict = .failed (.undeclaredInput x alphabet) →
      ∃ least, ∀ other, least ≤ other →
        (b.run ⟨other⟩ input).verdict = .failed (.undeclaredInput x alphabet)) ∧
    (∀ bound other, ¬ (a.run ⟨bound⟩ input).IsCutOff → ¬ (b.run ⟨other⟩ input).IsCutOff →
      (a.run ⟨bound⟩ input).verdict = (b.run ⟨other⟩ input).verdict) := by
  refine ⟨?_, ?_, ?_, ?_⟩
  · intro bound rejected other
    exact h.run_eq_of_rejected ha.closed hb.closed rejected other
  · intro bound accepted
    have answered := not_isCutOff accepted nofun
    rw [← accepted]
    exact h.eventually_verdict ha.closed hb.closed answered
  · intro bound x alphabet failed
    have answered := not_isCutOff failed nofun
    rw [← failed]
    exact h.eventually_verdict ha.closed hb.closed answered
  · intro bound other answered_a answered_b
    exact h.verdict_eq_of_answered ha.closed hb.closed answered_a answered_b

/-- Outcomes in two orders are offered in two orders. -/
theorem outcomes_perm_of_entries {t u : Transition.Table} (h : t.entries.Perm u.entries)
    (key : Transition.Key) : (t.outcomes key).Perm (u.outcomes key) :=
  (h.filter _).map _

/-- An automaton that on an `a` goes to a state where nothing can be done, or stops; in the order of
these two outcomes. -/
def forked (alternatives : List Transition.Outcome) : Automaton where
  states := #[⟨"s", ⟨alternatives.map (⟨⟨'a', 'Z'⟩, ·⟩)⟩⟩, ⟨"bad", .empty⟩, ⟨"good", .empty⟩]
  inputAlphabet := Alphabet.ofList ['a']
  stackAlphabet := Alphabet.ofList ['Z']
  initialState := ⟨0⟩
  initialSymbol := 'Z'

/-- The automaton with the dead end first. -/
def badFirst : Automaton := forked [⟨⟨1⟩, ['Z']⟩, ⟨⟨2⟩, ['.']⟩]

/-- The automaton with the dead end last. -/
def goodFirst : Automaton := forked [⟨⟨2⟩, ['.']⟩, ⟨⟨1⟩, ['Z']⟩]

theorem sameChoices_badFirst : SameChoices badFirst goodFirst := by
  refine ⟨by decide, rfl, rfl, rfl, rfl, fun id input top => ?_⟩
  obtain ⟨_ | n⟩ := id
  · exact outcomes_perm_of_entries (.swap ..) ⟨input, top⟩
  · have others : badFirst.state? ⟨n + 1⟩ = goodFirst.state? ⟨n + 1⟩ := by
      simp [state?, badFirst, goodFirst, forked]
    rw [outcomes, outcomes, others]

/-- Either order accepts `a`, rejects `aa` after three configurations, and fails on `ab`. -/
theorem run_choice_order_irrelevant_forked :
    badFirst.IsBuilt ∧ goodFirst.IsBuilt ∧ SameChoices badFirst goodFirst ∧
      (badFirst.run ⟨10⟩ "a" = ⟨.accepted, 3⟩ ∧
        ∃ least, ∀ other, least ≤ other → (goodFirst.run ⟨other⟩ "a").verdict = .accepted) ∧
      (badFirst.run ⟨10⟩ "aa" = ⟨.rejected, 3⟩ ∧ goodFirst.run ⟨4⟩ "aa" = ⟨.rejected, 3⟩) ∧
      ∃ least, ∀ other, least ≤ other → (goodFirst.run ⟨other⟩ "ab").verdict =
        .failed (.undeclaredInput 'b' (Alphabet.ofList ['a'])) := by
  have bad_first : badFirst.IsBuilt :=
    ⟨[.state "s", .state "bad", .state "good", .input 'a', .stack 'Z',
      .transition "s" 'a' 'Z' "bad" ['Z'], .transition "s" 'a' 'Z' "good" ['.']], "s", 'Z',
      Builder.build_eq_ok_iff.2 ⟨by decide +kernel, by decide +kernel, by decide +kernel⟩⟩
  have good_first : goodFirst.IsBuilt :=
    ⟨[.state "s", .state "bad", .state "good", .input 'a', .stack 'Z',
      .transition "s" 'a' 'Z' "good" ['.'], .transition "s" 'a' 'Z' "bad" ['Z']], "s", 'Z',
      Builder.build_eq_ok_iff.2 ⟨by decide +kernel, by decide +kernel, by decide +kernel⟩⟩
  have same (input : String) :=
    run_choice_order_irrelevant bad_first good_first sameChoices_badFirst input
  have accepted : badFirst.run ⟨10⟩ "a" = ⟨.accepted, 3⟩ := by decide
  have rejected : badFirst.run ⟨10⟩ "aa" = ⟨.rejected, 3⟩ := by decide
  have failed : (badFirst.run ⟨10⟩ "ab").verdict =
      .failed (.undeclaredInput 'b' (Alphabet.ofList ['a'])) := by decide
  refine ⟨bad_first, good_first, sameChoices_badFirst, ⟨accepted, ?_⟩, ⟨rejected, ?_⟩, ?_⟩
  · exact (same "a").2.1 10 (congrArg Execution.verdict accepted)
  · have alike := (same "aa").1 10 (congrArg Execution.verdict rejected) 4
    exact alike.trans (by decide)
  · exact (same "ab").2.2.1 10 _ _ failed

end Pushdown.Automaton
