import Pushdown.Proofs.Search.FiniteTree
import Pushdown.Proofs.Search.WrittenEpsilon

/-!
# Acceptance under bounds of one machine word

A run accepts, if it does, at the first accepting configuration of the level order, and it does so
under the bounds that leave room for this one and those before it:

> `FirstAccepting.verdict_iff`: if `k` configurations stand before the first that is accepting, the
> run accepts under a bound exactly if this is above `k + 1`.

What is accepted under some bound need not be accepted under a bound that a machine word can hold,
for the tree may have too many nodes before the first that is accepting. An empty symbol on the
input may keep the search from looking at them. The automaton `doubling` on `a ^ 64 b` is such a
case (`doubling_beyond_word`): with an empty symbol in front the word is accepted under the bound
100, and without it under none below `2 ^ 64`.

> `accepts_padded_iff`: a tape is accepted under a bound below `2 ^ 64` exactly if some accepting
> computation on its word makes enough spontaneous moves at each place, and the first accepting
> configuration of the search stands among the first `2 ^ 64 - 2`.
-/

namespace Pushdown.Automaton

variable {a : Automaton} {root c : Configuration} {input : String} {j k : Nat}

/-! ## The first accepting configuration -/

/-- The level order of the tree below a root has its first accepting configuration after so many
others. -/
def FirstAccepting (a : Automaton) (root : Configuration) (k : Nat) : Prop :=
  ∃ depth before c, before ++ [c] <+: a.levelOrder depth [root] ∧ before.length = k ∧
    c.IsAccepting ∧ ∀ b ∈ before, ¬ b.IsAccepting

/-- Of two beginnings of the level order, the shorter is a beginning of the longer. -/
theorem prefix_of_levelOrder {xs ys roots : List Configuration} {depth other : Nat}
    (hx : xs <+: a.levelOrder depth roots) (hy : ys <+: a.levelOrder other roots)
    (le : xs.length ≤ ys.length) : xs <+: ys :=
  List.prefix_of_prefix_length_le (hx.trans (levelOrder_mono (Nat.le_max_left depth other) roots))
    (hy.trans (levelOrder_mono (Nat.le_max_right depth other) roots)) le

namespace FirstAccepting

/-- A beginning of the level order in which nothing is accepting ends before the first that is. -/
theorem length_le (h : a.FirstAccepting root k) {seen : List Configuration} {depth : Nat}
    (start : seen <+: a.levelOrder depth [root]) (none_yet : ∀ b ∈ seen, ¬ b.IsAccepting) :
    seen.length ≤ k := by
  obtain ⟨other, before, c, order, rfl, accepting, -⟩ := h
  by_contra beyond
  have within : before ++ [c] <+: seen :=
    prefix_of_levelOrder order start (by rw [List.length_append, List.length_singleton]; omega)
  exact none_yet c (within.subset (by simp)) accepting

theorem unique (h : a.FirstAccepting root j) (h' : a.FirstAccepting root k) : j = k := by
  have le {j k : Nat} (h : a.FirstAccepting root j) (h' : a.FirstAccepting root k) : j ≤ k := by
    obtain ⟨depth, before, c, order, rfl, -, none_yet⟩ := h
    exact h'.length_le ((List.prefix_append before [c]).trans order) none_yet
  exact Nat.le_antisymm (le h h') (le h' h)

/-- The run accepts exactly if there is room for the first accepting configuration. -/
theorem verdict_iff (closed : a.Closed) (h : a.FirstAccepting (a.initialConfiguration input) k)
    {bound : Nat} : (a.run ⟨bound⟩ input).verdict = .accepted ↔ k + 1 < bound := by
  rw [verdict_eq closed]
  constructor
  · intro accepted
    have ending : (a.traverse (bound - 1) [a.initialConfiguration input]).ending = .accepted :=
      verdictOf_inj accepted
    have room := length_visited_lt (show (a.traverse _ _).ending ≠ .cutOff by rw [ending]; nofun)
    obtain ⟨before, c, visited, accepting, opened⟩ := traverse_accepted ending
    have order := traverse_prefix_levelOrder (a := a) (bound - 1) [a.initialConfiguration input]
    rw [visited] at room order
    rw [h.unique ⟨_, before, c, order, rfl, accepting, fun b hb => (opened b hb).1⟩]
    simpa using room
  · intro room
    have first := h
    obtain ⟨depth, before, c, order, -, accepting, -⟩ := first
    have reached : a.Reaches (a.initialConfiguration input) c :=
      reaches_of_mem_levelOrder (order.subset (by simp))
    cases ending : (a.traverse (bound - 1) [a.initialConfiguration input]).ending with
    | accepted => rfl
    | blocked x =>
      obtain ⟨b, reached_b, blocked⟩ := reaches_of_blocked ending
      exact absurd accepting (not_isAccepting_of_blocked reached_b blocked reached)
    | exhausted => exact absurd accepting (isOpen_of_exhausted ending reached).1
    | cutOff =>
      obtain ⟨opened, visited, -⟩ := traverse_cutOff ending
      have all_seen := h.length_le (traverse_prefix_levelOrder _ _) fun b hb => (opened b hb).1
      omega

end FirstAccepting

/-- What is accepted under some bound has a first accepting configuration. -/
theorem exists_accepted_iff_first (closed : a.Closed) :
    (∃ bound, (a.run ⟨bound⟩ input).verdict = .accepted) ↔
      ∃ k, a.FirstAccepting (a.initialConfiguration input) k := by
  constructor
  · intro h
    obtain ⟨bound, accepted⟩ := h
    rw [verdict_eq closed] at accepted
    obtain ⟨before, c, visited, accepting, opened⟩ := traverse_accepted (verdictOf_inj accepted)
    have order := traverse_prefix_levelOrder (a := a) (bound - 1) [a.initialConfiguration input]
    rw [visited] at order
    exact ⟨_, _, before, c, order, rfl, accepting, fun b hb => (opened b hb).1⟩
  · intro h
    obtain ⟨k, first⟩ := h
    exact ⟨k + 2, (first.verdict_iff closed).2 (Nat.lt_succ_self _)⟩

/-- Acceptance under a bound below some number. -/
theorem exists_accepted_lt_iff (closed : a.Closed) {size : Nat} :
    (∃ bound < size, (a.run ⟨bound⟩ input).verdict = .accepted) ↔
      ∃ k, k + 2 < size ∧ a.FirstAccepting (a.initialConfiguration input) k := by
  constructor
  · intro h
    obtain ⟨bound, below, accepted⟩ := h
    obtain ⟨k, first⟩ := (exists_accepted_iff_first closed).1 ⟨bound, accepted⟩
    have room := (first.verdict_iff closed).1 accepted
    exact ⟨k, by omega, first⟩
  · intro h
    obtain ⟨k, below, first⟩ := h
    exact ⟨k + 2, below, (first.verdict_iff closed).2 (Nat.lt_succ_self _)⟩

/-! ## Main result -/

/-- **What an empty symbol on the input means**: one spontaneous move more is demanded at its place.
Under bounds of one machine word the search has to come to the first accepting configuration in time,
too. -/
theorem accepts_padded_iff (h : a.IsBuilt) :
    (∀ p : PaddedWord, (∀ x ∈ p.word, x ∈ a.inputAlphabet) →
      let root := a.initialConfiguration (Symbol.toText p.tape)
      let accepted (bound : Nat) := (a.run ⟨bound⟩ (Symbol.toText p.tape)).verdict = .accepted
      let demanded := ∃ moves d,
        a.Computation (a.initialConfiguration (Symbol.toText p.word)) moves d ∧ d.IsAccepting ∧
          ∀ i ≤ p.word.length, p.writtenAfter i ≤ spontaneousAfter moves i
      ((∃ bound < UInt64.size, accepted bound) ↔
        demanded ∧ ∃ k, k + 2 < UInt64.size ∧ a.FirstAccepting root k) ∧
      ((∃ bound, accepted bound) ↔ demanded) ∧
      ∀ k, a.FirstAccepting root k → ∀ bound, accepted bound ↔ k + 1 < bound) ∧
    (∀ word : List Symbol, (∀ x ∈ word, x ∈ a.inputAlphabet) →
      let root := a.initialConfiguration (Symbol.toText word)
      let accepted (bound : Nat) := (a.run ⟨bound⟩ (Symbol.toText word)).verdict = .accepted
      let ordinary := ∃ moves d, a.Computation root moves d ∧ d.IsAccepting
      ((∃ bound < UInt64.size, accepted bound) ↔
        ordinary ∧ ∃ k, k + 2 < UInt64.size ∧ a.FirstAccepting root k) ∧
      ((∃ bound, accepted bound) ↔ ordinary)) ∧
    (∀ tape shorter : String, (Symbol.ofText shorter).Sublist (Symbol.ofText tape) →
      Symbol.withoutEpsilon (Symbol.ofText shorter) =
        Symbol.withoutEpsilon (Symbol.ofText tape) →
      (∃ bound, (a.run ⟨bound⟩ tape).verdict = .accepted) →
        ∃ k, a.FirstAccepting (a.initialConfiguration shorter) k ∧
          ∀ bound, (a.run ⟨bound⟩ shorter).verdict = .accepted ↔ k + 1 < bound) := by
  have closed := h.closed
  -- where a bound is found below the word, one is found at all
  have below_word {input : String} {p : Prop}
      (unlimited : (∃ bound, (a.run ⟨bound⟩ input).verdict = .accepted) ↔ p) :
      (∃ bound < UInt64.size, (a.run ⟨bound⟩ input).verdict = .accepted) ↔
        p ∧ ∃ k, k + 2 < UInt64.size ∧ a.FirstAccepting (a.initialConfiguration input) k := by
    rw [← unlimited, ← exists_accepted_lt_iff closed]
    exact ⟨fun found => ⟨found.imp fun _ => And.right, found⟩, And.right⟩
  refine ⟨fun p declared => ?_, fun word declared => ?_, fun tape shorter sub same accepted => ?_⟩
  · have unlimited := exists_accepted_tape_iff closed declared
    exact ⟨below_word unlimited, unlimited, fun k first bound => first.verdict_iff closed⟩
  · have unlimited := exists_accepted_word_iff closed declared
    exact ⟨below_word unlimited, unlimited⟩
  · obtain ⟨least, enough⟩ := accepted_of_sublist closed sub same accepted
    obtain ⟨k, first⟩ :=
      (exists_accepted_iff_first closed).1 ⟨least, enough least (Nat.le_refl least)⟩
    exact ⟨k, first, fun bound => first.verdict_iff closed⟩

/-- The word `()` with one empty symbol after it. -/
def balancedThenEpsilon : PaddedWord := ⟨0, [('(', 0), (')', 1)]⟩

/-- It is accepted by the balanced words, for the one spontaneous move of the computation is made
there; so is the word alone. -/
theorem accepts_padded_iff_balanced :
    balanced.IsBuilt ∧ (∀ x ∈ balancedThenEpsilon.word, x ∈ balanced.inputAlphabet) ∧
      (balanced.run ⟨10⟩ "().").verdict = .accepted ∧
      (∃ moves d, balanced.Computation (balanced.initialConfiguration "()") moves d ∧
        d.IsAccepting ∧ 1 ≤ spontaneousAfter moves 2) ∧
      (∃ k, k + 2 < UInt64.size ∧
        balanced.FirstAccepting (balanced.initialConfiguration "().") k) ∧
      ∃ k, ∀ bound, (balanced.run ⟨bound⟩ "()").verdict = .accepted ↔ k + 1 < bound := by
  have declared : ∀ x ∈ balancedThenEpsilon.word, x ∈ balanced.inputAlphabet := by
    intro x hx
    obtain rfl | rfl : x = '(' ∨ x = ')' := by simpa [balancedThenEpsilon, PaddedWord.word] using hx
    · decide
    · decide
  have accepted : (balanced.run ⟨10⟩ "().").verdict = .accepted := by decide
  obtain ⟨padded, -, shortened⟩ := accepts_padded_iff balanced_isBuilt
  obtain ⟨below_word, -⟩ := padded _ declared
  obtain ⟨⟨moves, d, computation, accepting, enough⟩, in_time⟩ :=
    below_word.1 ⟨10, by decide, accepted⟩
  obtain ⟨k, -, shorter⟩ := shortened "()." "()" (by decide) (by decide) ⟨10, accepted⟩
  refine ⟨balanced_isBuilt, declared, accepted, ?_, in_time, k, shorter⟩
  exact ⟨moves, d, computation, accepting, enough 2 (Nat.le_refl 2)⟩

/-! ## A word that is out of reach -/

/-- A configuration has read at most one symbol on each level. -/
theorem length_input_le_of_mem_level {depth : Nat} (h : c ∈ a.level depth root) :
    root.input.length ≤ c.input.length + depth := by
  induction depth generalizing root with
  | zero =>
    rw [List.mem_singleton.1 h]
    exact Nat.le_refl _
  | succ depth ih =>
    obtain ⟨child, hchild, hc⟩ := List.mem_flatMap.1 h
    have below := ih hc
    cases step_of_mem_children hchild with
    | reading _ _ => exact Nat.succ_le_succ below
    | spontaneous _ _ => exact Nat.le_succ_of_le below

/-- Nothing is accepting on the levels that are too few to read the input. -/
theorem not_isAccepting_of_mem_levelOrder {depth : Nat} (few : depth ≤ root.input.length)
    (h : c ∈ a.levelOrder depth [root]) : ¬ c.IsAccepting := by
  rintro ⟨used_up, -⟩
  obtain ⟨d, lt, hc⟩ := mem_levelOrder_iff.1 h
  have read := length_input_le_of_mem_level hc
  rw [used_up, List.length_nil] at read
  omega

/-- The first accepting configuration comes after as many nodes as these levels have. -/
theorem FirstAccepting.treeSize_le (h : a.FirstAccepting root k) :
    a.treeSize root.input.length root ≤ k := by
  rw [← length_levelOrder_singleton]
  exact h.length_le (List.prefix_refl _) fun b hb =>
    not_isAccepting_of_mem_levelOrder (Nat.le_refl _) hb

/-- The calls that build the automaton which doubles its choices with each `a`, until it makes a
spontaneous move. -/
def doublingCalls : List Builder.Call :=
  [.state "q", .state "r", .input 'a', .input 'b', .stack 'Z',
   .transition "q" '.' 'Z' "r" ['Z'],
   .transition "q" 'a' 'Z' "q" ['Z'],
   .transition "q" 'a' 'Z' "q" ['Z'],
   .transition "r" 'a' 'Z' "r" ['Z'],
   .transition "r" 'b' 'Z' "r" ['.']]

/-- The automaton that these calls build. -/
def doubling : Automaton where
  states := #[
    ⟨"q", ⟨[⟨⟨'.', 'Z'⟩, ⟨⟨1⟩, ['Z']⟩⟩, ⟨⟨'a', 'Z'⟩, ⟨⟨0⟩, ['Z']⟩⟩, ⟨⟨'a', 'Z'⟩, ⟨⟨0⟩, ['Z']⟩⟩]⟩⟩,
    ⟨"r", ⟨[⟨⟨'a', 'Z'⟩, ⟨⟨1⟩, ['Z']⟩⟩, ⟨⟨'b', 'Z'⟩, ⟨⟨1⟩, ['.']⟩⟩]⟩⟩]
  inputAlphabet := Alphabet.ofList ['a', 'b']
  stackAlphabet := Alphabet.ofList ['Z']
  initialState := ⟨0⟩
  initialSymbol := 'Z'

theorem doubling_isBuilt : doubling.IsBuilt :=
  ⟨doublingCalls, "q", 'Z', Builder.build_eq_ok_iff.2
    ⟨by decide +kernel, by decide +kernel, by decide +kernel⟩⟩

/-- The word of so many `a` and a `b`, with some empty symbols in front. -/
def lettersThenB (lead n : Nat) : PaddedWord := ⟨lead, List.replicate n ('a', 0) ++ [('b', 0)]⟩

theorem word_lettersThenB (lead n : Nat) :
    (lettersThenB lead n).word = List.replicate n 'a' ++ ['b'] := by
  simp [lettersThenB, PaddedWord.word]

theorem tape_lettersThenB (lead n : Nat) : (lettersThenB lead n).tape =
    List.replicate lead Symbol.epsilon ++ (List.replicate n 'a' ++ ['b']) := by
  have plain : lettersThenB 0 n = PaddedWord.plain (List.replicate n 'a' ++ ['b']) := by
    simp [lettersThenB, PaddedWord.plain]
  calc (lettersThenB lead n).tape
      = List.replicate lead Symbol.epsilon ++ (lettersThenB 0 n).tape := rfl
    _ = _ := by rw [plain, PaddedWord.tape_plain]

theorem mem_inputAlphabet_of_mem_lettersThenB {lead n : Nat} {x : Symbol}
    (h : x ∈ (lettersThenB lead n).word) : x ∈ doubling.inputAlphabet := by
  rw [word_lettersThenB, List.mem_append] at h
  cases h with
  | inl h =>
    rw [List.eq_of_mem_replicate h]
    decide
  | inr h =>
    rw [List.mem_singleton.1 h]
    decide

/-- Before its spontaneous move the automaton has two ways to read each `a`. -/
theorem two_pow_le_treeSize_doubling (n : Nat) (rest : List Symbol) :
    2 ^ (n + 1) ≤ doubling.treeSize (n + 1)
      ⟨⟨0⟩, List.replicate n 'a' ++ rest, ⟨doubling.stackAlphabet, ['Z']⟩⟩ + 1 := by
  induction n with
  | zero =>
    rw [treeSize]
    omega
  | succ n ih =>
    have children : doubling.children
        ⟨⟨0⟩, 'a' :: (List.replicate n 'a' ++ rest), ⟨doubling.stackAlphabet, ['Z']⟩⟩ =
          [⟨⟨0⟩, List.replicate n 'a' ++ rest, ⟨doubling.stackAlphabet, ['Z']⟩⟩,
            ⟨⟨0⟩, List.replicate n 'a' ++ rest, ⟨doubling.stackAlphabet, ['Z']⟩⟩,
            ⟨⟨1⟩, 'a' :: (List.replicate n 'a' ++ rest), ⟨doubling.stackAlphabet, ['Z']⟩⟩] := rfl
    rw [List.replicate_succ, List.cons_append, treeSize, children]
    simp only [List.map_cons, List.map_nil, List.sum_cons, List.sum_nil]
    omega

/-- So its first accepting configuration on the word alone comes late. -/
theorem two_pow_le_of_firstAccepting_doubling {n : Nat} (h : doubling.FirstAccepting
    (doubling.initialConfiguration (Symbol.toText (lettersThenB 0 n).tape)) k) :
    2 ^ (n + 1) ≤ k + 1 := by
  have root : doubling.initialConfiguration (Symbol.toText (lettersThenB 0 n).tape) =
      ⟨⟨0⟩, List.replicate n 'a' ++ ['b'], ⟨doubling.stackAlphabet, ['Z']⟩⟩ := by
    rw [initialConfiguration, Symbol.ofText_toText, tape_lettersThenB]
    rfl
  -- the `n + 1` symbols are not read before level `n + 1`
  have late := h.treeSize_le
  rw [root, List.length_append, List.length_replicate, List.length_singleton] at late
  calc 2 ^ (n + 1)
      ≤ doubling.treeSize (n + 1)
          ⟨⟨0⟩, List.replicate n 'a' ++ ['b'], ⟨doubling.stackAlphabet, ['Z']⟩⟩ + 1 :=
        two_pow_le_treeSize_doubling n ['b']
    _ ≤ k + 1 := Nat.succ_le_succ late

/-- With an empty symbol in front `a ^ 64 b` is accepted under the bound 100. The word alone has an
accepting computation, but it is accepted under no bound that a machine word can hold. -/
theorem doubling_beyond_word :
    doubling.IsBuilt ∧
      (∀ x ∈ (lettersThenB 1 64).word, x ∈ doubling.inputAlphabet) ∧
      (doubling.run ⟨100⟩ (Symbol.toText (lettersThenB 1 64).tape)).verdict = .accepted ∧
      (lettersThenB 0 64).tape = Symbol.withoutEpsilon (lettersThenB 1 64).tape ∧
      (∃ moves d, doubling.Computation
          (doubling.initialConfiguration (Symbol.toText (lettersThenB 0 64).word)) moves d ∧
        d.IsAccepting ∧ ∀ i ≤ (lettersThenB 0 64).word.length,
          (lettersThenB 0 64).writtenAfter i ≤ spontaneousAfter moves i) ∧
      ∀ bound < UInt64.size,
        (doubling.run ⟨bound⟩ (Symbol.toText (lettersThenB 0 64).tape)).verdict ≠ .accepted := by
  have closed := doubling_isBuilt.closed
  have declared (lead : Nat) : ∀ x ∈ (lettersThenB lead 64).word, x ∈ doubling.inputAlphabet :=
    fun _ => mem_inputAlphabet_of_mem_lettersThenB
  have dotted : (doubling.run ⟨100⟩ (Symbol.toText (lettersThenB 1 64).tape)).verdict =
      .accepted := by decide +kernel
  have plain : (lettersThenB 0 64).tape = Symbol.withoutEpsilon (lettersThenB 1 64).tape := by
    rw [PaddedWord.withoutEpsilon_tape (ne_epsilon_of_declared closed (declared 1)),
      word_lettersThenB, tape_lettersThenB]
    rfl
  have found : ∃ bound, (doubling.run ⟨bound⟩ (Symbol.toText (lettersThenB 0 64).tape)).verdict =
      .accepted := by
    rw [plain]
    exact accepted_withoutEpsilon closed ⟨100, dotted⟩
  refine ⟨doubling_isBuilt, declared 1, dotted, plain,
    (exists_accepted_tape_iff closed (declared 0)).1 found, fun bound below accepted => ?_⟩
  obtain ⟨k, first⟩ := (exists_accepted_iff_first closed).1 found
  have room := (first.verdict_iff closed).1 accepted
  have late := two_pow_le_of_firstAccepting_doubling first
  have size : UInt64.size = 2 ^ 64 := rfl
  omega

end Pushdown.Automaton
