import Pushdown.Proofs.Sample.Loaded
import Pushdown.Proofs.Search.FiniteTree
import Mathlib.Data.List.Infix
import Mathlib.Tactic.Ring

/-!
# The languages of the samples

Three samples decide a language: balanced parentheses, words of some `a`s and as many `b`s, and
palindromes of even length. Every configuration that one of them can come to is told by its state,
the input left and the shape of its stack, so each such family has one lemma on what it decides and
how large its tree is at most (`decides_nested`, `decides_matching`, `decides_counting`,
`decides_popping`, `decides_pushing`). These are inductions on the input left. Where the bottom of
the stack may be dropped before the input is used up, the branch that drops it is a dead end of its
own, and is counted.

What a family decides is the language of the sample, generalised to a stack that already holds
something: `Closes` to parentheses that are open, `Exceeds` to a lead in `b`s, `Mirrors` to letters
that are still to be matched.

> `balancedParentheses_decides`, `anbn_decides`, `evenPalindrome_decides`: on every word over its
> alphabet the sample accepts if the word is in the language and rejects if it is not, under every
> bound above `2 * n + 2`, `n + 4` and `(n + 2) ^ 2`.
-/

namespace Pushdown.Sample

open Automaton (Decides)

variable {w rest : List Symbol}

/-! ## Balanced parentheses -/

/-- No prefix of the word closes more parentheses than it opens, and the whole word closes all. -/
def IsBalanced (w : List Symbol) : Prop :=
  (∀ p, p <+: w → p.count ')' ≤ p.count '(') ∧ w.count '(' = w.count ')'

instance (w : List Symbol) : Decidable (IsBalanced w) :=
  decidable_of_iff
    ((∀ p ∈ w.inits, p.count ')' ≤ p.count '(') ∧ w.count '(' = w.count ')')
    (by simp only [List.mem_inits, IsBalanced])

/-- The word closes what it opens and `depth` parentheses more, and never closes more than are
open. -/
def Closes (depth : Nat) (w : List Symbol) : Prop :=
  (∀ p, p <+: w → p.count ')' ≤ depth + p.count '(') ∧ depth + w.count '(' = w.count ')'

theorem closes_zero_iff : Closes 0 w ↔ IsBalanced w := by
  simp only [Closes, IsBalanced, Nat.zero_add]

/-- The prefixes of a longer word are the empty one, and those of its tail with the first symbol. -/
theorem forall_prefix_cons_iff {x : Symbol} {P : List Symbol → Prop} :
    (∀ p, p <+: x :: w → P p) ↔ P [] ∧ ∀ p, p <+: w → P (x :: p) := by
  constructor
  · intro h
    exact ⟨h [] List.nil_prefix, fun p hp => h (x :: p) (List.cons_prefix_cons.2 ⟨rfl, hp⟩)⟩
  · rintro ⟨empty, longer⟩ p hp
    rcases List.prefix_cons_iff.1 hp with rfl | ⟨t, rfl, ht⟩
    · exact empty
    · exact longer t ht

theorem closes_nil_iff {depth : Nat} : Closes depth [] ↔ depth = 0 := by
  simp [Closes]

theorem closes_open_iff {depth : Nat} : Closes depth ('(' :: w) ↔ Closes (depth + 1) w := by
  have raised : ∀ p : List Symbol, depth + (p.count '(' + 1) = depth + 1 + p.count '(' := by omega
  simp [Closes, forall_prefix_cons_iff, raised]

theorem closes_close_iff {depth : Nat} : Closes (depth + 1) (')' :: w) ↔ Closes depth w := by
  have lowered : ∀ p : List Symbol, depth + 1 + p.count '(' = depth + p.count '(' + 1 := by omega
  simp [Closes, forall_prefix_cons_iff, lowered]

theorem not_closes_zero_close : ¬ Closes 0 (')' :: w) := by
  intro h
  have first := h.1 [')'] ⟨w, rfl⟩
  exact absurd first (by decide)

/-- So many parentheses are open, and this is left to read. -/
def nested (depth : Nat) (rest : List Symbol) : Configuration :=
  ⟨⟨0⟩, rest, ⟨Automaton.balanced.stackAlphabet, List.replicate depth 'X' ++ ['Z']⟩⟩

/-- The stack counts the open parentheses. -/
theorem decides_nested (letters : ∀ x ∈ rest, x = '(' ∨ x = ')') (depth : Nat) :
    Automaton.balanced.Decides (nested depth rest) (2 * rest.length + 2) (Closes depth rest) := by
  induction rest generalizing depth with
  | nil =>
    cases depth with
    | zero =>
      exact (Decides.only rfl (.emptied rfl)).mono (Nat.le_refl 2) (by simp [closes_nil_iff])
    | succ depth =>
      exact (Decides.stuck (List.cons_ne_nil _ _) rfl).mono (by omega) (by simp [closes_nil_iff])
  | cons x rest ih =>
    obtain ⟨first, letters_rest⟩ := List.forall_mem_cons.1 letters
    rw [List.length_cons]
    rcases first with rfl | rfl
    · rw [closes_open_iff]
      have deeper := ih letters_rest (depth + 1)
      cases depth with
      | zero =>
        -- the bottom may also be dropped here, with a parenthesis left to read
        exact (Decides.fork rfl deeper (.emptied rfl)).mono (by omega) (by simp)
      | succ depth => exact (Decides.only rfl deeper).mono (by omega) Iff.rfl
    · cases depth with
      | zero =>
        -- there is nothing to close, and dropping the bottom leaves the parenthesis unread
        exact (Decides.only rfl (.emptied rfl)).mono (by omega) (by simp [not_closes_zero_close])
      | succ depth =>
        rw [closes_close_iff]
        exact (Decides.only rfl (ih letters_rest depth)).mono (by omega) Iff.rfl

/-- **The sample of balanced parentheses decides balance.** -/
theorem balancedParentheses_decides (letters : ∀ x ∈ w, x = '(' ∨ x = ')') {bound : Nat}
    (room : 2 * w.length + 2 < bound) :
    ∃ sample, find? "balanced-parentheses" = some sample ∧
      (IsBalanced w →
        (sample.automaton.run ⟨bound⟩ (Symbol.toText w)).verdict = .accepted) ∧
      (¬ IsBalanced w →
        (sample.automaton.run ⟨bound⟩ (Symbol.toText w)).verdict = .rejected) := by
  refine ⟨_, find?_balancedParentheses, ?_⟩
  have declared : ∀ x ∈ w, x ∈ Automaton.balanced.inputAlphabet := by
    intro x hx
    rcases letters x hx with rfl | rfl <;> decide
  have closed := (Definition.isBuilt_of_load load_balancedParentheses).closed
  rw [← closes_zero_iff]
  exact Automaton.verdict_of_decides closed declared (decides_nested letters 0) room

/-- `(()())` is accepted and `())(` rejected, each under the least bound that its length allows. -/
theorem balancedParentheses_decides_nested :
    IsBalanced "(()())".toList ∧ ¬ IsBalanced "())(".toList ∧
      ∃ sample, find? "balanced-parentheses" = some sample ∧
        (sample.automaton.run ⟨15⟩ "(()())").verdict = .accepted ∧
        (sample.automaton.run ⟨11⟩ "())(").verdict = .rejected := by
  have balanced : IsBalanced "(()())".toList := by decide
  have unbalanced : ¬ IsBalanced "())(".toList := by decide
  have letters : ∀ x ∈ "(()())".toList, x = '(' ∨ x = ')' := by simp
  have letters' : ∀ x ∈ "())(".toList, x = '(' ∨ x = ')' := by simp
  have room : 2 * "(()())".toList.length + 2 < 15 := by decide
  have room' : 2 * "())(".toList.length + 2 < 11 := by decide
  obtain ⟨sample, found, accepted, -⟩ := balancedParentheses_decides letters room
  obtain ⟨sample', found', -, rejected⟩ := balancedParentheses_decides letters' room'
  obtain rfl := Option.some.inj (found.symm.trans found')
  exact ⟨balanced, unbalanced, sample, found, accepted balanced, rejected unbalanced⟩

/-! ## Some `a`s and as many `b`s -/

/-- Some `a`s, and then as many `b`s and `lead` more. -/
def Exceeds (lead : Nat) (w : List Symbol) : Prop :=
  ∃ n, w = List.replicate n 'a' ++ List.replicate (n + lead) 'b'

theorem exceeds_nil_iff {lead : Nat} : Exceeds lead [] ↔ lead = 0 := by
  constructor
  · intro h
    obtain ⟨n, same⟩ := h
    have length := congrArg List.length same
    simp only [List.length_nil, List.length_append, List.length_replicate] at length
    omega
  · rintro rfl
    exact ⟨0, rfl⟩

theorem exceeds_a_iff {lead : Nat} : Exceeds lead ('a' :: w) ↔ Exceeds (lead + 1) w := by
  constructor
  · intro h
    obtain ⟨n, same⟩ := h
    cases n with
    | zero =>
      -- the word would be made of `b`s
      rw [List.replicate_zero, List.nil_append] at same
      have first : 'a' ∈ List.replicate (0 + lead) 'b' := same ▸ List.mem_cons_self ..
      exact absurd (List.eq_of_mem_replicate first) (by decide)
    | succ n =>
      refine ⟨n, ?_⟩
      rw [← Nat.add_assoc, Nat.add_right_comm]
      exact (List.cons.inj same).2
  · intro h
    obtain ⟨n, rfl⟩ := h
    refine ⟨n + 1, ?_⟩
    rw [← Nat.add_assoc, Nat.add_right_comm]
    rfl

theorem exceeds_b_iff {lead : Nat} :
    Exceeds lead ('b' :: w) ↔ 'b' :: w = List.replicate lead 'b' := by
  constructor
  · intro h
    obtain ⟨n, same⟩ := h
    cases n with
    | zero => rwa [Nat.zero_add] at same
    | succ n => exact absurd (List.cons.inj same).1 (by decide)
  · intro h
    exact ⟨0, by rwa [Nat.zero_add]⟩

/-- So many `a`s have been counted, and this is left to read in one of the two states. -/
def counted (q : StateId) (count : Nat) (rest : List Symbol) : Configuration :=
  ⟨q, rest, ⟨anbnAutomaton.stackAlphabet, List.replicate count 'A' ++ ['Z']⟩⟩

/-- With the count at zero, the second state drops the bottom. -/
theorem decides_bottom (letters : ∀ x ∈ rest, x = 'a' ∨ x = 'b') :
    anbnAutomaton.Decides (counted ⟨1⟩ 0 rest) 2 (rest = []) := by
  cases rest with
  | nil => exact .only rfl (.emptied rfl)
  | cons x rest =>
    rcases letters x (List.mem_cons_self ..) with rfl | rfl
    · exact .only rfl (.emptied rfl)
    · exact .only rfl (.emptied rfl)

/-- The second state reads as many `b`s as have been counted. -/
theorem decides_matching (letters : ∀ x ∈ rest, x = 'a' ∨ x = 'b') (count : Nat) :
    anbnAutomaton.Decides (counted ⟨1⟩ count rest) (rest.length + 2)
      (rest = List.replicate count 'b') := by
  induction rest generalizing count with
  | nil =>
    cases count with
    | zero => exact decides_bottom letters
    | succ count =>
      exact (Decides.stuck (List.cons_ne_nil _ _) rfl).mono (by omega) (by simp)
  | cons x rest ih =>
    obtain ⟨first, letters_rest⟩ := List.forall_mem_cons.1 letters
    cases count with
    | zero => exact (decides_bottom letters).mono (by omega) Iff.rfl
    | succ count =>
      rcases first with rfl | rfl
      · exact (Decides.stuck (List.cons_ne_nil _ _) rfl).mono (by omega)
          (by simp [List.replicate_succ])
      · exact (Decides.only rfl (ih letters_rest count)).mono (by simp)
          (by simp [List.replicate_succ])

/-- The first state, once it has counted something, waits for the lead in `b`s. -/
theorem decides_counting (letters : ∀ x ∈ rest, x = 'a' ∨ x = 'b') (count : Nat) :
    anbnAutomaton.Decides (counted ⟨0⟩ (count + 1) rest) (rest.length + 2)
      (Exceeds (count + 1) rest) := by
  induction rest generalizing count with
  | nil =>
    exact (Decides.stuck (List.cons_ne_nil _ _) rfl).mono (by omega) (by simp [exceeds_nil_iff])
  | cons x rest ih =>
    obtain ⟨first, letters_rest⟩ := List.forall_mem_cons.1 letters
    rcases first with rfl | rfl
    · rw [exceeds_a_iff]
      exact (Decides.only rfl (ih letters_rest (count + 1))).mono (by simp) Iff.rfl
    · rw [exceeds_b_iff]
      exact (Decides.only rfl (decides_matching letters_rest count)).mono (by simp)
        (by simp [List.replicate_succ])

/-- At the start the first state may also give up counting. -/
theorem decides_anbn (letters : ∀ x ∈ w, x = 'a' ∨ x = 'b') :
    anbnAutomaton.Decides (counted ⟨0⟩ 0 w) (w.length + 4) (Exceeds 0 w) := by
  have given_up := decides_bottom letters
  cases w with
  | nil => exact (Decides.only rfl given_up).mono (by simp) (by simp [exceeds_nil_iff])
  | cons x w =>
    obtain ⟨first, letters_rest⟩ := List.forall_mem_cons.1 letters
    rcases first with rfl | rfl
    · rw [exceeds_a_iff]
      -- whoever gives up here has the whole word left to read
      exact (Decides.fork rfl (decides_counting letters_rest 0) given_up).mono (by simp) (by simp)
    · rw [exceeds_b_iff]
      exact (Decides.only rfl given_up).mono (by simp) Iff.rfl

/-- **The sample `anbn` decides its language.** -/
theorem anbn_decides (letters : ∀ x ∈ w, x = 'a' ∨ x = 'b') {bound : Nat}
    (room : w.length + 4 < bound) :
    ∃ sample, find? "anbn" = some sample ∧
      ((∃ n, w = List.replicate n 'a' ++ List.replicate n 'b') →
        (sample.automaton.run ⟨bound⟩ (Symbol.toText w)).verdict = .accepted) ∧
      ((¬ ∃ n, w = List.replicate n 'a' ++ List.replicate n 'b') →
        (sample.automaton.run ⟨bound⟩ (Symbol.toText w)).verdict = .rejected) := by
  refine ⟨_, find?_anbn, ?_⟩
  have declared : ∀ x ∈ w, x ∈ anbnAutomaton.inputAlphabet := by
    intro x hx
    rcases letters x hx with rfl | rfl <;> decide
  have closed := (Definition.isBuilt_of_load load_anbn).closed
  exact Automaton.verdict_of_decides closed declared (decides_anbn letters) room

/-- `aabb` is accepted and `abb` rejected, each under the least bound that its length allows. -/
theorem anbn_decides_aabb :
    (∃ n, "aabb".toList = List.replicate n 'a' ++ List.replicate n 'b') ∧
      (¬ ∃ n, "abb".toList = List.replicate n 'a' ++ List.replicate n 'b') ∧
      ∃ sample, find? "anbn" = some sample ∧
        (sample.automaton.run ⟨9⟩ "aabb").verdict = .accepted ∧
        (sample.automaton.run ⟨8⟩ "abb").verdict = .rejected := by
  have letters : ∀ x ∈ "aabb".toList, x = 'a' ∨ x = 'b' := by simp
  have letters' : ∀ x ∈ "abb".toList, x = 'a' ∨ x = 'b' := by simp
  have room : "aabb".toList.length + 4 < 9 := by decide
  have room' : "abb".toList.length + 4 < 8 := by decide
  have counts : ∃ n, "aabb".toList = List.replicate n 'a' ++ List.replicate n 'b' :=
    ⟨2, by decide⟩
  have uneven : ¬ ∃ n, "abb".toList = List.replicate n 'a' ++ List.replicate n 'b' := by
    rintro ⟨n, same⟩
    have length : 3 = _ := congrArg List.length same
    simp only [List.length_append, List.length_replicate] at length
    omega
  obtain ⟨sample, found, accepted, -⟩ := anbn_decides letters room
  obtain ⟨sample', found', -, rejected⟩ := anbn_decides letters' room'
  obtain rfl := Option.some.inj (found.symm.trans found')
  exact ⟨counts, uneven, sample, found, accepted counts, rejected uneven⟩

/-! ## Palindromes of even length -/

/-- Some word, its reverse, and then `pushed`. -/
def Mirrors (pushed w : List Symbol) : Prop := ∃ u, w = u ++ (u.reverse ++ pushed)

theorem mirrors_nil_iff {pushed : List Symbol} : Mirrors pushed [] ↔ [] = pushed := by
  constructor
  · intro h
    obtain ⟨u, same⟩ := h
    obtain ⟨-, tail⟩ := List.append_eq_nil_iff.1 same.symm
    exact (List.append_eq_nil_iff.1 tail).2.symm
  · intro h
    exact ⟨[], h⟩

theorem mirrors_cons_iff {x : Symbol} {pushed : List Symbol} :
    Mirrors pushed (x :: w) ↔ Mirrors (x :: pushed) w ∨ x :: w = pushed := by
  constructor
  · intro h
    obtain ⟨u, same⟩ := h
    cases u with
    | nil => exact Or.inr same
    | cons y u =>
      obtain ⟨rfl, tail⟩ := List.cons.inj same
      exact Or.inl ⟨u, by simpa using tail⟩
  · intro h
    rcases h with ⟨u, rfl⟩ | same
    · exact ⟨x :: u, by simp⟩
    · exact ⟨[], same⟩

/-- What stands on the stack for a letter. -/
def mark (x : Symbol) : Symbol := if x = 'a' then 'A' else 'B'

/-- These letters have been put on the stack, the last one first, and this is left to read in one of
the two states. -/
def marked (q : StateId) (pushed rest : List Symbol) : Configuration :=
  ⟨q, rest, ⟨evenPalindromeAutomaton.stackAlphabet, pushed.map mark ++ ['Z']⟩⟩

/-- The second state reads what was pushed. -/
theorem decides_popping {pushed : List Symbol} (letters : ∀ x ∈ rest, x = 'a' ∨ x = 'b')
    (letters_pushed : ∀ x ∈ pushed, x = 'a' ∨ x = 'b') :
    evenPalindromeAutomaton.Decides (marked ⟨1⟩ pushed rest) (rest.length + 2)
      (rest = pushed) := by
  induction pushed generalizing rest with
  | nil =>
    have one : evenPalindromeAutomaton.children (marked ⟨1⟩ [] rest) =
        [⟨⟨1⟩, rest, ⟨evenPalindromeAutomaton.stackAlphabet, []⟩⟩] := by
      cases rest with
      | nil => rfl
      | cons x rest =>
        rcases letters x (List.mem_cons_self ..) with rfl | rfl
        · rfl
        · rfl
    exact (Decides.only one (.emptied rfl)).mono (by omega) Iff.rfl
  | cons y pushed ih =>
    obtain ⟨top, letters_below⟩ := List.forall_mem_cons.1 letters_pushed
    cases rest with
    | nil =>
      have none : evenPalindromeAutomaton.children (marked ⟨1⟩ (y :: pushed) []) = [] := by
        rcases top with rfl | rfl
        · rfl
        · rfl
      exact (Decides.stuck (List.cons_ne_nil _ _) none).mono (by omega) (by simp)
    | cons x rest =>
      obtain ⟨first, letters_rest⟩ := List.forall_mem_cons.1 letters
      have matched := ih letters_rest letters_below
      rcases first with rfl | rfl
      · rcases top with rfl | rfl
        · exact (Decides.only rfl matched).mono (by simp) (by simp)
        · exact (Decides.stuck (List.cons_ne_nil _ _) rfl).mono (by omega) (by simp)
      · rcases top with rfl | rfl
        · exact (Decides.stuck (List.cons_ne_nil _ _) rfl).mono (by omega) (by simp)
        · exact (Decides.only rfl matched).mono (by simp) (by simp)

/-- The first state pushes the next letter, or takes this for the middle of the word. -/
theorem children_pushing {x : Symbol} {pushed : List Symbol} (first : x = 'a' ∨ x = 'b')
    (letters_pushed : ∀ x ∈ pushed, x = 'a' ∨ x = 'b') :
    evenPalindromeAutomaton.children (marked ⟨0⟩ pushed (x :: rest)) =
      [marked ⟨0⟩ (x :: pushed) rest, marked ⟨1⟩ pushed (x :: rest)] := by
  cases pushed with
  | nil =>
    rcases first with rfl | rfl
    · rfl
    · rfl
  | cons y pushed =>
    rcases first with rfl | rfl <;> rcases letters_pushed y (List.mem_cons_self ..) with rfl | rfl
    all_goals rfl

/-- At the end of the word the first state can only take this for the middle. -/
theorem children_pushing_nil {pushed : List Symbol}
    (letters_pushed : ∀ x ∈ pushed, x = 'a' ∨ x = 'b') :
    evenPalindromeAutomaton.children (marked ⟨0⟩ pushed []) = [marked ⟨1⟩ pushed []] := by
  cases pushed with
  | nil => rfl
  | cons y pushed =>
    rcases letters_pushed y (List.mem_cons_self ..) with rfl | rfl
    · rfl
    · rfl

/-- Every place of the word is tried for its middle, and each try reads at most what is left. -/
theorem decides_pushing {pushed : List Symbol} (letters : ∀ x ∈ rest, x = 'a' ∨ x = 'b')
    (letters_pushed : ∀ x ∈ pushed, x = 'a' ∨ x = 'b') :
    evenPalindromeAutomaton.Decides (marked ⟨0⟩ pushed rest) ((rest.length + 2) ^ 2)
      (Mirrors pushed rest) := by
  have middle := decides_popping letters letters_pushed
  induction rest generalizing pushed with
  | nil =>
    rw [mirrors_nil_iff]
    exact (Decides.only (children_pushing_nil letters_pushed) middle).mono (by simp) Iff.rfl
  | cons x rest ih =>
    obtain ⟨first, letters_rest⟩ := List.forall_mem_cons.1 letters
    have letters_more : ∀ y ∈ x :: pushed, y = 'a' ∨ y = 'b' :=
      List.forall_mem_cons.2 ⟨first, letters_pushed⟩
    have square : (rest.length + 1 + 2) ^ 2 =
        (rest.length + 2) ^ 2 + 2 * (rest.length + 2) + 1 := by ring
    have later := ih letters_rest letters_more (decides_popping letters_rest letters_more)
    rw [mirrors_cons_iff]
    refine (Decides.fork (children_pushing first letters_pushed) later middle).mono ?_ Iff.rfl
    rw [List.length_cons, square]
    omega

/-- **The sample of palindromes decides its language.** -/
theorem evenPalindrome_decides (letters : ∀ x ∈ w, x = 'a' ∨ x = 'b') {bound : Nat}
    (room : (w.length + 2) ^ 2 < bound) :
    ∃ sample, find? "even-palindrome" = some sample ∧
      ((∃ u, w = u ++ u.reverse) →
        (sample.automaton.run ⟨bound⟩ (Symbol.toText w)).verdict = .accepted) ∧
      ((¬ ∃ u, w = u ++ u.reverse) →
        (sample.automaton.run ⟨bound⟩ (Symbol.toText w)).verdict = .rejected) := by
  refine ⟨_, find?_evenPalindrome, ?_⟩
  have declared : ∀ x ∈ w, x ∈ evenPalindromeAutomaton.inputAlphabet := by
    intro x hx
    rcases letters x hx with rfl | rfl <;> decide
  have closed := (Definition.isBuilt_of_load load_evenPalindrome).closed
  have decided : evenPalindromeAutomaton.Decides (marked ⟨0⟩ [] w) ((w.length + 2) ^ 2)
      (∃ u, w = u ++ u.reverse) :=
    (decides_pushing letters (fun x hx => absurd hx List.not_mem_nil)).mono (Nat.le_refl _)
      (by simp [Mirrors])
  exact Automaton.verdict_of_decides closed declared decided room

/-- `abba` is accepted and `abab` rejected, under the least bound that their length allows. -/
theorem evenPalindrome_decides_abba :
    (∃ u : List Symbol, "abba".toList = u ++ u.reverse) ∧
      (¬ ∃ u : List Symbol, "abab".toList = u ++ u.reverse) ∧
      ∃ sample, find? "even-palindrome" = some sample ∧
        (sample.automaton.run ⟨37⟩ "abba").verdict = .accepted ∧
        (sample.automaton.run ⟨37⟩ "abab").verdict = .rejected := by
  have letters : ∀ x ∈ "abba".toList, x = 'a' ∨ x = 'b' := by simp
  have letters' : ∀ x ∈ "abab".toList, x = 'a' ∨ x = 'b' := by simp
  have room : ("abba".toList.length + 2) ^ 2 < 37 := by decide
  have room' : ("abab".toList.length + 2) ^ 2 < 37 := by decide
  have palindrome : ∃ u : List Symbol, "abba".toList = u ++ u.reverse := ⟨['a', 'b'], by decide⟩
  have uneven : ¬ ∃ u : List Symbol, "abab".toList = u ++ u.reverse := by
    -- such a word reads the same backwards
    rintro ⟨u, same⟩
    have mirrored := congrArg List.reverse same
    rw [List.reverse_append, List.reverse_reverse, ← same] at mirrored
    exact absurd mirrored (by decide)
  obtain ⟨sample, found, accepted, -⟩ := evenPalindrome_decides letters room
  obtain ⟨sample', found', -, rejected⟩ := evenPalindrome_decides letters' room'
  obtain rfl := Option.some.inj (found.symm.trans found')
  exact ⟨palindrome, uneven, sample, found, accepted palindrome, rejected uneven⟩

end Pushdown.Sample
