import Mathlib.Data.List.Forall2
import Pushdown.Proofs.Search.Reachability

/-!
# Searches in lockstep

Two searches cannot be told apart if there is a relation between their configurations that makes
related configurations end alike and have related children, in the same order (`Lockstep`). The
lines of the two searches are then related place by place after every step:

> `Lockstep.traverse`: from related lines and with the same room, the nodes visited are related one
> by one, and the two traversals end for the same reason;
> `Lockstep.run_eq`, `Lockstep.observed`: so two runs have one answer, and what an observer is shown
> of them is related.

The first use is within one automaton. A symbol is looked at only when everything before it has been
read. Configurations of runs on two tapes that agree up to a symbol that cannot be read, and differ
in what comes after it (`AgreeUpTo`), are in lockstep, for neither search ever gets beyond that
symbol:

> `undeclared_input_conservative`: a tape with a symbol that cannot be read is never accepted, can
> only fail on the first such symbol, and is answered alike whatever comes after that symbol; a tape
> without one never fails on a symbol.
-/

namespace Pushdown.Automaton

open Search (observed)

variable {a b : Automaton} {R : Configuration → Configuration → Prop}

/-- A relation between configurations of two automata that no step of the two searches breaks:
related configurations are accepting together, are blocked on the same symbol, and have related
children, one by one. -/
structure Lockstep (a b : Automaton) (R : Configuration → Configuration → Prop) : Prop where
  accepting_iff {c d : Configuration} : R c d → (c.IsAccepting ↔ d.IsAccepting)
  blockedOn?_eq {c d : Configuration} : R c d → a.blockedOn? c = b.blockedOn? d
  children {c d : Configuration} : R c d → List.Forall₂ R (a.children c) (b.children d)

namespace Lockstep

/-- From related lines the same number of nodes is visited, related one by one, and the end is the
same. -/
theorem traverse (h : Lockstep a b R) (limit : Nat) {xs ys : List Configuration}
    (line : List.Forall₂ R xs ys) :
    List.Forall₂ R (a.traverse limit xs).visited (b.traverse limit ys).visited ∧
      (a.traverse limit xs).ending = (b.traverse limit ys).ending := by
  fun_induction Automaton.traverse a limit xs generalizing ys with
  | case1 limit =>
    cases line
    rw [traverse_nil]
    exact ⟨.nil, rfl⟩
  | case2 c xs =>
    cases line with
    | cons related rest => exact ⟨.nil, rfl⟩
  | case3 limit c xs accepting =>
    cases line with
    | cons related rest =>
      rw [traverse_of_isAccepting ((h.accepting_iff related).1 accepting)]
      exact ⟨.cons related .nil, rfl⟩
  | case4 limit c xs _ x blocked =>
    cases line with
    | cons related rest =>
      rw [h.blockedOn?_eq related] at blocked
      rw [traverse_of_isBlockedOn (blockedOn?_eq_some_iff.1 blocked)]
      exact ⟨.cons related .nil, rfl⟩
  | case5 limit c xs not_accepting not_blocked ih =>
    cases line with
    | @cons _ d _ ys related rest =>
      have opened : b.IsOpen d := by
        rw [isOpen_iff, ← h.accepting_iff related, ← h.blockedOn?_eq related]
        exact ⟨not_accepting, not_blocked⟩
      -- the children join the line at its end on both sides
      obtain ⟨visited, ending⟩ := ih (List.rel_append rest (h.children related))
      rw [traverse_of_isOpen opened]
      exact ⟨.cons related visited, ending⟩

variable {input input' : String}

theorem traversalOf (h : Lockstep a b R)
    (start : R (a.initialConfiguration input) (b.initialConfiguration input')) (limits : Limits) :
    List.Forall₂ R (a.traversalOf limits input).visited (b.traversalOf limits input').visited ∧
      (a.traversalOf limits input).ending = (b.traversalOf limits input').ending :=
  h.traverse _ (.cons start .nil)

/-- Two runs in lockstep have one answer. -/
theorem run_eq (h : Lockstep a b R) (closed_a : a.Closed) (closed_b : b.Closed)
    (declared : a.inputAlphabet = b.inputAlphabet)
    (start : R (a.initialConfiguration input) (b.initialConfiguration input')) (limits : Limits) :
    a.run limits input = b.run limits input' := by
  obtain ⟨visited, ending⟩ := h.traversalOf start limits
  have taken : (a.traversalOf limits input).taken = (b.traversalOf limits input').taken := by
    rw [Traversal.taken, Traversal.taken, visited.length_eq, ending]
  have verdict (e : Ending) :
      a.verdictOf limits.maxTransitions e = b.verdictOf limits.maxTransitions e := by
    cases e with
    | blocked x => rw [verdictOf, verdictOf, declared]
    | accepted => rfl
    | exhausted => rfl
    | cutOff => rfl
  rw [Automaton.run_eq closed_a, Automaton.run_eq closed_b, executionOf, executionOf, verdict,
    ending, taken]

/-- What is shown of two runs in lockstep is related, one by one. -/
theorem observed (h : Lockstep a b R) (closed_a : a.Closed) (closed_b : b.Closed)
    (start : R (a.initialConfiguration input) (b.initialConfiguration input')) (limits : Limits) :
    List.Forall₂ R (observed (a.events limits input)) (observed (b.events limits input')) := by
  rw [events_eq closed_a, events_eq closed_b, observed_course, observed_course]
  exact (h.traversalOf start limits).1

end Lockstep

/-! ## Tapes that agree up to a symbol that cannot be read -/

/-- Two configurations that differ at most in what comes after a symbol that is still on the
input. -/
inductive AgreeUpTo (x : Symbol) (after other : List Symbol) :
    Configuration → Configuration → Prop where
  | mk (q : StateId) (unread : List Symbol) (stack : Stack) :
    AgreeUpTo x after other ⟨q, unread ++ x :: after, stack⟩ ⟨q, unread ++ x :: other, stack⟩

variable {x : Symbol} {after other : List Symbol}

/-- Outcomes under one key lead to configurations that agree, if what is left of the input does. -/
theorem agreeUpTo_successorsUnder (q : StateId) (consumed top : Symbol) (below : List Symbol)
    (stack : Stack) (input input' unread : List Symbol) :
    List.Forall₂ (AgreeUpTo x after other)
      ((a.successorsUnder ⟨q, input, stack⟩ consumed top below (unread ++ x :: after)).map
        (·.configuration))
      ((a.successorsUnder ⟨q, input', stack⟩ consumed top below (unread ++ x :: other)).map
        (·.configuration)) := by
  unfold successorsUnder
  rw [List.map_map, List.map_map, List.forall₂_map_left_iff, List.forall₂_map_right_iff,
    List.forall₂_same]
  intro o _
  exact .mk o.target unread _

/-- Where a symbol cannot be read, what comes after it makes no difference. -/
theorem lockstep_agreeUpTo (unreadable : ¬ a.Reads x) :
    Lockstep a a (AgreeUpTo x after other) where
  accepting_iff related := by
    obtain ⟨q, unread, stack⟩ := related
    have unread_left (rest : List Symbol) : unread ++ x :: rest ≠ [] := by simp
    exact ⟨fun h => absurd h.1 (unread_left after), fun h => absurd h.1 (unread_left other)⟩
  blockedOn?_eq related := by
    obtain ⟨q, unread, stack⟩ := related
    have next : (unread ++ x :: after).head? = (unread ++ x :: other).head? := by
      cases unread with
      | nil => rfl
      | cons y unread => rfl
    unfold blockedOn?
    rw [next]
  children related := by
    obtain ⟨q, unread, alphabet, symbols⟩ := related
    cases symbols with
    | nil => exact .nil
    | cons top below =>
      cases unread with
      | nil =>
        -- both stand before the symbol that cannot be read
        have stuck (rest : List Symbol) :
            a.children ⟨q, x :: rest, alphabet, top :: below⟩ = [] := by
          have blocked : a.IsBlockedOn ⟨q, x :: rest, alphabet, top :: below⟩ x :=
            ⟨List.cons_ne_nil _ _, rfl, fun h => unreadable (.inl h), fun h => unreadable (.inr h)⟩
          rw [children, successors_of_isBlockedOn blocked, List.map_nil]
        show List.Forall₂ _ (a.children ⟨q, x :: after, _⟩) (a.children ⟨q, x :: other, _⟩)
        rw [stuck, stuck]
        exact .nil
      | cons y unread =>
        simp only [children, successors, List.cons_append]
        split
        · exact agreeUpTo_successorsUnder ..
        · split
          · rw [List.map_append, List.map_append]
            exact List.rel_append (agreeUpTo_successorsUnder ..)
              (agreeUpTo_successorsUnder q Symbol.epsilon top below _ _ _ (y :: unread))
          · exact .nil

/-- A tape, cut at a symbol of it. -/
theorem ofText_cut (before : String) (x : Symbol) (after : String) :
    Symbol.ofText (before ++ String.singleton x ++ after) =
      Symbol.ofText before ++ x :: Symbol.ofText after := by
  simp [Symbol.ofText]

/-- **Looking at the input lazily is safe**: a symbol that cannot be read never leads to acceptance,
it is the only one that a run can fail on, and what comes after it is never looked at. -/
theorem undeclared_input_conservative (h : a.IsBuilt) (limits : Limits) :
    (∀ (before : String) (x : Symbol) (after : String),
      (∀ y ∈ Symbol.ofText before, a.Reads y) → ¬ a.Reads x →
        (a.run limits (before ++ String.singleton x ++ after)).verdict ≠ .accepted ∧
        (∀ y alphabet, (a.run limits (before ++ String.singleton x ++ after)).verdict =
          .failed (.undeclaredInput y alphabet) → y = x ∧ alphabet = a.inputAlphabet) ∧
        ∀ other, a.run limits (before ++ String.singleton x ++ after) =
          a.run limits (before ++ String.singleton x ++ other)) ∧
    (∀ input, (∀ y ∈ Symbol.ofText input, a.Reads y) → ∀ y alphabet,
      (a.run limits input).verdict ≠ .failed (.undeclaredInput y alphabet)) := by
  have closed := h.closed
  refine ⟨fun before x after all_before unreadable => ⟨?_, ?_, ?_⟩, ?_⟩
  · intro accepted
    obtain ⟨c, reached, accepting⟩ := reaches_of_run_accepted closed accepted
    obtain ⟨read, tape, all_read⟩ := reached.read
    rw [accepting.1, List.append_nil, initialConfiguration, ofText_cut] at tape
    exact unreadable (all_read x (tape ▸ by simp))
  · intro y alphabet failed
    obtain ⟨declared, c, reached, blocked⟩ := reaches_of_run_blocked closed failed
    obtain ⟨read, rest, tape, all_read, unread⟩ := reached.first_unread blocked
    rw [initialConfiguration, ofText_cut] at tape
    exact ⟨first_unread_unique all_read unread all_before unreadable tape.symm, declared⟩
  · intro other
    have start : AgreeUpTo x (Symbol.ofText after) (Symbol.ofText other)
        (a.initialConfiguration (before ++ String.singleton x ++ after))
        (a.initialConfiguration (before ++ String.singleton x ++ other)) := by
      rw [initialConfiguration, initialConfiguration, ofText_cut, ofText_cut]
      exact .mk a.initialState (Symbol.ofText before) _
    exact (lockstep_agreeUpTo unreadable).run_eq closed closed rfl start limits
  · intro input readable y alphabet failed
    obtain ⟨-, c, reached, blocked⟩ := reaches_of_run_blocked closed failed
    obtain ⟨read, rest, tape, -, unread⟩ := reached.first_unread blocked
    have on_tape : y ∈ Symbol.ofText input := by
      rw [show Symbol.ofText input = read ++ y :: rest from tape]
      simp
    exact unread (readable y on_tape)

/-- Calls with an `x` between them are answered alike whatever comes after the `x`; without it they
are accepted. -/
theorem undeclared_input_conservative_balanced :
    balanced.IsBuilt ∧ (∀ y ∈ Symbol.ofText "()(", balanced.Reads y) ∧ ¬ balanced.Reads 'x' ∧
      (balanced.run ⟨20⟩ "()(x)").verdict = .failed (.undeclaredInput 'x' balanced.inputAlphabet) ∧
      (∀ other, balanced.run ⟨20⟩ ("()(" ++ String.singleton 'x' ++ other) =
        balanced.run ⟨20⟩ "()(x)") ∧
      (∀ y ∈ Symbol.ofText "()()", balanced.Reads y) ∧
      ∀ y alphabet, (balanced.run ⟨20⟩ "()()").verdict ≠ .failed (.undeclaredInput y alphabet) := by
  have calls_read : ∀ text : String, ((Symbol.ofText text).all fun y => y == '(' || y == ')') →
      ∀ y ∈ Symbol.ofText text, balanced.Reads y := by
    intro text calls y hy
    have call := List.all_eq_true.1 calls y hy
    rw [Bool.or_eq_true, beq_iff_eq, beq_iff_eq] at call
    rcases call with rfl | rfl
    · exact .inr (by decide)
    · exact .inr (by decide)
  have unreadable : ¬ balanced.Reads 'x' := by
    rintro (h | h)
    · exact absurd h (by decide)
    · exact absurd h (by decide)
  obtain ⟨cut, whole⟩ := undeclared_input_conservative balanced_isBuilt ⟨20⟩
  have before := calls_read "()(" (by decide)
  have readable := calls_read "()()" (by decide)
  obtain ⟨-, -, alike⟩ := cut "()(" 'x' ")" before unreadable
  exact ⟨balanced_isBuilt, before, unreadable, by decide, fun other => (alike other).symm, readable,
    whole "()()" readable⟩

end Pushdown.Automaton
