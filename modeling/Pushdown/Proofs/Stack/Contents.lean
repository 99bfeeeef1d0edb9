import Pushdown.Stack

/-!
# What stacks hold

A stack is worked on by pushing a symbol, pushing a sequence and popping. Any of these may fail, and
a sequence that is refused has been pushed in part. Still a stack only ever holds symbols of its
alphabet, and what is on it can be told from the sequence:

> `pushAll_of_declared`, `pushAll_of_refused`: what pushing a sequence adds, be it all pushed or
> refused at some symbol;
> `Declared.pushAll_law`: from every stack that holds only what its alphabet has, a sequence leads to
> such a stack again, it is refused exactly for a symbol outside the alphabet, and popping takes away
> what was added;
> `Declared.perform`: no call puts anything on a stack that is not in its alphabet;
> `contents_after_calls`: hence the same of every stack that calls lead to.

That the alphabet is without the empty symbol is nowhere needed: it is never put on a stack.
-/

namespace Pushdown.Stack

/-! ## Pushing a sequence -/

/-- Whether pushing a symbol on a stack over an alphabet is not refused. -/
def Accepts (a : Alphabet) (x : Symbol) : Prop := x ≠ Symbol.epsilon → x ∈ a

/-- A sequence is pushed from its end up to the last symbol that is refused. -/
theorem pushAll_of_refused {s : Stack} {x : Symbol} {rest : List Symbol}
    (refused : ¬ Accepts s.alphabet x) (accepted : ∀ y ∈ rest, Accepts s.alphabet y)
    (front : List Symbol) :
    s.pushAll (front ++ x :: rest) =
      ({ s with symbols := Symbol.withoutEpsilon rest ++ s.symbols },
        some (.undeclaredSymbol .stored x s.alphabet)) := by
  induction front with
  | nil =>
    obtain ⟨proper, undeclared⟩ := Classical.not_imp.1 refused
    rw [List.nil_append, pushAll_cons, pushAll_of_declared accepted]
    simp only [push_of_not_mem (s := { s with symbols := Symbol.withoutEpsilon rest ++ s.symbols })
      proper undeclared]
  | cons y front ih => rw [List.cons_append, pushAll_cons, ih]

/-- Unless all symbols of a sequence are accepted, one of them is the last that is not. -/
theorem exists_last_refused {a : Alphabet} {sequence : List Symbol}
    (h : ¬ ∀ x ∈ sequence, Accepts a x) :
    ∃ front x rest, sequence = front ++ x :: rest ∧ ¬ Accepts a x ∧ ∀ y ∈ rest, Accepts a y := by
  induction sequence with
  | nil => exact absurd (fun x hx => absurd hx List.not_mem_nil) h
  | cons y sequence ih =>
    by_cases later : ∀ x ∈ sequence, Accepts a x
    · refine ⟨[], y, sequence, rfl, fun accepted => h ?_, later⟩
      exact List.forall_mem_cons.2 ⟨accepted, later⟩
    · obtain ⟨front, x, rest, rfl, refused, accepted⟩ := ih later
      exact ⟨y :: front, x, rest, rfl, refused, accepted⟩

/-! ## Popping -/

/-- Pops symbols, the uppermost first, as long as there are any and up to a number of them. -/
def popMany (s : Stack) : (n : Nat) → List Symbol × Stack
  | 0 => ([], s)
  | n + 1 =>
    match s.pop? with
    | none => ([], s)
    | some (x, t) =>
      let (more, u) := t.popMany n
      (x :: more, u)

/-- Whether a stack is another one with some symbols put on top, and popping as many gives these
and the other stack again. -/
structure Adds (s t : Stack) (added : List Symbol) : Prop where
  alphabet_eq : t.alphabet = s.alphabet
  symbols_eq : t.symbols = added ++ s.symbols
  popMany_eq : t.popMany (t.size - s.size) = (added, s)

theorem popMany_append (a : Alphabet) (added old : List Symbol) :
    popMany ⟨a, added ++ old⟩ added.length = (added, ⟨a, old⟩) := by
  induction added with
  | nil => rfl
  | cons x added ih =>
    show (x :: (popMany ⟨a, added ++ old⟩ added.length).1,
      (popMany ⟨a, added ++ old⟩ added.length).2) = _
    rw [ih]

theorem adds_append (s : Stack) (added : List Symbol) :
    s.Adds { s with symbols := added ++ s.symbols } added where
  alphabet_eq := rfl
  symbols_eq := rfl
  popMany_eq := by
    have size : (added ++ s.symbols).length - s.symbols.length = added.length := by
      rw [List.length_append, Nat.add_sub_cancel]
    show popMany _ ((added ++ s.symbols).length - s.symbols.length) = _
    rw [size]
    exact popMany_append s.alphabet added s.symbols

/-- What pushing a sequence does, whether it is refused or not. -/
theorem pushAll_cases (s : Stack) (sequence : List Symbol) :
    ((∀ x ∈ sequence, Accepts s.alphabet x) ∧ (s.pushAll sequence).2 = none ∧
      s.Adds (s.pushAll sequence).1 (Symbol.withoutEpsilon sequence)) ∨
    ∃ front x rest, sequence = front ++ x :: rest ∧ ¬ Accepts s.alphabet x ∧
      (∀ y ∈ rest, Accepts s.alphabet y) ∧
      (s.pushAll sequence).2 = some (.undeclaredSymbol .stored x s.alphabet) ∧
      s.Adds (s.pushAll sequence).1 (Symbol.withoutEpsilon rest) := by
  by_cases all : ∀ x ∈ sequence, Accepts s.alphabet x
  · refine .inl ⟨all, ?_⟩
    rw [pushAll_of_declared all]
    exact ⟨rfl, s.adds_append _⟩
  · obtain ⟨front, x, rest, rfl, refused, accepted⟩ := exists_last_refused all
    refine .inr ⟨front, x, rest, rfl, refused, accepted, ?_⟩
    rw [pushAll_of_refused refused accepted]
    exact ⟨rfl, s.adds_append _⟩

/-! ## Declared contents -/

/-- Whether a stack holds nothing but symbols of an alphabet, which is its own. -/
structure Declared (a : Alphabet) (s : Stack) : Prop where
  alphabet_eq : s.alphabet = a
  declared : ∀ x ∈ s.symbols, x ∈ a ∧ x ≠ Symbol.epsilon

variable {a : Alphabet} {s t : Stack}

theorem declared_empty (a : Alphabet) : (empty a).Declared a :=
  ⟨rfl, fun _ hx => absurd hx List.not_mem_nil⟩

/-- Symbols that are accepted leave symbols of the alphabet. -/
theorem Declared.adds (h : s.Declared a) {sequence : List Symbol}
    (accepted : ∀ x ∈ sequence, Accepts s.alphabet x)
    (adds : s.Adds t (Symbol.withoutEpsilon sequence)) : t.Declared a where
  alphabet_eq := adds.alphabet_eq.trans h.alphabet_eq
  declared := by
    intro x hx
    rw [adds.symbols_eq] at hx
    rcases List.mem_append.1 hx with new | old
    · obtain ⟨mem, proper⟩ := Symbol.mem_withoutEpsilon.1 new
      exact ⟨h.alphabet_eq ▸ accepted x mem proper, proper⟩
    · exact h.declared x old

/-- What pushing a sequence does to a stack that holds only symbols of its alphabet. -/
theorem Declared.pushAll_law (h : s.Declared a) (sequence : List Symbol) :
    (s.pushAll sequence).1.Declared a ∧
      ((s.pushAll sequence).2 = none ↔ ∀ x ∈ sequence, x ≠ Symbol.epsilon → x ∈ a) ∧
      ((s.pushAll sequence).2 = none →
        s.Adds (s.pushAll sequence).1 (Symbol.withoutEpsilon sequence)) ∧
      ∀ fault, (s.pushAll sequence).2 = some fault →
        ∃ front x rest, sequence = front ++ x :: rest ∧ x ≠ Symbol.epsilon ∧ ¬ x ∈ a ∧
          (∀ y ∈ rest, y ≠ Symbol.epsilon → y ∈ a) ∧
          fault = .undeclaredSymbol .stored x a ∧
          s.Adds (s.pushAll sequence).1 (Symbol.withoutEpsilon rest) := by
  obtain rfl := h.alphabet_eq
  rcases s.pushAll_cases sequence with
    ⟨accepted, none, adds⟩ | ⟨front, x, rest, rfl, refused, accepted, some, adds⟩
  · refine ⟨h.adds accepted adds, ⟨fun _ => accepted, fun _ => none⟩, fun _ => adds,
      fun fault h => ?_⟩
    cases none.symm.trans h
  · obtain ⟨proper, undeclared⟩ := Classical.not_imp.1 refused
    refine ⟨h.adds accepted adds, ⟨fun h => ?_, fun h => ?_⟩, fun h => ?_, fun fault h => ?_⟩
    · cases some.symm.trans h
    · exact absurd (h x (List.mem_append_right _ (List.mem_cons_self ..))) refused
    · cases some.symm.trans h
    · obtain rfl := Option.some.inj (some.symm.trans h)
      exact ⟨front, x, rest, rfl, proper, undeclared, accepted, rfl, adds⟩

/-! ## Calls -/

/-- One call on a stack. -/
inductive Call where
  | push (x : Symbol)
  | pushAll (sequence : List Symbol)
  | pop

/-- The stack after a call, whether it succeeds or not. -/
def perform (s : Stack) : Call → Stack
  | .push x =>
    match s.push x with
    | .ok t => t
    | .error _ => s
  | .pushAll sequence => (s.pushAll sequence).1
  | .pop =>
    match s.pop? with
    | some (_, t) => t
    | none => s

/-- The stack after some calls. -/
def performAll (s : Stack) (calls : List Call) : Stack := calls.foldl perform s

/-- A call leaves only symbols of the alphabet on a stack. -/
theorem Declared.perform (h : s.Declared a) (call : Call) : (s.perform call).Declared a := by
  cases call with
  | push x =>
    by_cases empty : x = Symbol.epsilon
    · subst empty
      exact h
    by_cases mem : x ∈ s.alphabet
    · simp only [Stack.perform, push_of_mem empty mem]
      exact ⟨h.alphabet_eq, List.forall_mem_cons.2 ⟨⟨h.alphabet_eq ▸ mem, empty⟩, h.declared⟩⟩
    · simp only [Stack.perform, push_of_not_mem empty mem]
      exact h
  | pushAll sequence => exact (h.pushAll_law sequence).1
  | pop =>
    obtain ⟨alphabet, symbols⟩ := s
    cases symbols with
    | nil => exact h
    | cons x rest => exact ⟨h.alphabet_eq, (List.forall_mem_cons.1 h.declared).2⟩

theorem Declared.performAll (h : s.Declared a) (calls : List Call) :
    (s.performAll calls).Declared a := by
  induction calls generalizing s with
  | nil => exact h
  | cons call calls ih => exact ih (h.perform call)

/-- **What a stack holds after any calls.** Only symbols of its alphabet; a sequence that is then
pushed comes on top, less its empty symbols, if all others are in the alphabet; else it is refused
for the last one that is not, with what comes after that one on top. -/
theorem contents_after_calls (a : Alphabet) (calls : List Call) :
    let s := (empty a).performAll calls
    s.Declared a ∧ ∀ sequence,
      ((s.pushAll sequence).2 = none ↔ ∀ x ∈ sequence, x ≠ Symbol.epsilon → x ∈ a) ∧
      ((s.pushAll sequence).2 = none →
        s.Adds (s.pushAll sequence).1 (Symbol.withoutEpsilon sequence)) ∧
      ∀ fault, (s.pushAll sequence).2 = some fault →
        ∃ front x rest, sequence = front ++ x :: rest ∧ x ≠ Symbol.epsilon ∧ ¬ x ∈ a ∧
          (∀ y ∈ rest, y ≠ Symbol.epsilon → y ∈ a) ∧
          fault = .undeclaredSymbol .stored x a ∧
          s.Adds (s.pushAll sequence).1 (Symbol.withoutEpsilon rest) := by
  intro s
  have holds : s.Declared a := (declared_empty a).performAll calls
  exact ⟨holds, fun sequence => (holds.pushAll_law sequence).2⟩

/-- A sequence that is refused in its middle. -/
example : (⟨Alphabet.ofList ['A', 'Z'], ['Z']⟩ : Stack).pushAll ['A', 'x', '.', 'A', 'A'] =
    (⟨Alphabet.ofList ['A', 'Z'], ['A', 'A', 'Z']⟩,
      some (.undeclaredSymbol .stored 'x' (Alphabet.ofList ['A', 'Z']))) := by
  decide

end Pushdown.Stack
