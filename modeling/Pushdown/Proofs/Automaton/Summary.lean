import Pushdown.Proofs.Automaton.Layout

/-!
# Summaries lose nothing

A summary numbers nothing: it names states, writes alphabets with spaces between their symbols, one
of which may be a space itself, and lists the transitions state by state, each state's in the order
of its table. The calls that it stands for (`Summary.calls`) make the automaton again all the same.

That need not be proved from the tables once more. The layout of an automaton, which differs from
its summary in the numbers of its lines and in the empty symbol that stands for an empty alphabet,
is built to that automaton (`build_layout`), and each step of that is the call that the summary
makes:

> `attemptAll_of_foldlM`: where each step of a loop is a call that succeeds, so is the whole loop;
> `rebuild_summary`: the calls of a summary of a built automaton succeed and make that automaton,
> so no two built automata have the same summary.
-/

namespace Pushdown

/-- The characters at even places are those that a space was put between. -/
theorem Summary.symbolsOf_intersperse (symbols : List Symbol) :
    symbolsOf (symbols.intersperse ' ') = symbols := by
  induction symbols with
  | nil => rfl
  | cons s rest ih =>
    cases rest with
    | nil => rfl
    | cons s' rest => exact congrArg (s :: ·) ih

namespace Automaton

namespace Builder

/-- The builder after some calls, all of which must succeed. -/
def attemptAll (b : Builder) (calls : List Call) : Except DefinitionFault Builder :=
  calls.foldlM (fun b call => do return (← b.attempt call).2) b

variable {b b' b'' : Builder}

theorem attemptAll_append {calls more : List Call} (first : b.attemptAll calls = .ok b')
    (second : b'.attemptAll more = .ok b'') : b.attemptAll (calls ++ more) = .ok b'' := by
  unfold attemptAll
  rw [List.foldlM_append]
  exact bind_eq_ok_iff.2 ⟨b', first, second⟩

/-- A loop of steps, each of which is a call, is the sequence of these calls. -/
theorem attemptAll_of_foldlM {α : Type} {step : Builder → α → Except DefinitionFault Builder}
    (call : α → Call) {xs : List α} (h : xs.foldlM step b = .ok b')
    (is_call : ∀ x ∈ xs, ∀ b b', step b x = .ok b' → ∃ id, b.attempt (call x) = .ok (id, b')) :
    b.attemptAll (xs.map call) = .ok b' := by
  induction xs generalizing b with
  | nil => exact h
  | cons x xs ih =>
    obtain ⟨is_call, others⟩ := List.forall_mem_cons.1 is_call
    rw [List.foldlM_cons] at h
    obtain ⟨made, first, rest⟩ := bind_eq_ok_iff.1 h
    obtain ⟨id, attempted⟩ := is_call b made first
    have one : b.attemptAll [call x] = .ok made :=
      bind_eq_ok_iff.2 ⟨made, bind_eq_ok_iff.2 ⟨_, attempted, rfl⟩, rfl⟩
    exact attemptAll_append one (ih rest others)

end Builder

open Definition

variable {a : Automaton} {b b' : Builder}

/-! ## The steps of a layout are calls -/

theorem attempt_of_addState {t : Token} (h : addState b t = .ok b') :
    ∃ id, b.attempt (.state t.text) = .ok (id, b') := by
  obtain ⟨fresh, rfl⟩ := addState_eq_ok_iff.1 h
  exact ⟨_, bind_eq_ok_iff.2 ⟨_, Builder.declareState_eq_ok_iff.2 ⟨fresh, rfl, rfl⟩, rfl⟩⟩

theorem attempt_of_addInput {s : Symbol} (proper : s ≠ Symbol.epsilon) {n : Nat}
    (h : addInput b ⟨String.singleton s, n⟩ = .ok b') :
    ∃ id, b.attempt (.input s) = .ok (id, b') := by
  obtain ⟨s', symbol, rfl⟩ := addInput_eq_ok_iff.1 h
  cases (symbol?_singleton s n).symm.trans symbol
  rw [if_neg (by simpa using proper)]
  exact ⟨_, bind_eq_ok_iff.2 ⟨_, Builder.declareInput_eq_ok_iff.2 ⟨proper, rfl⟩, rfl⟩⟩

theorem attempt_of_addStack {s : Symbol} {n : Nat}
    (h : addStack b ⟨String.singleton s, n⟩ = .ok b') :
    ∃ id, b.attempt (.stack s) = .ok (id, b') := by
  obtain ⟨s', symbol, proper, rfl⟩ := addStack_eq_ok_iff.1 h
  cases (symbol?_singleton s n).symm.trans symbol
  exact ⟨_, bind_eq_ok_iff.2 ⟨_, Builder.declareStack_eq_ok_iff.2 ⟨proper, rfl⟩, rfl⟩⟩

/-- The call that adds a transition. -/
def callOf (t : TransitionSummary) : Builder.Call :=
  .transition t.source t.input t.top t.target (Symbol.ofText t.push)

theorem attempt_of_addTransition {t : TransitionSummary} {n : Nat}
    (h : addTransition b (lineOn t n) = .ok b') :
    ∃ id, b.attempt (callOf t) = .ok (id, b') := by
  unfold addTransition at h
  obtain ⟨input, hi, h⟩ := bind_eq_ok_iff.1 h
  obtain ⟨top, ht, h⟩ := bind_eq_ok_iff.1 h
  cases (symbol?_singleton t.input n).symm.trans (demandSymbol_eq_ok_iff.1 hi)
  cases (symbol?_singleton t.top n).symm.trans (demandSymbol_eq_ok_iff.1 ht)
  exact ⟨none, bind_eq_ok_iff.2 ⟨_, onLine_eq_ok_iff.1 h, rfl⟩⟩

/-! ## Rows of declarations -/

theorem attemptAll_names (h : a.layout.states.foldlM addState b = .ok b') :
    b.attemptAll (a.names.map .state) = .ok b' := by
  have calls := Builder.attemptAll_of_foldlM (fun t => .state t.text) h
    fun t _ b b' => attempt_of_addState
  rwa [layout, List.map_map] at calls

/-- The empty symbol that is written for an empty alphabet declares nothing. -/
theorem attemptAll_inputs (closed : a.Closed)
    (h : a.layout.inputSymbols.foldlM addInput b = .ok b') :
    b.attemptAll (a.inputAlphabet.symbols.map .input) = .ok b' := by
  have h : (symbolsOn a.writtenInputs 2).foldlM addInput b = .ok b' := h
  rw [symbolsOn, List.foldlM_map, writtenInputs] at h
  split at h
  · next empty =>
    rw [Alphabet.isEmpty, List.isEmpty_iff] at empty
    rw [List.foldlM_cons] at h
    obtain ⟨made, first, rest⟩ := bind_eq_ok_iff.1 h
    obtain ⟨s, symbol, rfl⟩ := addInput_eq_ok_iff.1 first
    cases (symbol?_singleton Symbol.epsilon 2).symm.trans symbol
    rw [empty]
    exact rest
  · refine Builder.attemptAll_of_foldlM .input h fun s hs b b' => attempt_of_addInput ?_
    exact fun same => closed.builder.input_proper (same ▸ hs)

theorem attemptAll_stack (h : a.layout.stackSymbols.foldlM addStack b = .ok b') :
    b.attemptAll (a.stackAlphabet.symbols.map .stack) = .ok b' := by
  have h : (symbolsOn a.stackAlphabet.symbols 3).foldlM addStack b = .ok b' := h
  rw [symbolsOn, List.foldlM_map] at h
  exact Builder.attemptAll_of_foldlM .stack h fun s _ b b' => attempt_of_addStack

theorem attemptAll_transitions (h : a.layout.transitions.foldlM addTransition b = .ok b') :
    b.attemptAll (a.transitions.map callOf) = .ok b' := by
  have h : ((a.transitions.zipIdx 6).map fun p => lineOn p.1 p.2).foldlM addTransition b =
    .ok b' := h
  rw [List.foldlM_map] at h
  have calls := Builder.attemptAll_of_foldlM (callOf ∘ Prod.fst) h
    fun p _ b b' => attempt_of_addTransition
  rwa [← List.map_map, List.zipIdx_map_fst] at calls

/-! ## Main result -/

/-- The calls of a summary, row by row. -/
theorem calls_summary (a : Automaton) (name : String) :
    (a.summary name).calls =
      a.names.map .state ++ a.inputAlphabet.symbols.map .input ++
        a.stackAlphabet.symbols.map .stack ++ a.transitions.map callOf := by
  unfold Summary.calls summary Alphabet.toText
  rw [String.toList_ofList, String.toList_ofList, Summary.symbolsOf_intersperse,
    Summary.symbolsOf_intersperse]
  rfl

/-- The calls of the summary of a closed automaton make it again. -/
theorem Closed.rebuild_eq (closed : a.Closed) (name : String) :
    (a.summary name).rebuild = .ok a := by
  have build := build_layout closed
  rw [Layout.build_eq] at build
  obtain ⟨b₁, states, build⟩ := bind_eq_ok_iff.1 build
  obtain ⟨b₂, inputs, build⟩ := bind_eq_ok_iff.1 build
  obtain ⟨b₃, stack, build⟩ := bind_eq_ok_iff.1 build
  obtain ⟨symbol, initial, build⟩ := bind_eq_ok_iff.1 build
  obtain ⟨b₄, transitions, build⟩ := bind_eq_ok_iff.1 build
  obtain ⟨-, -, build⟩ := bind_eq_ok_iff.1 build
  have calls : Builder.empty.attemptAll (a.summary name).calls = .ok b₄ := by
    rw [calls_summary]
    exact Builder.attemptAll_append (Builder.attemptAll_append (Builder.attemptAll_append
      (attemptAll_names states) (attemptAll_inputs closed inputs)) (attemptAll_stack stack))
      (attemptAll_transitions transitions)
  cases (symbol?_singleton a.initialSymbol 5).symm.trans (demandSymbol_eq_ok_iff.1 initial)
  exact bind_eq_ok_iff.2 ⟨b₄, calls, onLine_eq_ok_iff.1 build⟩

/-- **A summary loses nothing.** The calls that the summary of a built automaton stands for all
succeed and make that automaton, so any built automaton with the same summary is the same. -/
theorem rebuild_summary (built : a.IsBuilt) (name : String) :
    (a.summary name).rebuild = .ok a ∧
      ∀ other : Automaton, other.IsBuilt → ∀ name', other.summary name' = a.summary name →
        other = a := by
  have rebuilt := built.closed.rebuild_eq name
  refine ⟨rebuilt, fun other other_built name' same => ?_⟩
  have again := other_built.closed.rebuild_eq name'
  rw [same, rebuilt] at again
  exact (Except.ok.inj again).symm

/-- The calls that build an automaton whose names and symbols a definition could not tell: a state
without a name, one whose name has a blank, a space for a symbol, and a transition that pushes
nothing. -/
def unspokenCalls : List Builder.Call :=
  [.state "", .state "a b", .input ' ', .input 'x', .stack ' ', .stack '#',
   .transition "a b" ' ' '#' "" [],
   .transition "" 'x' ' ' "a b" ['#', '.', ' '],
   .transition "" '.' ' ' "" []]

/-- What they build. -/
def unspoken : Automaton where
  states := #[
    ⟨"", ⟨[⟨⟨'.', ' '⟩, ⟨⟨0⟩, []⟩⟩, ⟨⟨'x', ' '⟩, ⟨⟨1⟩, ['#', '.', ' ']⟩⟩]⟩⟩,
    ⟨"a b", ⟨[⟨⟨' ', '#'⟩, ⟨⟨0⟩, []⟩⟩]⟩⟩]
  inputAlphabet := Alphabet.ofList [' ', 'x']
  stackAlphabet := Alphabet.ofList [' ', '#']
  initialState := ⟨0⟩
  initialSymbol := ' '

/-- Its summary has three spaces in a row where an alphabet starts with a space, and makes it again
nevertheless. -/
theorem rebuild_summary_unspoken :
    unspoken.IsBuilt ∧ (unspoken.summary "unspoken").inputAlphabet = "  x" ∧
      (unspoken.summary "unspoken").rebuild = .ok unspoken := by
  have built : unspoken.IsBuilt := ⟨unspokenCalls, "", ' ', Builder.build_eq_ok_iff.2
    ⟨by decide +kernel, by decide +kernel, by decide +kernel⟩⟩
  exact ⟨built, by decide +kernel, (rebuild_summary built "unspoken").1⟩

end Automaton

end Pushdown
