import Pushdown.Automaton.Builder

/-!
# What the calls on a builder do

One equivalence for each operation of a `Builder`: when it succeeds, and what it then makes of the
builder. A name is looked up at its first place among the names (`lookup_eq_ok_iff`), so the
number of a declared state is `names.idxOf`.

> `addTransition_eq_ok_iff`: a transition is added exactly when both states, the input unless it is
> empty, the stack top and every pushed symbol that is not empty have been declared.

What a whole sequence of calls keeps is proved from these in `Pushdown.Proofs.Builder.Closed`, and
what a definition text needs in order to load in `Pushdown.Proofs.Definition.Meaning`.
-/

namespace Pushdown

/-- A step that succeeds after another: the first one has succeeded too. -/
theorem bind_eq_ok_iff {ε α β : Type} {x : Except ε α} {f : α → Except ε β} {b : β} :
    (x >>= f) = .ok b ↔ ∃ a, x = .ok a ∧ f a = .ok b := by
  cases x with
  | error e => simp [bind, Except.bind]
  | ok a => simp [bind, Except.bind]

/-- A check of every element succeeds exactly when each of the checks does. -/
theorem forM_eq_ok_iff {ε α : Type} {f : α → Except ε Unit} {xs : List α} {u : Unit} :
    xs.forM f = .ok u ↔ ∀ x ∈ xs, f x = .ok () := by
  induction xs with
  | nil => simp [List.forM, pure, Except.pure]
  | cons x rest ih =>
    show (f x >>= fun _ => rest.forM f) = _ ↔ _
    rw [bind_eq_ok_iff, List.forall_mem_cons, ← ih]
    exact ⟨fun ⟨_, hx, hrest⟩ => ⟨hx, hrest⟩, fun ⟨hx, hrest⟩ => ⟨(), hx, hrest⟩⟩

namespace Automaton.Builder

variable {b b' : Builder}

@[simp] theorem length_names (b : Builder) : b.names.length = b.states.size := by
  simp [names]

/-- The search for a name among the states is the search among the names. -/
theorem findIdx?_states (b : Builder) (name : String) :
    b.states.findIdx? (·.name == name) =
      if name ∈ b.names then some (b.names.idxOf name) else none := by
  have among_names : b.states.findIdx? (·.name == name) = b.names.findIdx? (· == name) := by
    rw [names, List.findIdx?_map, ← List.findIdx?_toArray, Array.toArray_toList]
    rfl
  rw [among_names]
  split
  · rename_i declared
    exact List.findIdx?_eq_some_of_exists ⟨name, declared, beq_self_eq_true name⟩
  · rename_i undeclared
    refine List.findIdx?_eq_none_iff.2 fun other h => ?_
    exact beq_eq_false_iff_ne.2 fun e => undeclared (e ▸ h)

theorem lookup_eq_ok_iff {role : StateRole} {name : String} {id : StateId} :
    b.lookup role name = .ok id ↔ name ∈ b.names ∧ id = ⟨b.names.idxOf name⟩ := by
  unfold lookup
  rw [findIdx?_states]
  by_cases h : name ∈ b.names
  · simp [h, eq_comm]
  · simp [h]

theorem idxOf_lt_size {name : String} (h : name ∈ b.names) :
    b.names.idxOf name < b.states.size := by
  rw [← length_names]
  exact List.idxOf_lt_length_iff.2 h

theorem declareState_eq_ok_iff {name : String} {id : StateId} :
    b.declareState name = .ok (id, b') ↔
      name ∉ b.names ∧ id = ⟨b.states.size⟩ ∧
        b' = { b with states := b.states.push ⟨name, .empty⟩ } := by
  unfold declareState
  rw [findIdx?_states]
  by_cases h : name ∈ b.names
  · simp [h]
  · simp [h, eq_comm]

theorem declareInput_eq_ok_iff {s : Symbol} :
    b.declareInput s = .ok b' ↔
      s ≠ Symbol.epsilon ∧ b' = { b with inputAlphabet := b.inputAlphabet.insert s } := by
  simp only [declareInput, bind_eq_ok_iff, Alphabet.declare_eq_ok_iff, pure, Except.pure,
    Except.ok.injEq]
  constructor
  · intro h
    obtain ⟨alphabet, ⟨proper, rfl⟩, rfl⟩ := h
    exact ⟨proper, rfl⟩
  · intro h
    obtain ⟨proper, rfl⟩ := h
    exact ⟨_, ⟨proper, rfl⟩, rfl⟩

theorem declareStack_eq_ok_iff {s : Symbol} :
    b.declareStack s = .ok b' ↔
      s ≠ Symbol.epsilon ∧ b' = { b with stackAlphabet := b.stackAlphabet.insert s } := by
  simp only [declareStack, bind_eq_ok_iff, Alphabet.declare_eq_ok_iff, pure, Except.pure,
    Except.ok.injEq]
  constructor
  · intro h
    obtain ⟨alphabet, ⟨proper, rfl⟩, rfl⟩ := h
    exact ⟨proper, rfl⟩
  · intro h
    obtain ⟨proper, rfl⟩ := h
    exact ⟨_, ⟨proper, rfl⟩, rfl⟩

theorem demand_eq_ok_iff {role : SymbolRole} {s : Symbol} {declared : Alphabet} {u : Unit} :
    demand role s declared = .ok u ↔ s ∈ declared := by
  unfold demand
  by_cases h : s ∈ declared
  · simp [h]
  · simp [h]

theorem demandUnlessEpsilon_eq_ok_iff {role : SymbolRole} {s : Symbol} {declared : Alphabet}
    {u : Unit} :
    demandUnlessEpsilon role s declared = .ok u ↔ s = Symbol.epsilon ∨ s ∈ declared := by
  unfold demandUnlessEpsilon
  by_cases h : s = Symbol.epsilon
  · simp [h]
  · simp [h, demand_eq_ok_iff]

/-- The builder with one outcome more in a state. -/
def withOutcome (b : Builder) (source : Nat) (key : Transition.Key) (o : Transition.Outcome) :
    Builder :=
  { b with
    states := b.states.modify source fun state => { state with table := state.table.add key o } }

theorem addTransition_eq_ok_iff {source target : String} {input top : Symbol}
    {push : List Symbol} :
    b.addTransition source input top target push = .ok b' ↔
      source ∈ b.names ∧ target ∈ b.names ∧
      (input = Symbol.epsilon ∨ input ∈ b.inputAlphabet) ∧ top ∈ b.stackAlphabet ∧
      (∀ s ∈ push, s = Symbol.epsilon ∨ s ∈ b.stackAlphabet) ∧
      b' = b.withOutcome (b.names.idxOf source) ⟨input, top⟩ ⟨⟨b.names.idxOf target⟩, push⟩ := by
  simp only [addTransition, bind_eq_ok_iff, lookup_eq_ok_iff, demandUnlessEpsilon_eq_ok_iff,
    demand_eq_ok_iff, forM_eq_ok_iff, pure, Except.pure, Except.ok.injEq]
  constructor
  · intro h
    obtain ⟨_, ⟨source_mem, rfl⟩, _, ⟨target_mem, rfl⟩, _, input_ok, _, top_ok, _, push_ok,
      rfl⟩ := h
    exact ⟨source_mem, target_mem, input_ok, top_ok, push_ok, rfl⟩
  · intro h
    obtain ⟨source_mem, target_mem, input_ok, top_ok, push_ok, rfl⟩ := h
    exact ⟨_, ⟨source_mem, rfl⟩, _, ⟨target_mem, rfl⟩, (), input_ok, (), top_ok, (), push_ok, rfl⟩

theorem build_eq_ok_iff {name : String} {symbol : Symbol} {a : Automaton} :
    b.build name symbol = .ok a ↔
      name ∈ b.names ∧ symbol ∈ b.stackAlphabet ∧
        a = ⟨b.states, b.inputAlphabet, b.stackAlphabet, ⟨b.names.idxOf name⟩, symbol⟩ := by
  simp only [build, bind_eq_ok_iff, lookup_eq_ok_iff, demand_eq_ok_iff, pure, Except.pure,
    Except.ok.injEq]
  constructor
  · intro h
    obtain ⟨_, ⟨name_mem, rfl⟩, _, symbol_ok, rfl⟩ := h
    exact ⟨name_mem, symbol_ok, rfl⟩
  · intro h
    obtain ⟨name_mem, symbol_ok, rfl⟩ := h
    exact ⟨_, ⟨name_mem, rfl⟩, (), symbol_ok, rfl⟩

/-! ## The parts of a builder with one outcome more -/

@[simp] theorem names_withOutcome (b : Builder) (source : Nat) (key : Transition.Key)
    (o : Transition.Outcome) : (b.withOutcome source key o).names = b.names := by
  refine List.ext_getElem? fun i => ?_
  simp only [names, withOutcome, List.getElem?_map, Array.getElem?_toList, Array.getElem?_modify]
  split
  · cases b.states[i]? <;> rfl
  · rfl

@[simp] theorem size_states_withOutcome (b : Builder) (source : Nat) (key : Transition.Key)
    (o : Transition.Outcome) : (b.withOutcome source key o).states.size = b.states.size := by
  simp [withOutcome]

end Automaton.Builder

end Pushdown
