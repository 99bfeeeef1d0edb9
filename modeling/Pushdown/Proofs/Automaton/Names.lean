import Pushdown.Proofs.Builder.Closed

/-!
# States by number and by name

An automaton refers to its states by number, and its users refer to them by name. In a closed
automaton no name is given twice, so the two ways of speaking are worth the same:

> `Closed.find?_nameOf`: the state found under the name of a state is that state;
> `nameOf_idxOf`: the state at the place of a name has that name.

Nor is there more to a closed automaton than its names, its alphabets, where it starts and what it
offers:

> `Closed.ext_outcomes`: closed automata that agree in these are the same.
-/

namespace Pushdown.Automaton

variable {a : Automaton} {id : StateId}

/-- The names of the states, in order. -/
def names (a : Automaton) : List String := a.states.toList.map State.name

@[simp] theorem length_names (a : Automaton) : a.names.length = a.states.size := by
  simp [names]

theorem Closed.names_nodup (h : a.Closed) : a.names.Nodup := h.builder.names_nodup

/-- A name is found exactly at its first place. -/
theorem find?_eq (a : Automaton) (name : String) :
    a.find? name = if name ∈ a.names then some ⟨a.names.idxOf name⟩ else none := by
  have among_names := Builder.findIdx?_states ⟨a.states, a.inputAlphabet, a.stackAlphabet⟩ name
  show (a.states.findIdx? (·.name == name)).map StateId.mk = _
  rw [among_names]
  show (if name ∈ a.names then _ else _ : Option Nat).map StateId.mk = _
  split
  · rfl
  · rfl

theorem getElem?_names (h : id.index < a.states.size) :
    a.names[id.index]? = some (a.nameOf id) := by
  rw [names, List.getElem?_map, Array.getElem?_toList, nameOf, state?,
    Array.getElem?_eq_getElem h]
  rfl

theorem nameOf_mem_names (h : id.index < a.states.size) : a.nameOf id ∈ a.names :=
  List.mem_of_getElem? (getElem?_names h)

theorem nameOf_eq_iff (h : id.index < a.states.size) {name : String} :
    a.nameOf id = name ↔ a.names[id.index]? = some name := by
  rw [getElem?_names h, Option.some.injEq]

/-- The state at the place of a name has that name. -/
theorem nameOf_idxOf {name : String} (h : name ∈ a.names) :
    a.nameOf ⟨a.names.idxOf name⟩ = name := by
  have inside := List.idxOf_lt_length_iff.2 h
  rw [nameOf_eq_iff (by rwa [length_names] at inside), List.getElem?_eq_some_iff]
  exact ⟨inside, List.getElem_idxOf inside⟩

/-- What a table offers is what its state offers. -/
theorem outcomes_getElem (a : Automaton) {i : Nat} (hi : i < a.states.size) (input top : Symbol) :
    a.states[i].table.outcomes ⟨input, top⟩ = a.outcomes ⟨i⟩ input top := by
  rw [outcomes, state?, Array.getElem?_eq_getElem hi]

namespace Closed

/-- A state stands at the first place of its name. -/
theorem idxOf_nameOf (h : a.Closed) (valid : id.index < a.states.size) :
    a.names.idxOf (a.nameOf id) = id.index := by
  obtain ⟨inside, found⟩ := List.getElem?_eq_some_iff.1 (getElem?_names valid)
  rw [← found]
  exact h.names_nodup.idxOf_getElem _ inside

theorem find?_nameOf (h : a.Closed) (valid : id.index < a.states.size) :
    a.find? (a.nameOf id) = some id := by
  rw [find?_eq, if_pos (nameOf_mem_names valid), h.idxOf_nameOf valid]

/-- The table of a state is ordered. -/
theorem ordered_getElem (h : a.Closed) {i : Nat} (hi : i < a.states.size) :
    a.states[i].table.Ordered :=
  h.builder.tables_ordered _ (Array.getElem_mem hi)

/-- Closed automata are told apart by their names, their alphabets, their starts and what they
offer. -/
theorem ext_outcomes {b : Automaton} (ha : a.Closed) (hb : b.Closed) (names : a.names = b.names)
    (inputs : ∀ s, s ∈ a.inputAlphabet ↔ s ∈ b.inputAlphabet)
    (stack : ∀ s, s ∈ a.stackAlphabet ↔ s ∈ b.stackAlphabet)
    (state : a.initialState = b.initialState) (symbol : a.initialSymbol = b.initialSymbol)
    (same : ∀ id input top, a.outcomes id input top = b.outcomes id input top) : a = b := by
  have sizes : a.states.size = b.states.size := by
    rw [← length_names, ← length_names, names]
  have states : a.states = b.states := by
    refine Array.ext sizes fun i hi hi' => ?_
    have name : a.states[i].name = b.states[i].name := by
      have at_place := congrArg (fun l : List String => l[i]?) names
      simpa [Automaton.names, hi, hi'] using at_place
    have table : a.states[i].table = b.states[i].table := by
      refine Transition.Table.eq_of_outcomes_eq (ha.ordered_getElem hi) (hb.ordered_getElem hi')
        fun key => ?_
      rw [outcomes_getElem, outcomes_getElem, same]
    cases hs : a.states[i]
    cases ht : b.states[i]
    rw [hs, ht] at name table
    cases name
    cases table
    rfl
  have alphabets := And.intro (Alphabet.ext_mem inputs) (Alphabet.ext_mem stack)
  cases a
  cases b
  cases states
  cases alphabets.1
  cases alphabets.2
  cases state
  cases symbol
  rfl

end Closed

end Pushdown.Automaton
