import Pushdown.Proofs.Builder.Refusals
import Pushdown.Proofs.Definition.Meaning
import Pushdown.Proofs.Definition.Places
import Pushdown.Proofs.Definition.Position

/-!
# The fault that refuses a definition

A text that follows the line format but is not coherent is refused with a fault of one of its
rows. `Layout.Flaw` lists what may be wrong with each row by itself, given what the rows of
declarations declare, and with which fault it is refused:

> `Layout.coherent_iff`: a layout is coherent exactly if nothing is wrong with any row.

The rows are looked at in the order of the text, except that whether the two initial rows name
something declared is looked at last (`DefinitionFault.IsLate`). So the fault that is reported is
the first in this order (`Layout.FirstFlaw`):

> `Layout.build_eq_error`: the fault that refuses a layout is that of its first flaw, and names the
> line of a token in the row;
> `load_first_flaw`: a text is refused for its first flaw, on the line that has it.
-/

namespace Pushdown

/-- Whether a fault is that an initial row names something undeclared. -/
def DefinitionFault.IsLate : DefinitionFault → Prop
  | .undeclaredState .initial _ _ => True
  | .undeclaredSymbol .initial _ _ => True
  | _ => False

/-- Whether a fault is of something named, and not yet placed on a line. -/
def DefinitionFault.IsOfToken : DefinitionFault → Prop
  | .reservedSymbol | .duplicateState _ | .longSymbol _ => True
  | .undeclaredState .. | .undeclaredSymbol .. => True
  | .emptyDefinition | .incompleteLine | .missingLine _ => False
  | .oversized .. | .onLine .. | .stated _ => False

/-- Whether a fault is that something is missing from a text that follows the line format. -/
def DefinitionFault.IsLack : DefinitionFault → Prop
  | .emptyDefinition | .incompleteLine | .missingLine _ => True
  | .onLine _ fault => fault.IsLack
  | .reservedSymbol | .duplicateState _ | .longSymbol _ => False
  | .undeclaredState .. | .undeclaredSymbol .. => False
  | .oversized .. | .stated _ => False

namespace Definition

open Automaton (Builder)

/-! ## Flaws -/

/-- What may be wrong with a transition's row, given what is declared. -/
inductive TransitionLine.Flaw (names : List String) (inputs stack : Alphabet)
    (line : TransitionLine) : DefinitionFault → Prop
  | longInput (long : line.input.symbol? = none) :
      line.Flaw names inputs stack (.longSymbol line.input.text)
  | longTop (long : line.top.symbol? = none) :
      line.Flaw names inputs stack (.longSymbol line.top.text)
  | source (undeclared : line.source.text ∉ names) :
      line.Flaw names inputs stack (.undeclaredState .source line.source.text names)
  | target (undeclared : line.target.text ∉ names) :
      line.Flaw names inputs stack (.undeclaredState .target line.target.text names)
  | input {s : Symbol} (is : line.input.symbol? = some s) (proper : s ≠ Symbol.epsilon)
      (undeclared : ¬ s ∈ inputs) :
      line.Flaw names inputs stack (.undeclaredSymbol .input s inputs)
  | top {s : Symbol} (is : line.top.symbol? = some s) (undeclared : ¬ s ∈ stack) :
      line.Flaw names inputs stack (.undeclaredSymbol .top s stack)
  | push {s : Symbol} (mem : s ∈ line.push.text.toList) (proper : s ≠ Symbol.epsilon)
      (undeclared : ¬ s ∈ stack) :
      line.Flaw names inputs stack (.undeclaredSymbol .push s stack)

/-- What may be wrong with a row of a layout, by its number from zero. -/
inductive Layout.Flaw (l : Layout) : Nat → DefinitionFault → Prop
  | duplicateState {name : String} (twice : 1 < l.names.count name) :
      l.Flaw 0 (.duplicateState name)
  | longInput {t : Token} (mem : t ∈ l.inputSymbols) (long : t.symbol? = none) :
      l.Flaw 1 (.longSymbol t.text)
  | longStack {t : Token} (mem : t ∈ l.stackSymbols) (long : t.symbol? = none) :
      l.Flaw 2 (.longSymbol t.text)
  | reserved (mem : Symbol.epsilon ∈ symbolsOf l.stackSymbols) : l.Flaw 2 .reservedSymbol
  | initialState (undeclared : l.initialState.text ∉ l.names) :
      l.Flaw 3 (.undeclaredState .initial l.initialState.text l.names)
  | longInitial (long : l.initialSymbol.symbol? = none) :
      l.Flaw 4 (.longSymbol l.initialSymbol.text)
  | initialSymbol {s : Symbol} (is : l.initialSymbol.symbol? = some s)
      (undeclared : ¬ s ∈ l.declared.stackAlphabet) :
      l.Flaw 4 (.undeclaredSymbol .initial s l.declared.stackAlphabet)
  | transition {i : Nat} {line : TransitionLine} {cause : DefinitionFault}
      (here : l.transitions[i]? = some line)
      (flaw : line.Flaw l.names l.declared.inputAlphabet l.declared.stackAlphabet cause) :
      l.Flaw (i + 5) cause

/-- A row has the first flaw in the order in which the rows are looked at. -/
structure Layout.FirstFlaw (l : Layout) (i : Nat) (cause : DefinitionFault) : Prop where
  flaw : l.Flaw i cause
  /-- Above it nothing is wrong but what is looked at last. -/
  first : ¬ cause.IsLate → ∀ j < i, ∀ other, l.Flaw j other → other.IsLate
  /-- If it is itself looked at last, nothing else is wrong, but for the initial state if the
  initial symbol has the flaw. -/
  only : cause.IsLate → ∀ j other, l.Flaw j other → j = i ∨ (i = 4 ∧ j = 3)

section

variable {l : Layout} {cause : DefinitionFault} {line : TransitionLine}

theorem symbol?_eq_none_iff {t : Token} : t.symbol? = none ↔ ¬ t.IsSymbol := by
  rw [isSymbol_iff, ← Option.ne_none_iff_exists', not_not]

/-- Nothing is wrong with a transition's row exactly if it names only what is declared. -/
theorem TransitionLine.refers_iff {names : List String} {inputs stack : Alphabet} :
    line.Refers names (· ∈ inputs) (· ∈ stack) ↔ ∀ cause, ¬ line.Flaw names inputs stack cause := by
  constructor
  · intro refers cause flaw
    obtain ⟨input, hi, input_ok⟩ := refers.input_mem
    obtain ⟨top, ht, top_ok⟩ := refers.top_mem
    cases flaw with
    | longInput long => rw [hi] at long; cases long
    | longTop long => rw [ht] at long; cases long
    | source undeclared => exact undeclared refers.source_mem
    | target undeclared => exact undeclared refers.target_mem
    | input is proper undeclared =>
      cases hi.symm.trans is
      exact input_ok.elim proper undeclared
    | top is undeclared =>
      cases ht.symm.trans is
      exact undeclared top_ok
    | push mem proper undeclared => exact (refers.push_mem _ mem).elim proper undeclared
  · intro flawless
    obtain ⟨input, hi⟩ := Option.ne_none_iff_exists'.1 fun long => flawless _ (.longInput long)
    obtain ⟨top, ht⟩ := Option.ne_none_iff_exists'.1 fun long => flawless _ (.longTop long)
    refine ⟨not_not.1 fun h => flawless _ (.source h), ⟨input, hi, ?_⟩, ⟨top, ht, ?_⟩,
      not_not.1 fun h => flawless _ (.target h), fun s hs => ?_⟩
    · by_contra h
      rw [not_or] at h
      exact flawless _ (.input hi h.1 h.2)
    · by_contra h
      exact flawless _ (.top ht h)
    · by_contra h
      rw [not_or] at h
      exact flawless _ (.push hs h.1 h.2)

theorem nodup_iff_flawless : l.names.Nodup ↔ ∀ cause, ¬ l.Flaw 0 cause := by
  rw [List.nodup_iff_count]
  constructor
  · intro once cause flaw
    cases flaw with
    | duplicateState twice => exact Nat.not_le.2 twice (once _)
  · intro flawless name
    exact Nat.not_lt.1 fun twice => flawless _ (.duplicateState twice)

theorem inputs_iff_flawless : (∀ t ∈ l.inputSymbols, t.IsSymbol) ↔ ∀ cause, ¬ l.Flaw 1 cause := by
  constructor
  · intro symbols cause flaw
    cases flaw with
    | longInput mem long => exact symbol?_eq_none_iff.1 long (symbols _ mem)
  · intro flawless t ht
    by_contra long
    exact flawless _ (.longInput ht (symbol?_eq_none_iff.2 long))

theorem stack_iff_flawless :
    ((∀ t ∈ l.stackSymbols, t.IsSymbol) ∧ Symbol.epsilon ∉ symbolsOf l.stackSymbols) ↔
      ∀ cause, ¬ l.Flaw 2 cause := by
  constructor
  · intro proper cause flaw
    cases flaw with
    | longStack mem long => exact symbol?_eq_none_iff.1 long (proper.1 _ mem)
    | reserved mem => exact proper.2 mem
  · intro flawless
    refine ⟨fun t ht => ?_, fun mem => flawless _ (.reserved mem)⟩
    by_contra long
    exact flawless _ (.longStack ht (symbol?_eq_none_iff.2 long))

theorem initialState_iff_flawless : l.initialState.text ∈ l.names ↔ ∀ cause, ¬ l.Flaw 3 cause := by
  constructor
  · intro mem cause flaw
    cases flaw with
    | initialState undeclared => exact undeclared mem
  · intro flawless
    by_contra undeclared
    exact flawless _ (.initialState undeclared)

theorem initialSymbol_iff_flawless :
    (∃ s, l.initialSymbol.symbol? = some s ∧ s ∈ symbolsOf l.stackSymbols) ↔
      ∀ cause, ¬ l.Flaw 4 cause := by
  simp only [← Layout.mem_stackAlphabet_declared]
  constructor
  · intro h cause flaw
    obtain ⟨s, hs, mem⟩ := h
    cases flaw with
    | longInitial long => rw [hs] at long; cases long
    | initialSymbol is undeclared =>
      cases hs.symm.trans is
      exact undeclared mem
  · intro flawless
    obtain ⟨s, hs⟩ := Option.ne_none_iff_exists'.1 fun long => flawless _ (.longInitial long)
    refine ⟨s, hs, ?_⟩
    by_contra undeclared
    exact flawless _ (.initialSymbol hs undeclared)

theorem transition_iff_flawless {i : Nat} (here : l.transitions[i]? = some line) :
    Permits l.declared line ↔ ∀ cause, ¬ l.Flaw (i + 5) cause := by
  unfold Permits
  rw [Layout.names_declared, TransitionLine.refers_iff]
  refine forall_congr' fun cause => not_congr ⟨fun flaw => .transition here flaw, fun flaw => ?_⟩
  cases flaw with
  | transition here' flaw =>
    cases here.symm.trans here'
    exact flaw

/-- **A layout is coherent exactly if nothing is wrong with any row.** -/
theorem Layout.coherent_iff : l.Coherent ↔ ∀ i cause, ¬ l.Flaw i cause := by
  constructor
  · intro h i cause flaw
    match i, flaw with
    | 0, flaw => exact nodup_iff_flawless.1 h.names_nodup _ flaw
    | 1, flaw => exact inputs_iff_flawless.1 h.inputs_symbols _ flaw
    | 2, flaw => exact stack_iff_flawless.1 ⟨h.stack_symbols, h.stack_proper⟩ _ flaw
    | 3, flaw => exact initialState_iff_flawless.1 h.initialState_mem _ flaw
    | 4, flaw => exact initialSymbol_iff_flawless.1 h.initialSymbol_mem _ flaw
    | i + 5, .transition here flaw =>
      have permits := permits_declared_iff.2
        (h.transitions_refer _ (List.mem_of_getElem? here))
      exact (transition_iff_flawless here).1 permits _ (.transition here flaw)
  · intro flawless
    obtain ⟨stack, proper⟩ := stack_iff_flawless.2 (flawless 2)
    refine ⟨nodup_iff_flawless.2 (flawless 0), inputs_iff_flawless.2 (flawless 1), stack, proper,
      initialState_iff_flawless.2 (flawless 3), initialSymbol_iff_flawless.2 (flawless 4), ?_⟩
    intro line hl
    obtain ⟨i, here⟩ := List.getElem?_of_mem hl
    exact permits_declared_iff.1 ((transition_iff_flawless here).2 (flawless (i + 5)))

end

/-! ## Refusals -/

section

variable {b : Builder} {fault : DefinitionFault} {t : Token}

theorem onLine_eq_error {α : Type} {line : Nat} {x : Except DefinitionFault α}
    (h : onLine line x = .error fault) :
    ∃ cause, x = .error cause ∧ fault = .onLine line cause := by
  cases x with
  | ok a => cases h
  | error cause =>
    cases h
    exact ⟨cause, rfl, rfl⟩

theorem demandSymbol_eq_error (h : demandSymbol t = .error fault) :
    t.symbol? = none ∧ fault = .onLine t.line (.longSymbol t.text) := by
  unfold demandSymbol at h
  split at h
  · cases h
  · next long =>
    cases h
    exact ⟨long, rfl⟩

theorem addState_eq_error (h : addState b t = .error fault) :
    t.text ∈ b.names ∧ fault = .onLine t.line (.duplicateState t.text) := by
  rcases bind_eq_error_iff.1 h with h | ⟨_, -, h⟩
  · obtain ⟨cause, refused, rfl⟩ := onLine_eq_error h
    obtain ⟨declared, rfl⟩ := Builder.declareState_eq_error_iff.1 refused
    exact ⟨declared, rfl⟩
  · cases h

theorem addInput_eq_error (h : addInput b t = .error fault) :
    t.symbol? = none ∧ fault = .onLine t.line (.longSymbol t.text) := by
  rcases bind_eq_error_iff.1 h with h | ⟨s, -, h⟩
  · exact demandSymbol_eq_error h
  · split at h
    · cases h
    · next proper =>
      obtain ⟨_, refused, -⟩ := onLine_eq_error h
      have reserved := (Builder.declareInput_eq_error_iff.1 refused).1
      exact absurd ((Symbol.isEpsilon_iff s).2 reserved) proper

theorem addStack_eq_error (h : addStack b t = .error fault) :
    (t.symbol? = none ∧ fault = .onLine t.line (.longSymbol t.text)) ∨
      (t.symbol? = some Symbol.epsilon ∧ fault = .onLine t.line .reservedSymbol) := by
  rcases bind_eq_error_iff.1 h with h | ⟨s, is, h⟩
  · exact .inl (demandSymbol_eq_error h)
  · obtain ⟨_, refused, rfl⟩ := onLine_eq_error h
    obtain ⟨rfl, rfl⟩ := Builder.declareStack_eq_error_iff.1 refused
    exact .inr ⟨demandSymbol_eq_ok_iff.1 is, rfl⟩

/-- A transition is refused for a flaw, on the line of one of its tokens. -/
theorem addTransition_eq_error {line : TransitionLine} (h : addTransition b line = .error fault) :
    ∃ t ∈ line.row, ∃ cause, fault = .onLine t.line cause ∧
      line.Flaw b.names b.inputAlphabet b.stackAlphabet cause := by
  rcases bind_eq_error_iff.1 h with h | ⟨input, hi, h⟩
  · obtain ⟨long, rfl⟩ := demandSymbol_eq_error h
    exact ⟨line.input, by simp [TransitionLine.row], _, rfl, .longInput long⟩
  rcases bind_eq_error_iff.1 h with h | ⟨top, ht, h⟩
  · obtain ⟨long, rfl⟩ := demandSymbol_eq_error h
    exact ⟨line.top, by simp [TransitionLine.row], _, rfl, .longTop long⟩
  · obtain ⟨cause, refused, rfl⟩ := onLine_eq_error h
    refine ⟨line.source, by simp [TransitionLine.row], cause, rfl, ?_⟩
    have is_input := demandSymbol_eq_ok_iff.1 hi
    have is_top := demandSymbol_eq_ok_iff.1 ht
    rcases Builder.addTransition_eq_error refused with ⟨undeclared, rfl⟩ | ⟨undeclared, rfl⟩ |
      ⟨proper, undeclared, rfl⟩ | ⟨undeclared, rfl⟩ | ⟨s, mem, proper, undeclared, rfl⟩
    · exact .source undeclared
    · exact .target undeclared
    · exact .input is_input proper undeclared
    · exact .top is_top undeclared
    · exact .push mem proper undeclared

end

/-! ## The first flaw -/

namespace Layout

variable {l : Layout} {cause : DefinitionFault}

/-- Whether nothing is wrong with the rows above one but what is looked at last. -/
def CleanUpTo (l : Layout) (i : Nat) : Prop := ∀ j < i, ∀ cause, l.Flaw j cause → cause.IsLate

theorem CleanUpTo.succ {i : Nat} (h : l.CleanUpTo i)
    (here : ∀ cause, l.Flaw i cause → cause.IsLate) : l.CleanUpTo (i + 1) := by
  intro j hj
  rcases Nat.lt_succ_iff_lt_or_eq.1 hj with above | rfl
  · exact h j above
  · exact here

/-- Nothing is wrong with transitions that are permitted. -/
theorem CleanUpTo.transitions (h : l.CleanUpTo 5) {i : Nat}
    (permitted : ∀ k < i, ∀ line, l.transitions[k]? = some line → Permits l.declared line) :
    l.CleanUpTo (i + 5) := by
  intro j hj other flaw
  rcases Nat.lt_or_ge j 5 with lt | ge
  · exact h j lt other flaw
  · obtain ⟨k, rfl⟩ := Nat.exists_eq_add_of_le' ge
    cases flaw with
    | transition here flaw =>
      have permits := permitted k (by omega) _ here
      exact absurd (.transition here flaw) ((transition_iff_flawless here).1 permits other)

theorem not_isLate_of_transition {names : List String}
    {inputs stack : Alphabet} {line : TransitionLine} (h : line.Flaw names inputs stack cause) :
    ¬ cause.IsLate := by
  cases h <;> exact id

/-- Only the initial rows are looked at twice. -/
theorem Flaw.row_of_isLate {i : Nat} (h : l.Flaw i cause) (late : cause.IsLate) :
    i = 3 ∨ i = 4 := by
  cases h with
  | initialState => exact .inl rfl
  | initialSymbol => exact .inr rfl
  | transition here flaw => exact absurd late (not_isLate_of_transition flaw)
  | _ => cases late

/-- The fault that refuses a layout, with the row that has it. -/
structure Refusal (l : Layout) (fault : DefinitionFault) (i : Nat) (t : Token)
    (cause : DefinitionFault) : Prop where
  fault_eq : fault = .onLine t.line cause
  on_row : ∃ row, l.rows[i]? = some row ∧ t ∈ row
  first : l.FirstFlaw i cause

/-- A layout is refused for a flaw that is not looked at last if nothing is wrong above it. -/
theorem refusal_of_cleanUpTo {i : Nat} {row : Row} {t : Token} (clean : l.CleanUpTo i)
    (flaw : l.Flaw i cause) (early : ¬ cause.IsLate) (here : l.rows[i]? = some row)
    (mem : t ∈ row) : l.Refusal (.onLine t.line cause) i t cause :=
  ⟨rfl, ⟨row, here, mem⟩, flaw, fun _ => clean, fun late => absurd late early⟩

variable {b : Builder} {fault : DefinitionFault}

/-- The states are refused for one that is declared again. -/
theorem states_refused (h : l.states.foldlM addState .empty = .error fault) :
    ∃ i t cause, l.Refusal fault i t cause := by
  obtain ⟨before, t, after, b', split, done, refused⟩ := foldlM_eq_error h
  obtain ⟨again, rfl⟩ := addState_eq_error refused
  have names : b'.names = before.map Token.text := by
    rw [(addStates_eq_ok_iff.1 done).2]
    simp [Builder.names, Builder.empty]
  have twice : 1 < l.names.count t.text := by
    rw [names, ← List.count_pos_iff] at again
    rw [Layout.names, split, List.map_append, List.count_append, List.map_cons,
      List.count_cons_self]
    omega
  have mem : t ∈ l.states := by
    rw [split]
    exact List.mem_append_right _ (List.mem_cons_self ..)
  have clean : l.CleanUpTo 0 := fun j hj => absurd hj (Nat.not_lt_zero j)
  exact ⟨0, t, _, refusal_of_cleanUpTo clean (.duplicateState twice) id rfl mem⟩

/-- The inputs are refused for one that is no symbol. -/
theorem inputs_refused (clean : l.CleanUpTo 1)
    (h : l.inputSymbols.foldlM addInput b = .error fault) :
    ∃ i t cause, l.Refusal fault i t cause := by
  obtain ⟨before, t, after, b', split, -, refused⟩ := foldlM_eq_error h
  obtain ⟨long, rfl⟩ := addInput_eq_error refused
  have mem : t ∈ l.inputSymbols := by
    rw [split]
    exact List.mem_append_right _ (List.mem_cons_self ..)
  exact ⟨1, t, _, refusal_of_cleanUpTo clean (.longInput mem long) id rfl mem⟩

/-- The stack alphabet is refused for what is no symbol, or for the empty one. -/
theorem stack_refused (clean : l.CleanUpTo 2)
    (h : l.stackSymbols.foldlM addStack b = .error fault) :
    ∃ i t cause, l.Refusal fault i t cause := by
  obtain ⟨before, t, after, b', split, -, refused⟩ := foldlM_eq_error h
  have mem : t ∈ l.stackSymbols := by
    rw [split]
    exact List.mem_append_right _ (List.mem_cons_self ..)
  rcases addStack_eq_error refused with ⟨long, rfl⟩ | ⟨is, rfl⟩
  · exact ⟨2, t, _, refusal_of_cleanUpTo clean (.longStack mem long) id rfl mem⟩
  · have reserved : Symbol.epsilon ∈ symbolsOf l.stackSymbols := List.mem_filterMap.2 ⟨t, mem, is⟩
    exact ⟨2, t, _, refusal_of_cleanUpTo clean (.reserved reserved) id rfl mem⟩

/-- The transitions are refused for the first that names something undeclared or long. -/
theorem transitions_refused (clean : l.CleanUpTo 5)
    (h : l.transitions.foldlM addTransition l.declared = .error fault) :
    ∃ i t cause, l.Refusal fault i t cause := by
  obtain ⟨before, line, after, b', split, done, refused⟩ := foldlM_eq_error h
  obtain ⟨permitted, rfl⟩ := addTransitions_eq_ok_iff.1 done
  obtain ⟨t, mem, cause, rfl, flaw⟩ := addTransition_eq_error refused
  have here : l.transitions[before.length]? = some line := by
    rw [split]
    exact getElem?_append_length ..
  -- The transitions before it have changed nothing that it is checked against.
  obtain ⟨same_inputs, same_stack⟩ := alphabets_foldl_withLine before l.declared
  rw [names_foldl_withLine, names_declared, same_inputs, same_stack] at flaw
  have clean_before : l.CleanUpTo (before.length + 5) := by
    refine clean.transitions fun k hk line' hline => permitted line' ?_
    rw [split, List.getElem?_append_left hk] at hline
    exact List.mem_of_getElem? hline
  have row : l.rows[before.length + 5]? = some line.row := by
    rw [Layout.rows, List.getElem?_append_right (by simp), List.getElem?_map]
    simp [here]
  have early := not_isLate_of_transition flaw
  exact ⟨before.length + 5, t, cause,
    refusal_of_cleanUpTo clean_before (.transition here flaw) early row mem⟩

/-- If all rows are in order but for what is looked at last, an undeclared initial symbol is what a
layout is refused for, whatever its initial state. -/
theorem initialSymbol_refused (late : ∀ j other, l.Flaw j other → j = 3 ∨ j = 4) {s : Symbol}
    (is : l.initialSymbol.symbol? = some s) (undeclared : ¬ s ∈ l.declared.stackAlphabet) :
    l.Refusal (.onLine l.initialSymbol.line (.undeclaredSymbol .initial s l.declared.stackAlphabet))
      4 l.initialSymbol (.undeclaredSymbol .initial s l.declared.stackAlphabet) where
  fault_eq := rfl
  on_row := ⟨_, rfl, List.mem_singleton_self _⟩
  first := by
    refine ⟨.initialSymbol is undeclared, fun early => absurd trivial early,
      fun _ j other flaw => ?_⟩
    rcases late j other flaw with rfl | rfl
    · exact .inr ⟨rfl, rfl⟩
    · exact .inl rfl

/-- If the initial symbol is in order too, a layout is refused for an undeclared initial state. -/
theorem initialState_refused (late : ∀ j other, l.Flaw j other → j = 3 ∨ j = 4)
    (symbol : ∀ other, ¬ l.Flaw 4 other) (undeclared : l.initialState.text ∉ l.names) :
    l.Refusal
      (.onLine l.initialState.line (.undeclaredState .initial l.initialState.text l.names))
      3 l.initialState (.undeclaredState .initial l.initialState.text l.names) where
  fault_eq := rfl
  on_row := ⟨_, rfl, List.mem_singleton_self _⟩
  first := by
    refine ⟨.initialState undeclared, fun early => absurd trivial early, fun _ j other flaw => ?_⟩
    rcases late j other flaw with rfl | rfl
    · exact .inl rfl
    · exact absurd flaw (symbol other)

/-- **A layout is refused for its first flaw**, with the line of a token in the row that has it. -/
theorem build_eq_error (h : l.build = .error fault) : ∃ i t cause, l.Refusal fault i t cause := by
  rw [build_eq] at h
  rcases bind_eq_error_iff.1 h with h | ⟨b₁, states, h⟩
  · exact states_refused h
  obtain ⟨⟨nodup, -⟩, -⟩ := addStates_eq_ok_iff.1 states
  have clean₁ : l.CleanUpTo 1 := fun j hj cause flaw => by
    obtain rfl := Nat.lt_one_iff.1 hj
    exact absurd flaw (nodup_iff_flawless.1 nodup cause)
  rcases bind_eq_error_iff.1 h with h | ⟨b₂, inputs, h⟩
  · exact inputs_refused clean₁ h
  have clean₂ : l.CleanUpTo 2 := clean₁.succ fun cause flaw =>
    absurd flaw (inputs_iff_flawless.1 (addInputs_eq_ok_iff.1 inputs).1 cause)
  rcases bind_eq_error_iff.1 h with h | ⟨b₃, stack, h⟩
  · exact stack_refused clean₂ h
  obtain ⟨-, rfl⟩ := declarations_eq_ok_iff.1 ⟨b₁, states, b₂, inputs, stack⟩
  have clean₄ : l.CleanUpTo 4 := by
    refine (clean₂.succ fun cause flaw => ?_).succ fun cause flaw => ?_
    · exact absurd flaw (stack_iff_flawless.1 (addStacks_eq_ok_iff.1 stack).1 cause)
    · cases flaw with
      | initialState => trivial
  rcases bind_eq_error_iff.1 h with h | ⟨s, is, h⟩
  · obtain ⟨long, rfl⟩ := demandSymbol_eq_error h
    exact ⟨4, l.initialSymbol, _, refusal_of_cleanUpTo clean₄ (.longInitial long) id rfl
      (List.mem_singleton_self _)⟩
  have is_symbol := demandSymbol_eq_ok_iff.1 is
  have clean₅ : l.CleanUpTo 5 := by
    refine clean₄.succ fun cause flaw => ?_
    cases flaw with
    | longInitial long => rw [is_symbol] at long; cases long
    | initialSymbol => trivial
  rcases bind_eq_error_iff.1 h with h | ⟨b₄, transitions, h⟩
  · exact transitions_refused clean₅ h
  obtain ⟨permitted, rfl⟩ := addTransitions_eq_ok_iff.1 transitions
  obtain ⟨-, same_stack⟩ := alphabets_foldl_withLine l.transitions l.declared
  -- All rows have been looked at, so only what is looked at last can be wrong.
  have late (j : Nat) (other : DefinitionFault) (flaw : l.Flaw j other) : j = 3 ∨ j = 4 := by
    have clean : l.CleanUpTo (j + 1 + 5) :=
      clean₅.transitions fun k _ line here => permitted line (List.mem_of_getElem? here)
    exact flaw.row_of_isLate (clean j (by omega) other flaw)
  rcases bind_eq_error_iff.1 h with h | ⟨_, declared, h⟩
  · obtain ⟨cause, refused, rfl⟩ := onLine_eq_error h
    obtain ⟨undeclared, rfl⟩ := Builder.demand_eq_error_iff.1 refused
    rw [same_stack] at undeclared ⊢
    exact ⟨4, _, _, initialSymbol_refused late is_symbol undeclared⟩
  have mem := Builder.demand_eq_ok_iff.1 (onLine_eq_ok_iff.1 declared)
  obtain ⟨cause, refused, rfl⟩ := onLine_eq_error h
  rcases bind_eq_error_iff.1 refused with refused | ⟨_, -, refused⟩
  · obtain ⟨undeclared, rfl⟩ := Builder.lookup_eq_error_iff.1 refused
    rw [names_foldl_withLine, names_declared] at undeclared ⊢
    rw [same_stack, mem_stackAlphabet_declared] at mem
    have symbol := initialSymbol_iff_flawless.1 ⟨s, is_symbol, mem⟩
    exact ⟨3, _, _, initialState_refused late symbol undeclared⟩
  rcases bind_eq_error_iff.1 refused with refused | ⟨_, -, refused⟩
  · exact absurd mem (Builder.demand_eq_error_iff.1 refused).1
  · cases refused

end Layout

/-! ## Messages -/

section

variable {l : Layout} {i : Nat} {cause : DefinitionFault}

/-- Which faults a row may have. -/
theorem Layout.Flaw.isOfToken (h : l.Flaw i cause) : cause.IsOfToken := by
  cases h with
  | transition here flaw => cases flaw <;> trivial
  | _ => trivial

theorem getElem?_toList_append {x : String} {i : Nat} {c : Char} (h : x.toList[i]? = some c)
    (y : String) : (x ++ y).toList[i]? = some c := by
  rw [String.toList_append, List.getElem?_append_left (List.getElem?_eq_some_iff.1 h).1, h]

theorem getLast?_toList_append {y : String} {c : Char} (h : y.toList.getLast? = some c)
    (x : String) : (x ++ y).toList.getLast? = some c := by
  rw [String.toList_append, List.getLast?_append, h]
  rfl

/-- The message of a flaw starts with a word, not with the number of a line. -/
theorem head?_message (h : cause.IsOfToken) : cause.message.toList.head? ≠ some 'l' := by
  have starts {x : String} {c : Char} (first : x.toList[0]? = some c) (other : c ≠ 'l')
      (y : String) : (x ++ y).toList.head? ≠ some 'l' := by
    rw [List.head?_eq_getElem?, getElem?_toList_append first]
    exact fun same => other (Option.some.inj same)
  have more {x : String} {c : Char} (first : x.toList[0]? = some c) (y : String) :
      (x ++ y).toList[0]? = some c := getElem?_toList_append first y
  cases cause with
  | reservedSymbol => exact starts (more rfl _) (by decide) _
  | duplicateState name => exact starts (more rfl _) (by decide) _
  | longSymbol text => exact starts (more rfl _) (by decide) _
  | undeclaredState role name declared =>
    obtain ⟨c, first, other⟩ : ∃ c, role.label.toList[0]? = some c ∧ c ≠ 'l' := by
      cases role <;> exact ⟨_, rfl, by decide⟩
    exact starts (more (more first _) _) other _
  | undeclaredSymbol role symbol declared =>
    obtain ⟨c, first, other⟩ : ∃ c, role.label.toList[0]? = some c ∧ c ≠ 'l' := by
      cases role <;> exact ⟨_, rfl, by decide⟩
    exact starts (more (more (more (more first _) _) _) _) other _
  | _ => cases h

/-- The message of a fault on a line starts with that line. -/
theorem message_onLine (line : Nat) (cause : DefinitionFault) :
    (DefinitionFault.onLine line cause).message =
      "line " ++ toString line ++ ": " ++ cause.message := rfl

theorem message_definition_onLine (line : Nat) (cause : DefinitionFault) :
    (Error.definition (.onLine line cause)).message =
      "Definition error: line " ++ toString line ++ ": " ++ cause.message := by
  have lead : "Definition error: line " = "Definition error: " ++ "line " := by decide
  rw [lead, String.append_assoc, String.append_assoc, String.append_assoc]
  exact congrArg ("Definition error: " ++ ·) (String.append_assoc ..)

/-- The message of a flaw names no line. -/
theorem message_ne_line (h : cause.IsOfToken) (rest : String) : cause.message ≠ "line " ++ rest := by
  intro same
  refine head?_message h ?_
  rw [same, List.head?_eq_getElem?]
  exact getElem?_toList_append rfl _

/-- How the message of a flaw ends. -/
theorem getLast?_message (h : cause.IsOfToken) :
    ∃ c ∈ ['t', '\'', ')', 'r'], cause.message.toList.getLast? = some c := by
  cases cause with
  | reservedSymbol => exact ⟨'t', by decide, getLast?_toList_append rfl _⟩
  | duplicateState name => exact ⟨'\'', by decide, getLast?_toList_append rfl _⟩
  | undeclaredState role name declared => exact ⟨')', by decide, getLast?_toList_append rfl _⟩
  | undeclaredSymbol role symbol declared => exact ⟨')', by decide, getLast?_toList_append rfl _⟩
  | longSymbol text => exact ⟨'r', by decide, getLast?_toList_append rfl _⟩
  | _ => cases h

/-- How the message of what is missing ends. -/
theorem getLast?_message_of_isLack (h : cause.IsLack) :
    ∃ c ∈ ['n', 'e'], cause.message.toList.getLast? = some c := by
  induction cause with
  | emptyDefinition => exact ⟨'n', by decide, rfl⟩
  | incompleteLine => exact ⟨'e', by decide, rfl⟩
  | missingLine what => exact ⟨'e', by decide, getLast?_toList_append rfl _⟩
  | onLine line fault ih =>
    obtain ⟨c, hc, last⟩ := ih h
    exact ⟨c, hc, getLast?_toList_append last _⟩
  | _ => cases h

end

/-! ## Main result -/

/-- The rows of a layout that was read are the starts of the rows of the text. -/
theorem exists_row_of_read {text : String} {l : Layout} (read : Layout.read text = .ok l) {i : Nat}
    {row : Row} (here : l.rows[i]? = some row) {t : Token} (mem : t ∈ row) :
    ∃ row, (significantRows text)[i]? = some row ∧ t ∈ row := by
  obtain ⟨format, tokens⟩ := layoutOf?_eq_some_iff.1 (Layout.read_eq_ok_iff.1 read)
  have five : ((significantRows text).take 5).length = 5 :=
    List.length_take_of_le (followsFormat_iff.1 format).1
  rw [tokens] at here
  rcases Nat.lt_or_ge i 5 with lt | ge
  · rw [List.getElem?_append_left (by rw [five]; exact lt), List.getElem?_take_of_lt lt] at here
    exact ⟨row, here, mem⟩
  · rw [List.getElem?_append_right (by rw [five]; exact ge), five, List.getElem?_map,
      Option.map_eq_some_iff] at here
    obtain ⟨whole, at_place, rfl⟩ := here
    rw [List.getElem?_drop, Nat.add_sub_cancel' ge] at at_place
    exact ⟨whole, at_place, List.mem_of_mem_take mem⟩

/-- A refused text is refused for its layout, or with a message that ends like that of a flaw or of
a text that is too long. -/
theorem load_error_cases {text : String} {error : Error} (h : load text = .error error) :
    (∃ report, error = .layout report) ∨ ∃ fault, error = .definition fault ∧
      ∃ c ∈ ['t', '\'', ')', 'r', 's'], fault.message.toList.getLast? = some c := by
  by_cases small : text.utf8ByteSize ≤ sizeLimit
  · cases read : Layout.read text with
    | error report =>
      rw [load_of_read_eq_error small read] at h
      cases h
      exact .inl ⟨report, rfl⟩
    | ok l =>
      rw [load_of_read_eq_ok small read] at h
      cases build : l.build with
      | ok a =>
        rw [build] at h
        cases h
      | error fault =>
        rw [build] at h
        cases h
        obtain ⟨i, t, cause, refusal⟩ := Layout.build_eq_error build
        obtain ⟨c, hc, last⟩ := getLast?_message refusal.first.flaw.isOfToken
        obtain rfl := refusal.fault_eq
        exact .inr ⟨_, rfl, c, List.mem_append_left ['s'] hc, getLast?_toList_append last _⟩
  · unfold load loadLogged at h
    rw [if_pos (Nat.not_le.1 small)] at h
    cases h
    exact .inr ⟨_, rfl, 's', by decide, getLast?_toList_append rfl _⟩

/-- No text is refused with a message that something is missing. -/
theorem load_message_ne_of_isLack {text : String} {error : Error} (h : load text = .error error)
    {lack : DefinitionFault} (missing : lack.IsLack) :
    error.message ≠ (Error.definition lack).message := by
  intro same
  have starts : (Error.definition lack).message.toList[11]? = some 'e' :=
    getElem?_toList_append rfl _
  rcases load_error_cases h with ⟨report, rfl⟩ | ⟨fault, rfl, c, hc, last⟩
  · -- The message of a report departs from it at once.
    have other : (Error.layout report).message.toList[11]? = some 'p' :=
      getElem?_toList_append rfl _
    rw [same, starts] at other
    exact absurd other (by decide)
  · have ends : (Error.definition fault).message.toList.getLast? = some c :=
      getLast?_toList_append last _
    obtain ⟨d, hd, last'⟩ := getLast?_message_of_isLack missing
    have ends' : (Error.definition lack).message.toList.getLast? = some d :=
      getLast?_toList_append last' _
    rw [same, ends'] at ends
    obtain rfl := Option.some.inj ends
    have apart : ∀ d ∈ ['n', 'e'], d ∉ ['t', '\'', ')', 'r', 's'] := by simp
    exact apart d hd hc

/-- **A refused definition is refused for its first flaw.** A text of a permitted size that follows
the line format is refused, if it is, with the fault of one flaw and the number of the line that has
it: the first in the order in which the rows are looked at. The message names that line once; and
no text at all is refused because something is missing from a row or among the rows. -/
theorem load_first_flaw (text : String) :
    (text.utf8ByteSize ≤ sizeLimit → Paired text.toList → ∀ l error, Layout.read text = .ok l →
      load text = .error error →
      ∃ line cause i row, error = .definition (.onLine line cause) ∧
        (DefinitionFault.onLine line cause).message =
          "line " ++ toString line ++ ": " ++ cause.message ∧
        error.message = "Definition error: line " ++ toString line ++ ": " ++ cause.message ∧
        (∀ rest, cause.message ≠ "line " ++ rest) ∧
        IsOnLine text.toList line row ∧ (significantRows text)[i]? = some row ∧
        l.FirstFlaw i cause ∧ cause.message.toList.head? ≠ some 'l') ∧
    ∀ error, load text = .error error →
      (∀ fault, error = .definition fault → ¬ fault.IsLack) ∧
      ∀ what, ∀ unused ∈ ["Empty definition", "Incomplete line", "Missing " ++ what ++ " line"],
        error.message ≠ "Definition error: " ++ unused ∧
          ∀ n : Nat, error.message ≠ "Definition error: line " ++ toString n ++ ": " ++ unused := by
  constructor
  · intro small paired l error read refused
    rw [load_of_read_eq_ok small read] at refused
    cases build : l.build with
    | ok a =>
      rw [build] at refused
      cases refused
    | error fault =>
      rw [build] at refused
      cases refused
      obtain ⟨i, t, cause, refusal⟩ := Layout.build_eq_error build
      obtain ⟨row, here, mem⟩ := refusal.on_row
      obtain ⟨row, here, mem⟩ := exists_row_of_read read here mem
      obtain rfl := refusal.fault_eq
      have among := mem_of_mem_significant (List.mem_of_getElem? here)
      have of_token := refusal.first.flaw.isOfToken
      exact ⟨t.line, cause, i, row, rfl, message_onLine .., message_definition_onLine ..,
        message_ne_line of_token, paired.isOnLine among mem, here, refusal.first,
        head?_message of_token⟩
  · intro error refused
    have unused (lack : DefinitionFault) (missing : lack.IsLack) :
        error.message ≠ (Error.definition lack).message :=
      load_message_ne_of_isLack refused missing
    refine ⟨fun fault same missing => unused fault missing (congrArg Error.message same),
      fun what message mem => ?_⟩
    obtain ⟨lack, missing, rfl⟩ : ∃ lack : DefinitionFault, lack.IsLack ∧ lack.message = message := by
      simp only [List.mem_cons, List.not_mem_nil, or_false] at mem
      rcases mem with rfl | rfl | rfl
      · exact ⟨.emptyDefinition, trivial, rfl⟩
      · exact ⟨.incompleteLine, trivial, rfl⟩
      · exact ⟨.missingLine what, trivial, rfl⟩
    refine ⟨unused lack missing, fun n => ?_⟩
    rw [← message_definition_onLine]
    exact unused (.onLine n lack) missing

/-- An undeclared initial state on the fourth line, and an undeclared input on the sixth. -/
def twoFlaws : String := "q\na\nZ\np\nZ\nq b Z q .\n"

/-- The transition of `twoFlaws` is refused before its initial state. -/
theorem load_first_flaw_twoFlaws :
    twoFlaws.utf8ByteSize ≤ sizeLimit ∧ Paired twoFlaws.toList ∧
      ∃ l cause, Layout.read twoFlaws = .ok l ∧
        load twoFlaws = .error (.definition (.onLine 6 cause)) ∧
        (Error.definition (.onLine 6 cause)).message =
          "Definition error: line 6: Input symbol: 'b' not found in alphabet ( a )" ∧
        ∃ i row, IsOnLine twoFlaws.toList 6 row ∧ (significantRows twoFlaws)[i]? = some row ∧
          l.FirstFlaw i cause := by
  have small : twoFlaws.utf8ByteSize ≤ sizeLimit := by decide
  have paired : Paired twoFlaws.toList := paired_of_not_mem (by decide)
  have read : Layout.read twoFlaws = .ok ⟨[⟨"q", 1⟩], [⟨"a", 2⟩], [⟨"Z", 3⟩], ⟨"p", 4⟩, ⟨"Z", 5⟩,
      [⟨⟨"q", 6⟩, ⟨"b", 6⟩, ⟨"Z", 6⟩, ⟨"q", 6⟩, ⟨".", 6⟩⟩]⟩ :=
    Layout.read_eq_ok_iff.2 (by decide)
  have refused : load twoFlaws =
      .error (.definition (.onLine 6 (.undeclaredSymbol .input 'b' (Alphabet.ofList ['a'])))) := by
    rw [load_of_read_eq_ok small read]
    decide +kernel
  obtain ⟨line, cause, i, row, same, -, message, -, on_line, here, first, -⟩ :=
    (load_first_flaw twoFlaws).1 small paired _ _ read refused
  cases same
  exact ⟨small, paired, _, _, read, refused, message.trans (by decide), i, row, on_line, here, first⟩

end Definition

end Pushdown
