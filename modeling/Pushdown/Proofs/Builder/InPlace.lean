import Pushdown.Proofs.Builder.Calls
import Std.Data.HashMap.Lemmas

/-!
# Building in place

A call on a `Builder` that succeeds gives back a new builder, so a call that is refused has nothing
to undo. A `Workbench` is a builder of the other kind: one value that a call changes as it goes
along, where what was changed before a fault stays changed (`Workbench.Action`). Beside the states
it keeps an index of their names, and looks names up there instead of searching for them.

The two must agree, and nothing of that is free: the index must name each state's place, and every
check must stand before the first change. A workbench *represents* a builder if it has the same
contents and its index leads where a search among the states leads (`Workbench.Represents`):

> `follows_carryOut`: on a workbench that represents a builder, a call answers what the builder
> answers. If it succeeds, the two correspond again; if it is refused, the workbench is as it was.
-/

namespace Pushdown.Automaton

/-- A builder that calls change in place. -/
structure Workbench where
  states : Array State
  /-- The number of each declared name. -/
  index : Std.HashMap String StateId
  inputAlphabet : Alphabet
  stackAlphabet : Alphabet

namespace Workbench

/-- Nothing declared yet. -/
def empty : Workbench := ⟨#[], ∅, .empty, .empty⟩

/-- The names declared so far, in order. -/
def names (w : Workbench) : List String := w.states.toList.map (·.name)

/-- The number that the index has for a name. -/
def lookup (w : Workbench) (role : StateRole) (name : String) : Except DefinitionFault StateId :=
  match w.index[name]? with
  | some id => .ok id
  | none => .error (.undeclaredState role name w.names)

/-! ## Actions -/

/-- What changes a workbench as it goes and may end in a fault, the changes made before it kept. -/
abbrev Action (α : Type) := ExceptT DefinitionFault (StateM Workbench) α

/-- The outcome of an action on a workbench, and the workbench afterwards. -/
def Action.on {α : Type} (x : Action α) (w : Workbench) : Except DefinitionFault α × Workbench :=
  x.run.run w

/-- A look at the workbench that may end in a fault. -/
def look {α : Type} (x : Workbench → Except DefinitionFault α) : Action α := do
  match x (← get) with
  | .ok a => return a
  | .error fault => throw fault

/-- Declares a state; each name only once. -/
def declareState (name : String) : Action StateId := do
  if (← get).index.contains name then throw (.duplicateState name)
  else
    let id : StateId := ⟨(← get).states.size⟩
    modify fun w => { w with states := w.states.push ⟨name, .empty⟩ }
    modify fun w => { w with index := w.index.insert name id }
    return id

/-- Declares an input symbol. -/
def declareInput (s : Symbol) : Action Unit :=
  if s.isEpsilon then throw .reservedSymbol
  else modify fun w => { w with inputAlphabet := w.inputAlphabet.insert s }

/-- Declares a stack symbol. -/
def declareStack (s : Symbol) : Action Unit :=
  if s.isEpsilon then throw .reservedSymbol
  else modify fun w => { w with stackAlphabet := w.stackAlphabet.insert s }

/-- Adds a transition. -/
def addTransition (source : String) (input top : Symbol) (target : String) (push : List Symbol) :
    Action Unit := do
  let source ← look (·.lookup .source source)
  let target ← look (·.lookup .target target)
  look fun w => Builder.demandUnlessEpsilon .input input w.inputAlphabet
  look fun w => Builder.demand .top top w.stackAlphabet
  look fun w => push.forM fun s => Builder.demandUnlessEpsilon .push s w.stackAlphabet
  modify fun w => { w with
    states := w.states.modify source.index fun state =>
      { state with table := state.table.add ⟨input, top⟩ ⟨target, push⟩ } }

/-- What a call does, and the number of the state if it declares one. -/
def act : Builder.Call → Action (Option StateId)
  | .state name => return some (← declareState name)
  | .input s => do
    declareInput s
    return none
  | .stack s => do
    declareStack s
    return none
  | .transition source input top target push => do
    addTransition source input top target push
    return none

/-- Carries out a call: its answer, and the workbench afterwards. -/
def carryOut (w : Workbench) (call : Builder.Call) :
    Except DefinitionFault (Option StateId) × Workbench :=
  (act call).on w

/-- The finished automaton, with its initial state and the initial symbol of its stack. -/
def build (w : Workbench) (initialState : String) (initialSymbol : Symbol) :
    Except DefinitionFault Automaton := do
  let initialState ← w.lookup .initial initialState
  Builder.demand .initial initialSymbol w.stackAlphabet
  return { states := w.states
           inputAlphabet := w.inputAlphabet
           stackAlphabet := w.stackAlphabet
           initialState
           initialSymbol }

variable {w : Workbench} {b b' : Builder} {α β : Type}

/-! ## Actions step by step -/

theorem on_pure (a : α) (w : Workbench) : (pure a : Action α).on w = (.ok a, w) := rfl

theorem on_get (w : Workbench) : (get : Action Workbench).on w = (.ok w, w) := rfl

theorem on_modify (f : Workbench → Workbench) (w : Workbench) :
    (modify f : Action PUnit).on w = (.ok ⟨⟩, f w) := rfl

theorem on_bind (x : Action α) (f : α → Action β) (w : Workbench) :
    (x >>= f).on w =
      match x.on w with
      | (.ok a, w') => (f a).on w'
      | (.error fault, w') => (.error fault, w') := by
  simp only [Action.on, ExceptT.run_bind, StateT.run_bind]
  rcases x.run.run w with ⟨answer, w'⟩
  cases answer with
  | ok a => rfl
  | error fault => rfl

theorem on_look (x : Workbench → Except DefinitionFault α) (w : Workbench) :
    (look x).on w = (x w, w) := by
  unfold look
  rw [on_bind, on_get]
  simp only
  cases x w with
  | ok a => rfl
  | error fault => rfl

/-! ## A workbench and the builder it represents -/

/-- A workbench has the contents of a builder, and its index leads to the states. -/
structure Represents (w : Workbench) (b : Builder) : Prop where
  states_eq : w.states = b.states
  inputAlphabet_eq : w.inputAlphabet = b.inputAlphabet
  stackAlphabet_eq : w.stackAlphabet = b.stackAlphabet
  index_eq : ∀ name, w.index[name]? = (b.states.findIdx? (·.name == name)).map StateId.mk

theorem represents_empty : empty.Represents .empty where
  states_eq := rfl
  inputAlphabet_eq := rfl
  stackAlphabet_eq := rfl
  index_eq name := by simp [empty, Builder.empty]

/-- Names are looked up with the same answer. -/
theorem Represents.lookup_eq (h : w.Represents b) (role : StateRole) (name : String) :
    w.lookup role name = b.lookup role name := by
  have names_eq : w.names = b.names := by rw [names, Builder.names, h.states_eq]
  unfold Workbench.lookup Builder.lookup
  rw [h.index_eq, names_eq]
  cases b.states.findIdx? (·.name == name) with
  | none => rfl
  | some i => rfl

theorem Represents.build_eq (h : w.Represents b) (name : String) (symbol : Symbol) :
    w.build name symbol = b.build name symbol := by
  unfold Workbench.build Builder.build
  rw [h.lookup_eq, h.states_eq, h.inputAlphabet_eq, h.stackAlphabet_eq]

/-- An action does to the workbench `w` what is made of a builder: the same answer and the same
contents, or the same fault and the workbench as it was. -/
def Follows (w : Workbench) (result : Except DefinitionFault α × Workbench) :
    Except DefinitionFault (α × Builder) → Prop
  | .ok (a, b') => result.1 = .ok a ∧ result.2.Represents b'
  | .error fault => result = (.error fault, w)

/-- To give another answer in the end changes nothing. -/
theorem Follows.map {x : Action α} {made : Except DefinitionFault (α × Builder)}
    (h : Follows w (x.on w) made) (answer : α → β) :
    Follows w ((x >>= fun a => pure (answer a)).on w)
      (made >>= fun r => pure (answer r.1, r.2)) := by
  rw [on_bind]
  cases made with
  | ok r =>
    obtain ⟨ok, represents⟩ := h
    rcases result : x.on w with ⟨found, w'⟩
    rw [result] at ok represents
    obtain rfl : found = .ok r.1 := ok
    exact ⟨rfl, represents⟩
  | error fault =>
    have refused : x.on w = (.error fault, w) := h
    rw [refused]
    rfl

theorem Follows.answer {x : Action Unit} {made : Except DefinitionFault Builder}
    (h : Follows w (x.on w) (made >>= fun b' => pure ((), b'))) (answer : β) :
    Follows w ((x >>= fun _ => pure answer).on w) (made >>= fun b' => pure (answer, b')) := by
  have mapped := h.map fun _ => answer
  simp only [bind_assoc, pure_bind] at mapped
  exact mapped

/-- A look that finds the same on both sides, and then the rest. -/
theorem Follows.look {x : Workbench → Except DefinitionFault α} {found : Except DefinitionFault α}
    {f : α → Action β} {g : α → Except DefinitionFault (β × Builder)} (same : x w = found)
    (rest : ∀ a, Follows w ((f a).on w) (g a)) :
    Follows w ((Workbench.look x >>= f).on w) (found >>= g) := by
  rw [on_bind, on_look, same]
  cases found with
  | ok a => exact rest a
  | error fault => rfl

/-! ## One lemma for each call -/

theorem follows_declareState (h : w.Represents b) (name : String) :
    Follows w ((declareState name).on w) (b.declareState name) := by
  have known : w.index.contains name = (b.states.findIdx? (·.name == name)).isSome := by
    rw [Std.HashMap.contains_eq_isSome_getElem?, h.index_eq, Option.isSome_map]
  unfold declareState Builder.declareState
  rw [on_bind, on_get]
  simp only [known]
  cases found : b.states.findIdx? (·.name == name) with
  | some i => rfl
  | none =>
    simp only [Option.isSome_none, Bool.false_eq_true, if_false, on_bind, on_get, on_modify,
      on_pure]
    refine ⟨by rw [h.states_eq], ?_, h.inputAlphabet_eq, h.stackAlphabet_eq, fun other => ?_⟩
    · rw [h.states_eq]
    · show (w.index.insert name ⟨w.states.size⟩)[other]? =
        ((b.states.push ⟨name, .empty⟩).findIdx? (·.name == other)).map StateId.mk
      rw [Std.HashMap.getElem?_insert, h.index_eq, Array.findIdx?_push, h.states_eq]
      by_cases same : name = other
      · subst same
        simp [found]
      · simp [same]

theorem follows_declareInput (h : w.Represents b) (s : Symbol) :
    Follows w ((declareInput s).on w) (b.declareInput s >>= fun b' => pure ((), b')) := by
  unfold declareInput Builder.declareInput Alphabet.declare
  split
  · rfl
  · refine ⟨rfl, h.states_eq, ?_, h.stackAlphabet_eq, h.index_eq⟩
    exact congrArg (Alphabet.insert · s) h.inputAlphabet_eq

theorem follows_declareStack (h : w.Represents b) (s : Symbol) :
    Follows w ((declareStack s).on w) (b.declareStack s >>= fun b' => pure ((), b')) := by
  unfold declareStack Builder.declareStack Alphabet.declare
  split
  · rfl
  · refine ⟨rfl, h.states_eq, h.inputAlphabet_eq, ?_, h.index_eq⟩
    exact congrArg (Alphabet.insert · s) h.stackAlphabet_eq

theorem follows_addTransition (h : w.Represents b) (source : String) (input top : Symbol)
    (target : String) (push : List Symbol) :
    Follows w ((addTransition source input top target push).on w)
      (b.addTransition source input top target push >>= fun b' => pure ((), b')) := by
  unfold addTransition Builder.addTransition
  simp only [bind_assoc]
  refine .look (h.lookup_eq .source source) fun source => ?_
  refine .look (h.lookup_eq .target target) fun target => ?_
  refine .look (congrArg _ h.inputAlphabet_eq) fun _ => ?_
  refine .look (congrArg _ h.stackAlphabet_eq) fun _ => ?_
  refine .look (by rw [h.stackAlphabet_eq]) fun _ => ?_
  rw [on_modify]
  refine ⟨rfl, ?_, h.inputAlphabet_eq, h.stackAlphabet_eq, fun name => ?_⟩
  · rw [h.states_eq]
  · show w.index[name]? = ((b.withOutcome source.index ⟨input, top⟩ ⟨target, push⟩).states.findIdx?
      (·.name == name)).map StateId.mk
    rw [h.index_eq, Builder.findIdx?_states, Builder.findIdx?_states, Builder.names_withOutcome]

/-- **A call on a workbench does what the call on its builder does, and nothing if it is
refused.** -/
theorem follows_carryOut (h : w.Represents b) (call : Builder.Call) :
    Follows w (w.carryOut call) (b.attempt call) := by
  cases call with
  | state name => exact (follows_declareState h name).map some
  | input s => exact (follows_declareInput h s).answer none
  | stack s => exact (follows_declareStack h s).answer none
  | transition source input top target push =>
    exact (follows_addTransition h source input top target push).answer none

end Workbench

end Pushdown.Automaton
