import Pushdown.Definition.Assembly

/-!
# Assembling a layout

A layout has every line and every token that `assemble` looks for, so none of its fallbacks is
reached, and what is left of it is a chain of steps on a builder:

> `Layout.foldlM_take_transitions`: the parts that are transitions are the transitions, added to the
> builder one by one (`addTransition`);
> `Layout.build_eq`: a layout is built by declaring its rows, adding its transitions and looking up
> what the initial lines name.
-/

namespace Pushdown.Definition

open Automaton (Builder)

/-- Adds the transition of a line that has all its tokens. -/
def addTransition (b : Builder) (l : TransitionLine) : Except DefinitionFault Builder := do
  let input ← demandSymbol l.input
  let top ← demandSymbol l.top
  onLine l.source.line
    (b.addTransition l.source.text input top l.target.text (Symbol.ofText l.push.text))

namespace Draft

variable {d : Draft}

/-- The part of a transition adds it, whatever else has been given. -/
theorem take_transition (d : Draft) (l : TransitionLine) :
    d.take l.part = do
      let b ← addTransition d.builder l
      return { d with builder := b } := by
  simp only [take, TransitionLine.part, nextToken, addTransition, bind_assoc]
  rfl

theorem foldlM_take_transitions (lines : List TransitionLine) (d : Draft) :
    (lines.map TransitionLine.part).foldlM take d = do
      let b ← lines.foldlM addTransition d.builder
      return { d with builder := b } := by
  induction lines generalizing d with
  | nil => rfl
  | cons l lines ih =>
    simp only [List.map_cons, List.foldlM_cons, take_transition, bind_assoc, pure_bind, ih]

end Draft

/-- No fallback is reached from a layout: its rows are declared, its transitions are added, and last
it is looked up what the two initial lines name, the symbol before the state. -/
theorem Layout.build_eq (l : Layout) :
    l.build = (do
      let b ← l.states.foldlM addState .empty
      let b ← l.inputSymbols.foldlM addInput b
      let b ← l.stackSymbols.foldlM addStack b
      let initialSymbol ← demandSymbol l.initialSymbol
      let b ← l.transitions.foldlM addTransition b
      onLine l.initialSymbol.line (Builder.demand .initial initialSymbol b.stackAlphabet)
      onLine l.initialState.line (b.build l.initialState.text initialSymbol)) := by
  simp only [build, definitions, List.head?_cons, assemble, parts, List.cons_append, List.nil_append,
    List.foldlM_cons, List.foldlM_append, List.foldlM_nil, Draft.foldlM_take_transitions, Draft.take,
    nextToken, required, bind_assoc, pure_bind, Draft.empty]
  rfl

end Pushdown.Definition
