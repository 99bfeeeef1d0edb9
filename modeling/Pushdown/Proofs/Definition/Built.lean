import Pushdown.Proofs.Definition.Meaning

/-!
# Loaded automata are built

The loader has no way of its own to make an automaton. Every step that it takes is a call on a
builder, or leaves the builder as it was, where the empty symbol stands among the input symbols. So
`Builder.GrowsTo`, that some calls lead from one builder to another, holds across each of its loops
(`growsTo_of_foldlM`), and an automaton that was loaded is one that calls on a builder return:

> `isBuilt_of_load`: what holds of every built automaton holds of every loaded one.
-/

namespace Pushdown

namespace Automaton.Builder

variable {b b' b'' : Builder}

/-- Some calls lead from one builder to another. -/
def GrowsTo (b b' : Builder) : Prop := ∃ calls, b.performAll calls = b'

theorem GrowsTo.refl (b : Builder) : b.GrowsTo b := ⟨[], rfl⟩

theorem GrowsTo.trans (h : b.GrowsTo b') (h' : b'.GrowsTo b'') : b.GrowsTo b'' := by
  obtain ⟨calls, rfl⟩ := h
  obtain ⟨more, rfl⟩ := h'
  exact ⟨calls ++ more, List.foldl_append⟩

/-- A call that succeeds makes the builder grow. -/
theorem growsTo_of_attempt {call : Call} {id : Option StateId}
    (h : b.attempt call = .ok (id, b')) : b.GrowsTo b' := by
  refine ⟨[call], ?_⟩
  show (b.perform call).1 = b'
  rw [perform, h]

/-- A loop makes the builder grow if each of its steps does. -/
theorem growsTo_of_foldlM {α : Type} {step : Builder → α → Except DefinitionFault Builder}
    (grows : ∀ b x b', step b x = .ok b' → b.GrowsTo b') {xs : List α}
    (h : xs.foldlM step b = .ok b') : b.GrowsTo b' := by
  induction xs generalizing b with
  | nil =>
    cases h
    exact .refl _
  | cons x xs ih =>
    rw [List.foldlM_cons, bind_eq_ok_iff] at h
    obtain ⟨made, first, rest⟩ := h
    exact (grows b x made first).trans (ih rest)

end Automaton.Builder

namespace Definition

open Automaton (Builder)

theorem growsTo_of_addState {t : Token} {b b' : Builder} (h : addState b t = .ok b') :
    b.GrowsTo b' := by
  unfold addState at h
  simp only [bind_eq_ok_iff, onLine_eq_ok_iff] at h
  obtain ⟨⟨id, made⟩, declared, same⟩ := h
  cases same
  have called : b.attempt (.state t.text) = .ok (some id, made) :=
    bind_eq_ok_iff.2 ⟨_, declared, rfl⟩
  exact Builder.growsTo_of_attempt called

theorem growsTo_of_addInput {t : Token} {b b' : Builder} (h : addInput b t = .ok b') :
    b.GrowsTo b' := by
  unfold addInput at h
  obtain ⟨s, -, h⟩ := bind_eq_ok_iff.1 h
  split at h
  · cases h
    exact .refl b
  · have called : b.attempt (.input s) = .ok (none, b') :=
      bind_eq_ok_iff.2 ⟨_, onLine_eq_ok_iff.1 h, rfl⟩
    exact Builder.growsTo_of_attempt called

theorem growsTo_of_addStack {t : Token} {b b' : Builder} (h : addStack b t = .ok b') :
    b.GrowsTo b' := by
  unfold addStack at h
  obtain ⟨s, -, h⟩ := bind_eq_ok_iff.1 h
  have called : b.attempt (.stack s) = .ok (none, b') :=
    bind_eq_ok_iff.2 ⟨_, onLine_eq_ok_iff.1 h, rfl⟩
  exact Builder.growsTo_of_attempt called

theorem growsTo_of_addTransition {line : TransitionLine} {b b' : Builder}
    (h : addTransition b line = .ok b') : b.GrowsTo b' := by
  unfold addTransition at h
  obtain ⟨input, -, h⟩ := bind_eq_ok_iff.1 h
  obtain ⟨top, -, h⟩ := bind_eq_ok_iff.1 h
  have called : b.attempt (.transition line.source.text input top line.target.text
      (Symbol.ofText line.push.text)) = .ok (none, b') :=
    bind_eq_ok_iff.2 ⟨_, onLine_eq_ok_iff.1 h, rfl⟩
  exact Builder.growsTo_of_attempt called

/-- The automaton of a layout is built. -/
theorem Layout.isBuilt_of_build {l : Layout} {a : Automaton} (h : l.build = .ok a) : a.IsBuilt := by
  rw [Layout.build_eq] at h
  obtain ⟨states, h_states, h⟩ := bind_eq_ok_iff.1 h
  obtain ⟨inputs, h_inputs, h⟩ := bind_eq_ok_iff.1 h
  obtain ⟨stack, h_stack, h⟩ := bind_eq_ok_iff.1 h
  obtain ⟨symbol, -, h⟩ := bind_eq_ok_iff.1 h
  obtain ⟨made, h_lines, h⟩ := bind_eq_ok_iff.1 h
  obtain ⟨-, -, h⟩ := bind_eq_ok_iff.1 h
  have header : Builder.empty.GrowsTo stack :=
    ((Builder.growsTo_of_foldlM (fun _ _ _ => growsTo_of_addState) h_states).trans
      (Builder.growsTo_of_foldlM (fun _ _ _ => growsTo_of_addInput) h_inputs)).trans
      (Builder.growsTo_of_foldlM (fun _ _ _ => growsTo_of_addStack) h_stack)
  obtain ⟨calls, rfl⟩ :=
    header.trans (Builder.growsTo_of_foldlM (fun _ _ _ => growsTo_of_addTransition) h_lines)
  exact ⟨calls, l.initialState.text, symbol, onLine_eq_ok_iff.1 h⟩

/-- Every automaton that a text is loaded as is one that some calls build. -/
theorem isBuilt_of_load {text : String} {a : Automaton} (h : load text = .ok a) : a.IsBuilt := by
  obtain ⟨-, l, -, build⟩ := load_eq_ok_iff.1 h
  exact Layout.isBuilt_of_build build

end Definition

end Pushdown
