import Pushdown.Json.Format
import Pushdown.Limits
import Pushdown.Summary

/-!
# Values as JSON

The formats in which the values of this library are exchanged as JSON. Each is made of
natural numbers, texts, texts of one character, lists and records, and reads back what it
writes (`Json.Format.ofValue_toValue`).

An alphabet is a list of symbols, in any order and however often each occurs, and is taken
as it stands: also the empty symbol may be among them.
-/

namespace Pushdown

open Json (Shape Fields Format)

/-- A symbol is a text of one character. -/
def Symbol.format : Format Symbol := ⟨.character, id, id, fun _ => rfl⟩

/-- An alphabet is a list of symbols. -/
def Alphabet.format : Format Alphabet :=
  Symbol.format.list.via Alphabet.symbols Alphabet.ofList fun _ =>
    Alphabet.ext_mem fun _ => Alphabet.mem_ofList

/-- A state number is a number. -/
def StateId.format : Format StateId :=
  ⟨.natural none, StateId.index, StateId.mk, fun _ => rfl⟩

/-- An outcome is a record of its target and the list of symbols it pushes. -/
def Transition.Outcome.format : Format Transition.Outcome where
  shape :=
    .record "Outcome" <| .field "target" (.natural none) <| .field "push" (.list .character) .done
  toValue o := (o.target.index, o.push, ())
  ofValue := fun (target, push, ()) => ⟨⟨target⟩, push⟩
  ofValue_toValue _ := rfl

/-- Limits are a record of numbers, each of which has the standard value where it is not given. -/
def Limits.format : Format Limits where
  shape :=
    .record "Config" <|
      .field "max_transitions" (.natural (some Limits.standard.maxTransitions)) .done
  toValue l := (l.maxTransitions, ())
  ofValue := fun (maxTransitions, ()) => ⟨maxTransitions⟩
  ofValue_toValue _ := rfl

/-- The summary of a transition is a record of its five parts. -/
def TransitionSummary.format : Format TransitionSummary where
  shape :=
    .record "TransitionInfo" <|
      .field "from" .text <| .field "input" .character <| .field "top" .character <|
        .field "to" .text <| .field "push" .text .done
  toValue t := (t.source, t.input, t.top, t.target, t.push, ())
  ofValue := fun (source, input, top, target, push, ()) => ⟨source, input, top, target, push⟩
  ofValue_toValue _ := rfl

/-- The summary of an automaton is a record. -/
def Summary.format : Format Summary where
  shape :=
    .record "ProgramInfo" <|
      .field "name" .text <| .field "states" (.list .text) <|
        .field "input_alphabet" .text <| .field "stack_alphabet" .text <|
          .field "initial_state" .text <| .field "initial_symbol" .character <|
            .field "transitions" TransitionSummary.format.list.shape .done
  toValue s :=
    (s.name, s.states, s.inputAlphabet, s.stackAlphabet, s.initialState, s.initialSymbol,
      TransitionSummary.format.list.toValue s.transitions, ())
  ofValue := fun (name, states, inputAlphabet, stackAlphabet, initialState, initialSymbol,
      transitions, ()) =>
    { name, states, inputAlphabet, stackAlphabet, initialState, initialSymbol
      transitions := TransitionSummary.format.list.ofValue transitions }
  ofValue_toValue s := by
    simp only [TransitionSummary.format.list.ofValue_toValue]

end Pushdown
