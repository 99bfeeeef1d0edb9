import Pushdown.Interchange
import Pushdown.Proofs.Json.Records

/-!
# Values exchanged as JSON

Every format in which values are exchanged reads back what it writes, from the text without blanks
and from the one with a line for each item and member (`Json.Format.RoundTrips`). What is to be
checked of a format is that the fields of its records have different names; what is to be checked of
a value is that its numbers have 64 bits:

> `formats_round_trip`: symbols, alphabets, outcomes, limits and both kinds of summaries are read
> back.
-/

namespace Pushdown

namespace Json.Format

variable {α : Type} {f : Format α} {a : α}

/-- Whether a value is read back from both written forms of its document. -/
def RoundTrips (f : Format α) (a : α) : Prop :=
  f.read (f.write a).compact = .ok a ∧ f.read (f.write a).pretty = .ok a

theorem roundTrips (distinct : f.shape.Distinct) (fits : f.shape.Fits (f.toValue a)) :
    f.RoundTrips a :=
  read_write (f.shape.readsBack distinct _ fits)

/-- The numbers of a list have 64 bits if those of its items have. -/
theorem fits_list {values : List α} (h : ∀ a ∈ values, f.shape.Fits (f.toValue a)) :
    f.list.shape.Fits (f.list.toValue values) :=
  List.forall_mem_map.2 h

end Json.Format

theorem Transition.Outcome.distinct_format : Transition.Outcome.format.shape.Distinct :=
  ⟨(by decide : ["target", "push"].Nodup), trivial, trivial, trivial⟩

theorem Limits.distinct_format : Limits.format.shape.Distinct :=
  ⟨(by decide : ["max_transitions"].Nodup), trivial, trivial⟩

theorem TransitionSummary.distinct_format : TransitionSummary.format.shape.Distinct :=
  ⟨(by decide : ["from", "input", "top", "to", "push"].Nodup),
    trivial, trivial, trivial, trivial, trivial, trivial⟩

/-- The summary of a transition has no numbers. -/
theorem TransitionSummary.fits_format (t : TransitionSummary) :
    TransitionSummary.format.shape.Fits (TransitionSummary.format.toValue t) :=
  ⟨trivial, trivial, trivial, trivial, trivial, trivial⟩

theorem Summary.distinct_format : Summary.format.shape.Distinct :=
  ⟨(by decide : ["name", "states", "input_alphabet", "stack_alphabet", "initial_state",
      "initial_symbol", "transitions"].Nodup),
    trivial, trivial, trivial, trivial, trivial, trivial, TransitionSummary.distinct_format,
    trivial⟩

/-- The summary of an automaton has no numbers. -/
theorem Summary.fits_format (s : Summary) : Summary.format.shape.Fits (Summary.format.toValue s) :=
  ⟨trivial, fun _ _ => trivial, trivial, trivial, trivial, trivial,
    Json.Format.fits_list fun t _ => t.fits_format, trivial⟩

/-- **Every value that is exchanged is read back**, if its numbers have 64 bits. -/
theorem formats_round_trip :
    (∀ s : Symbol, Symbol.format.RoundTrips s) ∧
    (∀ a : Alphabet, Alphabet.format.RoundTrips a) ∧
    (∀ o : Transition.Outcome, o.target.index < UInt64.size →
      Transition.Outcome.format.RoundTrips o) ∧
    (∀ l : Limits, l.maxTransitions < UInt64.size → Limits.format.RoundTrips l) ∧
    (∀ t : TransitionSummary, TransitionSummary.format.RoundTrips t) ∧
    ∀ s : Summary, Summary.format.RoundTrips s := by
  refine ⟨fun s => ?symbol, fun a => ?alphabet, fun o fits => ?outcome, fun l fits => ?limits,
    fun t => ?transition, fun s => ?automaton⟩
  case symbol => exact Json.Format.roundTrips trivial trivial
  case alphabet => exact Json.Format.roundTrips trivial fun _ _ => trivial
  case outcome =>
    exact Json.Format.roundTrips Transition.Outcome.distinct_format
      ⟨fits, fun _ _ => trivial, trivial⟩
  case limits => exact Json.Format.roundTrips Limits.distinct_format ⟨fits, trivial⟩
  case transition => exact Json.Format.roundTrips TransitionSummary.distinct_format t.fits_format
  case automaton => exact Json.Format.roundTrips Summary.distinct_format s.fits_format

/-- The greatest number and two characters that are escaped are read back. -/
theorem formats_round_trip_greatest :
    18446744073709551615 < UInt64.size ∧
      Limits.format.read "\x7b\"max_transitions\":18446744073709551615\x7d" =
        .ok ⟨18446744073709551615⟩ ∧
      Transition.Outcome.format.read
        "\x7b\"target\":18446744073709551615,\"push\":[\"\\\"\",\"\\n\"]\x7d" =
        .ok ⟨⟨18446744073709551615⟩, ['"', '\n']⟩ := by
  obtain ⟨-, -, outcomes, limits, -⟩ := formats_round_trip
  have fits : 18446744073709551615 < UInt64.size := by decide
  have number : (Limits.format.write ⟨18446744073709551615⟩).compact =
      "\x7b\"max_transitions\":18446744073709551615\x7d" := by decide +kernel
  have outcome : (Transition.Outcome.format.write ⟨⟨18446744073709551615⟩, ['"', '\n']⟩).compact =
      "\x7b\"target\":18446744073709551615,\"push\":[\"\\\"\",\"\\n\"]\x7d" := by
    decide +kernel
  have read := (limits ⟨18446744073709551615⟩ fits).1
  have read' := (outcomes ⟨⟨18446744073709551615⟩, ['"', '\n']⟩ fits).1
  rw [number] at read
  rw [outcome] at read'
  exact ⟨fits, read, read'⟩

end Pushdown
