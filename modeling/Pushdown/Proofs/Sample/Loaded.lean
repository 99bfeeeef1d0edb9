import Pushdown.Proofs.Definition.Built
import Pushdown.Sample
import Mathlib.Algebra.GroupWithZero.Nat
import Mathlib.Data.List.Forall2

/-!
# The samples as automata

A sample is a definition, and what it does is told by the automaton that it is loaded as. The four
automata stand here as data, so that their moves can be computed:

> `all_eq`: none of the definitions is refused, and these are the automata that they describe.

A text of lines has the characters of its lines, each with its end (`toList_ofLines`), and so it is
loaded without ever being put together (`load_ofLines`).
-/

namespace Pushdown.Sample

open Definition (Layout layoutOf? rowsFrom significant sizeLimit)

/-! ## Texts of lines -/

theorem toList_ofLines (lines : List String) :
    (ofLines lines).toList = lines.flatMap fun line => line.toList ++ ['\n'] := by
  simp [ofLines, List.flatMap_map]

theorem utf8ByteSize_ofLines (lines : List String) :
    (ofLines lines).utf8ByteSize = (lines.map fun line => line.utf8ByteSize + 1).sum := by
  induction lines with
  | nil => rfl
  | cons line lines ih =>
    have first : ofLines (line :: lines) = line ++ "\n" ++ ofLines lines := by
      simp [ofLines, String.join_cons]
    rw [first, String.utf8ByteSize_append, String.utf8ByteSize_append, ih]
    rfl

/-- A text of lines is loaded as what its rows describe. -/
theorem load_ofLines {lines : List String} {a : Automaton}
    (small : (lines.map fun line => line.utf8ByteSize + 1).sum ≤ sizeLimit)
    (built : (layoutOf? (significant 0
      (rowsFrom 1 (lines.flatMap fun line => line.toList ++ ['\n'])))).map Layout.build =
        some (.ok a)) :
    Definition.load (ofLines lines) = .ok a := by
  rw [← utf8ByteSize_ofLines] at small
  rw [← toList_ofLines] at built
  obtain ⟨l, laid, build⟩ := Option.map_eq_some_iff.1 built
  exact Definition.load_eq_ok_iff.2 ⟨small, l, Definition.Layout.read_eq_ok_iff.2 laid, build⟩

/-! ## The automata -/

/-- The automaton of `anbn`: the first state counts each `a` by an `A` on the stack, the second
takes one away for each `b`. -/
def anbnAutomaton : Automaton where
  states := #[
    ⟨"q0", ⟨[
      ⟨⟨'.', 'Z'⟩, ⟨⟨1⟩, ['Z']⟩⟩,
      ⟨⟨'a', 'A'⟩, ⟨⟨0⟩, ['A', 'A']⟩⟩,
      ⟨⟨'a', 'Z'⟩, ⟨⟨0⟩, ['A', 'Z']⟩⟩,
      ⟨⟨'b', 'A'⟩, ⟨⟨1⟩, ['.']⟩⟩]⟩⟩,
    ⟨"q1", ⟨[
      ⟨⟨'.', 'Z'⟩, ⟨⟨1⟩, ['.']⟩⟩,
      ⟨⟨'b', 'A'⟩, ⟨⟨1⟩, ['.']⟩⟩]⟩⟩]
  inputAlphabet := Alphabet.ofList ['a', 'b']
  stackAlphabet := Alphabet.ofList ['A', 'Z']
  initialState := ⟨0⟩
  initialSymbol := 'Z'

/-- The automaton of `evenPalindrome`: the first state puts each letter on the stack, until it is
left without reading anything; the second takes each letter from there. -/
def evenPalindromeAutomaton : Automaton where
  states := #[
    ⟨"push", ⟨[
      ⟨⟨'.', 'A'⟩, ⟨⟨1⟩, ['A']⟩⟩,
      ⟨⟨'.', 'B'⟩, ⟨⟨1⟩, ['B']⟩⟩,
      ⟨⟨'.', 'Z'⟩, ⟨⟨1⟩, ['Z']⟩⟩,
      ⟨⟨'a', 'A'⟩, ⟨⟨0⟩, ['A', 'A']⟩⟩,
      ⟨⟨'a', 'B'⟩, ⟨⟨0⟩, ['A', 'B']⟩⟩,
      ⟨⟨'a', 'Z'⟩, ⟨⟨0⟩, ['A', 'Z']⟩⟩,
      ⟨⟨'b', 'A'⟩, ⟨⟨0⟩, ['B', 'A']⟩⟩,
      ⟨⟨'b', 'B'⟩, ⟨⟨0⟩, ['B', 'B']⟩⟩,
      ⟨⟨'b', 'Z'⟩, ⟨⟨0⟩, ['B', 'Z']⟩⟩]⟩⟩,
    ⟨"pop", ⟨[
      ⟨⟨'.', 'Z'⟩, ⟨⟨1⟩, ['.']⟩⟩,
      ⟨⟨'a', 'A'⟩, ⟨⟨1⟩, ['.']⟩⟩,
      ⟨⟨'b', 'B'⟩, ⟨⟨1⟩, ['.']⟩⟩]⟩⟩]
  inputAlphabet := Alphabet.ofList ['a', 'b']
  stackAlphabet := Alphabet.ofList ['A', 'B', 'Z']
  initialState := ⟨0⟩
  initialSymbol := 'Z'

/-- The automaton of `epsilonLoop`, which has one move and can always make it. -/
def epsilonLoopAutomaton : Automaton where
  states := #[⟨"q", ⟨[⟨⟨'.', 'Z'⟩, ⟨⟨0⟩, ['Z']⟩⟩]⟩⟩]
  inputAlphabet := Alphabet.ofList ['a']
  stackAlphabet := Alphabet.ofList ['Z']
  initialState := ⟨0⟩
  initialSymbol := 'Z'

/-! ## The samples -/

theorem load_balancedParentheses :
    Definition.load balancedParentheses = .ok Automaton.balanced :=
  load_ofLines (by decide +kernel) (by decide +kernel)

theorem load_anbn : Definition.load anbn = .ok anbnAutomaton :=
  load_ofLines (by decide +kernel) (by decide +kernel)

theorem load_evenPalindrome : Definition.load evenPalindrome = .ok evenPalindromeAutomaton :=
  load_ofLines (by decide +kernel) (by decide +kernel)

theorem load_epsilonLoop : Definition.load epsilonLoop = .ok epsilonLoopAutomaton :=
  load_ofLines (by decide +kernel) (by decide +kernel)

/-- Definitions that are loaded are all made samples, in order. -/
theorem filterMap_ofDefinition? {texts : List (String × String)} {automata : List Automaton}
    (h : List.Forall₂ (fun text a => Definition.load text.2 = .ok a) texts automata) :
    (texts.filterMap fun (name, source) => ofDefinition? name source) =
      List.zipWith (fun text a => ⟨text.1, text.2, a⟩) texts automata := by
  induction h with
  | nil => rfl
  | @cons text a texts automata loaded _ ih =>
    obtain ⟨name, source⟩ := text
    have made : ofDefinition? name source = some ⟨name, source, a⟩ := by
      rw [ofDefinition?, loaded]
    simp only [List.filterMap_cons, made, ih, List.zipWith_cons_cons]

/-- No sample is lost for a fault in its definition. -/
theorem all_eq :
    all =
      [⟨"balanced-parentheses", balancedParentheses, Automaton.balanced⟩,
       ⟨"anbn", anbn, anbnAutomaton⟩,
       ⟨"even-palindrome", evenPalindrome, evenPalindromeAutomaton⟩,
       ⟨"epsilon-loop", epsilonLoop, epsilonLoopAutomaton⟩] := by
  have loaded : List.Forall₂ (fun text a => Definition.load text.2 = .ok a) definitions
      [Automaton.balanced, anbnAutomaton, evenPalindromeAutomaton, epsilonLoopAutomaton] :=
    .cons load_balancedParentheses <| .cons load_anbn <| .cons load_evenPalindrome <|
      .cons load_epsilonLoop .nil
  exact filterMap_ofDefinition? loaded

theorem find?_balancedParentheses :
    find? "balanced-parentheses" =
      some ⟨"balanced-parentheses", balancedParentheses, Automaton.balanced⟩ := by
  rw [find?, all_eq]
  rfl

theorem find?_anbn : find? "anbn" = some ⟨"anbn", anbn, anbnAutomaton⟩ := by
  rw [find?, all_eq]
  rfl

theorem find?_evenPalindrome :
    find? "even-palindrome" =
      some ⟨"even-palindrome", evenPalindrome, evenPalindromeAutomaton⟩ := by
  rw [find?, all_eq]
  rfl

end Pushdown.Sample
