import Pushdown.Proofs.Search.Reachability
import Mathlib.Data.List.GetD

/-!
# Empty symbols on the input

An empty symbol that stands on the input is read by a move under the empty symbol, and while it is
the next symbol there is no other move. So it does not say "nothing": it demands a spontaneous move
at that place. The ordinary automaton, which accepts by empty stack and may always move
spontaneously while something is on the stack, is `OrdinaryStep`; a `Computation` of it carries what
each of its moves reads.

A tape *marks* some spontaneous moves of a computation by empty symbols, and leaves others unmarked
(`Marks`). A search and a computation follow each other move by move: what the search reads is
marked, and what it does spontaneously is not. Back again, an unmarked move is made by reading where
the tape has an empty symbol to read, so it takes the marks as early as it can.

> `exists_accepting_iff`: a tape leads the search to acceptance exactly if it marks an accepting
> computation on its proper symbols.

For a word with numbers of empty symbols before, between and after its symbols, that is a matter of
counting, in both directions (`Marks.writtenAfter_le`, `marks_of_writtenAfter_le`):

> `exists_accepted_tape_iff`: such a tape is accepted under some bound exactly if some accepting
> computation on the word makes at least so many spontaneous moves at each place;
> `accepted_of_sublist`: fewer empty symbols demand less.
-/

namespace Pushdown

/-! ## Words with empty symbols between their symbols -/

/-- A word with empty symbols before, between and after its symbols. -/
structure PaddedWord where
  /-- How many empty symbols stand before the word. -/
  lead : Nat
  /-- The symbols of the word, each with the number of empty symbols after it. -/
  rest : List (Symbol × Nat)

namespace PaddedWord

/-- The word itself. -/
def word (p : PaddedWord) : List Symbol := p.rest.map Prod.fst

/-- How many empty symbols stand between so many symbols of the word and the next. -/
def writtenAfter (p : PaddedWord) (i : Nat) : Nat := (p.lead :: p.rest.map Prod.snd).getD i 0

/-- The whole tape. -/
def tape (p : PaddedWord) : List Symbol :=
  List.replicate p.lead Symbol.epsilon ++
    p.rest.flatMap fun s => s.1 :: List.replicate s.2 Symbol.epsilon

/-- The word as it is. -/
def plain (word : List Symbol) : PaddedWord := ⟨0, word.map (·, 0)⟩

@[simp] theorem word_plain (word : List Symbol) : (plain word).word = word := by
  simp [plain, PaddedWord.word, Function.comp_def]

@[simp] theorem tape_plain (word : List Symbol) : (plain word).tape = word := by
  simp [plain, tape, List.flatMap_map]

theorem writtenAfter_plain (word : List Symbol) (i : Nat) : (plain word).writtenAfter i = 0 := by
  have zeros : 0 :: (plain word).rest.map Prod.snd = List.replicate (word.length + 1) 0 := by
    simp [plain, List.replicate_succ, Function.comp_def]
  show (0 :: (plain word).rest.map Prod.snd).getD i 0 = 0
  rw [zeros, List.getD_eq_getElem?_getD]
  exact List.getElem?_getD_replicate_default_eq _ _ _

/-- Without its empty symbols a tape is its word. -/
theorem withoutEpsilon_tape {p : PaddedWord} (proper : ∀ x ∈ p.word, x ≠ Symbol.epsilon) :
    Symbol.withoutEpsilon p.tape = p.word := by
  have skip : ∀ (k : Nat) (symbols : List Symbol), Symbol.withoutEpsilon
      (List.replicate k Symbol.epsilon ++ symbols) = Symbol.withoutEpsilon symbols := by
    intro k symbols
    simp [Symbol.withoutEpsilon, List.filter_append]
  obtain ⟨lead, rest⟩ := p
  induction rest generalizing lead with
  | nil => exact skip lead []
  | cons s rest ih =>
    obtain ⟨x, k⟩ := s
    obtain ⟨proper_x, proper⟩ := List.forall_mem_cons.1 proper
    have split : tape ⟨lead, (x, k) :: rest⟩ =
        List.replicate lead Symbol.epsilon ++ x :: tape ⟨k, rest⟩ := rfl
    rw [split, skip, Symbol.withoutEpsilon_cons, ih k proper,
      if_neg (mt (Symbol.isEpsilon_iff x).1 proper_x)]
    rfl

end PaddedWord

namespace Automaton

variable {a : Automaton} {c d : Configuration} {p : PaddedWord} {tape shorter : List Symbol}
  {moves : List (Option Symbol)}

/-! ## The ordinary automaton -/

/-- The moves of the ordinary automaton, with the symbol that is read, if one is. -/
inductive OrdinaryStep (a : Automaton) : Configuration → Option Symbol → Configuration → Prop where
  /-- The next symbol is read, under that symbol. -/
  | reading {q : StateId} {x top : Symbol} {rest below : List Symbol} {alphabet : Alphabet}
      {o : Transition.Outcome} :
    x ∈ a.inputAlphabet → o ∈ a.outcomes q x top →
      OrdinaryStep a ⟨q, x :: rest, ⟨alphabet, top :: below⟩⟩ (some x)
        ⟨o.target, rest, ⟨alphabet, Symbol.withoutEpsilon o.push ++ below⟩⟩
  /-- Nothing is read, under the empty symbol, whatever comes next. -/
  | spontaneous {q : StateId} {top : Symbol} {input below : List Symbol} {alphabet : Alphabet}
      {o : Transition.Outcome} :
    o ∈ a.outcomes q Symbol.epsilon top →
      OrdinaryStep a ⟨q, input, ⟨alphabet, top :: below⟩⟩ none
        ⟨o.target, input, ⟨alphabet, Symbol.withoutEpsilon o.push ++ below⟩⟩

/-- A computation of the ordinary automaton, with what each of its moves reads. -/
inductive Computation (a : Automaton) :
    Configuration → List (Option Symbol) → Configuration → Prop where
  | done (c : Configuration) : Computation a c [] c
  | move {c d e : Configuration} {read : Option Symbol} {moves : List (Option Symbol)} :
    a.OrdinaryStep c read d → Computation a d moves e → Computation a c (read :: moves) e

/-- How many spontaneous moves are made while exactly so many symbols have been read. -/
def spontaneousAfter : List (Option Symbol) → Nat → Nat
  | [], _ => 0
  | none :: moves, 0 => spontaneousAfter moves 0 + 1
  | none :: moves, i + 1 => spontaneousAfter moves (i + 1)
  | some _ :: _, 0 => 0
  | some _ :: moves, i + 1 => spontaneousAfter moves i

/-- Whatever a computation reads is declared. -/
theorem Computation.declared (h : a.Computation c moves d) {x : Symbol} (hx : some x ∈ moves) :
    x ∈ a.inputAlphabet := by
  induction h with
  | done c => exact absurd hx List.not_mem_nil
  | move step _ ih =>
    rcases List.mem_cons.1 hx with here | later
    · cases step with
      | reading declared _ => exact Option.some.inj here ▸ declared
      | spontaneous _ => cases here
    · exact ih later

/-- A computation reads the symbols that are then gone from the input. -/
theorem Computation.input_eq (h : a.Computation c moves d) :
    c.input = moves.reduceOption ++ d.input := by
  induction h with
  | done c => rfl
  | move step _ ih =>
    cases step with
    | reading _ _ => exact congrArg (_ :: ·) ih
    | spontaneous _ => exact ih

/-! ## Marks -/

/-- A tape has the symbols that some moves read, in order, and an empty symbol for some of the moves
that read nothing. -/
inductive Marks : List Symbol → List (Option Symbol) → Prop where
  | nil : Marks [] []
  | symbol {x : Symbol} {tape : List Symbol} {moves : List (Option Symbol)} :
    x ≠ Symbol.epsilon → Marks tape moves → Marks (x :: tape) (some x :: moves)
  | marked {tape : List Symbol} {moves : List (Option Symbol)} :
    Marks tape moves → Marks (Symbol.epsilon :: tape) (none :: moves)
  | unmarked {tape : List Symbol} {moves : List (Option Symbol)} :
    Marks tape moves → Marks tape (none :: moves)

theorem marks_nil_iff : Marks tape [] ↔ tape = [] := by
  constructor
  · intro h
    cases h
    rfl
  · rintro rfl
    exact .nil

theorem marks_some_iff {x : Symbol} :
    Marks tape (some x :: moves) ↔
      ∃ rest, tape = x :: rest ∧ x ≠ Symbol.epsilon ∧ Marks rest moves := by
  constructor
  · intro h
    cases h with
    | symbol proper marks => exact ⟨_, rfl, proper, marks⟩
  · rintro ⟨rest, rfl, proper, marks⟩
    exact .symbol proper marks

theorem marks_none_iff :
    Marks tape (none :: moves) ↔
      Marks tape moves ∨ ∃ rest, tape = Symbol.epsilon :: rest ∧ Marks rest moves := by
  constructor
  · intro h
    cases h with
    | marked marks => exact Or.inr ⟨_, rfl, marks⟩
    | unmarked marks => exact Or.inl marks
  · rintro (marks | ⟨rest, rfl, marks⟩)
    · exact .unmarked marks
    · exact .marked marks

/-- A proper symbol on the tape is read by a move. -/
theorem Marks.some_mem (h : Marks tape moves) {x : Symbol} (hx : x ∈ tape)
    (proper : x ≠ Symbol.epsilon) : some x ∈ moves := by
  induction h with
  | nil => exact absurd hx List.not_mem_nil
  | symbol _ _ ih =>
    rcases List.mem_cons.1 hx with rfl | hx
    · exact List.mem_cons_self ..
    · exact List.mem_cons_of_mem _ (ih hx)
  | marked _ ih =>
    rcases List.mem_cons.1 hx with rfl | hx
    · exact absurd rfl proper
    · exact List.mem_cons_of_mem _ (ih hx)
  | unmarked _ ih => exact List.mem_cons_of_mem _ (ih hx)

/-- Empty symbols can be deleted from a tape: the moves that they marked are then unmarked. -/
theorem Marks.of_sublist (h : Marks tape moves) (sub : shorter.Sublist tape)
    (same : Symbol.withoutEpsilon shorter = Symbol.withoutEpsilon tape) : Marks shorter moves := by
  induction h generalizing shorter with
  | nil =>
    rw [List.sublist_nil.1 sub]
    exact .nil
  | @symbol x tape moves proper _ ih =>
    have proper' : ¬ x.isEpsilon = true := fun h => proper ((Symbol.isEpsilon_iff x).1 h)
    rw [Symbol.withoutEpsilon_cons, if_neg proper'] at same
    cases sub with
    | cons _ sub =>
      -- without this `x` there are fewer proper symbols
      have fewer := (sub.filter fun s => !s.isEpsilon).length_le
      have count := congrArg List.length same
      rw [List.length_cons] at count
      unfold Symbol.withoutEpsilon at count
      omega
    | cons_cons _ sub =>
      rw [Symbol.withoutEpsilon_cons, if_neg proper'] at same
      exact .symbol proper (ih sub (List.cons.inj same).2)
  | marked _ ih =>
    cases sub with
    | cons _ sub => exact .unmarked (ih sub same)
    | cons_cons _ sub => exact .marked (ih sub same)
  | unmarked _ ih => exact .unmarked (ih sub same)

/-! ## Searches and computations -/

/-- What the search reads on its way to acceptance marks a computation. -/
theorem exists_computation_of_reaches (h : a.Reaches c d) (accepting : d.IsAccepting) :
    ∃ moves, a.Computation { c with input := Symbol.withoutEpsilon c.input } moves d ∧
      Marks c.input moves := by
  induction h using Relation.ReflTransGen.head_induction_on with
  | refl =>
    obtain ⟨q, input, stack⟩ := d
    obtain rfl : input = [] := accepting.1
    exact ⟨[], .done _, .nil⟩
  | head step _ ih =>
    obtain ⟨moves, computation, marks⟩ := ih
    cases step with
    | @reading q x top rest below alphabet o readable ho =>
      by_cases hx : x = Symbol.epsilon
      · subst hx
        exact ⟨none :: moves, .move (.spontaneous ho) computation, .marked marks⟩
      · have proper : ¬ x.isEpsilon = true := fun h => hx ((Symbol.isEpsilon_iff x).1 h)
        have declared : x ∈ a.inputAlphabet := readable.resolve_left hx
        refine ⟨some x :: moves, .move ?_ computation, .symbol hx marks⟩
        rw [Symbol.withoutEpsilon_cons, if_neg proper]
        exact .reading declared ho
    | spontaneous _ ho =>
      exact ⟨none :: moves, .move (.spontaneous ho) computation, .unmarked marks⟩

/-- A computation that is marked on a tape can be followed by the search on that tape. -/
theorem Computation.reaches (h : a.Computation c moves d) (accepting : d.IsAccepting)
    (marks : Marks tape moves) : a.Reaches { c with input := tape } d := by
  induction h generalizing tape with
  | done c =>
    obtain ⟨q, input, stack⟩ := c
    obtain rfl : input = [] := accepting.1
    cases marks
    exact Relation.ReflTransGen.refl
  | move step rest ih =>
    cases step with
    | reading declared ho =>
      cases marks with
      | symbol _ marks => exact .head (.reading (Or.inr declared) ho) (ih accepting marks)
    | @spontaneous q top input below alphabet o ho =>
      cases marks with
      | marked marks => exact .head (.reading (Or.inl rfl) ho) (ih accepting marks)
      | unmarked marks =>
        cases tape with
        | nil => exact .head (.spontaneous (fun x hx => nomatch hx) ho) (ih accepting marks)
        | cons x tape =>
          by_cases hx : x = Symbol.epsilon
          · -- the mark is taken here, though it stands for a later move
            subst hx
            have fewer : Marks tape _ := marks.of_sublist (List.sublist_cons_self _ _) rfl
            exact .head (.reading (Or.inl rfl) ho) (ih accepting fewer)
          · have declared := rest.declared (marks.some_mem (List.mem_cons_self ..) hx)
            refine .head (.spontaneous (fun y hy => ?_) ho) (ih accepting marks)
            obtain rfl := Option.some.inj hy
            exact ⟨declared, hx⟩

/-- The search accepts on a tape exactly if the tape marks an accepting computation on its proper
symbols. -/
theorem exists_accepting_iff {q : StateId} {stack : Stack} :
    (∃ d, a.Reaches ⟨q, tape, stack⟩ d ∧ d.IsAccepting) ↔
      ∃ moves d, a.Computation ⟨q, Symbol.withoutEpsilon tape, stack⟩ moves d ∧ d.IsAccepting ∧
        Marks tape moves := by
  constructor
  · intro h
    obtain ⟨d, reached, accepting⟩ := h
    obtain ⟨moves, computation, marks⟩ := exists_computation_of_reaches reached accepting
    exact ⟨moves, d, computation, accepting, marks⟩
  · intro h
    obtain ⟨moves, d, computation, accepting, marks⟩ := h
    exact ⟨d, computation.reaches accepting marks, accepting⟩

/-- A tape is accepted under some bound exactly if it marks an accepting computation on its proper
symbols. -/
theorem exists_accepted_iff (closed : a.Closed) {input : String} :
    (∃ bound, (a.run ⟨bound⟩ input).verdict = .accepted) ↔
      ∃ moves d, a.Computation (a.initialConfiguration
          (Symbol.toText (Symbol.withoutEpsilon (Symbol.ofText input)))) moves d ∧
        d.IsAccepting ∧ Marks (Symbol.ofText input) moves := by
  unfold initialConfiguration
  rw [Symbol.ofText_toText, ← exists_accepting_iff]
  constructor
  · intro h
    obtain ⟨bound, accepted⟩ := h
    exact reaches_of_run_accepted closed accepted
  · intro h
    obtain ⟨least, enough⟩ := accepted_of_reaches closed h
    exact ⟨least, enough least (Nat.le_refl least)⟩

/-! ## Counting marks -/

/-- A spontaneous move does not lower the number of spontaneous moves at any place. -/
theorem spontaneousAfter_none_le (moves : List (Option Symbol)) (i : Nat) :
    spontaneousAfter moves i ≤ spontaneousAfter (none :: moves) i := by
  cases i with
  | zero => exact Nat.le_succ _
  | succ i => exact Nat.le_refl _

/-- At each place of the word there are as many spontaneous moves as empty symbols, or more. -/
theorem Marks.writtenAfter_le (h : Marks p.tape moves) (proper : ∀ x ∈ p.word, x ≠ Symbol.epsilon)
    (i : Nat) : p.writtenAfter i ≤ spontaneousAfter moves i := by
  induction moves generalizing p i with
  | nil =>
    have empty := marks_nil_iff.1 h
    obtain ⟨_ | lead, _ | ⟨⟨x, k⟩, rest⟩⟩ := p
    · cases i with
      | zero => exact Nat.le_refl 0
      | succ i => exact Nat.le_refl 0
    · cases empty
    · cases empty
    · cases empty
  | cons read moves ih =>
    cases read with
    | some y =>
      obtain ⟨tape, split, proper_y, marks⟩ := marks_some_iff.1 h
      obtain ⟨_ | lead, _ | ⟨⟨x, k⟩, rest⟩⟩ := p
      · cases split
      · obtain ⟨rfl, rfl⟩ := List.cons.inj split
        cases i with
        | zero => exact Nat.zero_le _
        | succ i =>
          exact ih (p := ⟨k, rest⟩) marks (fun z hz => proper z (List.mem_cons_of_mem _ hz)) i
      · exact absurd (List.cons.inj split).1.symm proper_y
      · exact absurd (List.cons.inj split).1.symm proper_y
    | none =>
      rcases marks_none_iff.1 h with marks | ⟨tape, split, marks⟩
      · exact Nat.le_trans (ih marks proper i) (spontaneousAfter_none_le moves i)
      · obtain ⟨_ | lead, rest⟩ := p
        · cases rest with
          | nil => cases split
          | cons s rest =>
            exact absurd (List.cons.inj split).1 (proper s.1 (List.mem_cons_self ..))
        · obtain rfl := (List.cons.inj split).2
          have below := ih (p := ⟨lead, rest⟩) marks proper i
          cases i with
          | zero => exact Nat.succ_le_succ below
          | succ i => exact below

/-- The other way round, empty symbols are matched with spontaneous moves place by place. -/
theorem marks_of_writtenAfter_le (read : moves.reduceOption = p.word)
    (proper : ∀ x ∈ p.word, x ≠ Symbol.epsilon)
    (enough : ∀ i ≤ p.word.length, p.writtenAfter i ≤ spontaneousAfter moves i) :
    Marks p.tape moves := by
  induction moves generalizing p with
  | nil =>
    obtain ⟨lead, rest⟩ := p
    obtain rfl : rest = [] := List.map_eq_nil_iff.1 read.symm
    obtain rfl : lead = 0 := Nat.le_zero.1 (enough 0 (Nat.zero_le _))
    exact .nil
  | cons move moves ih =>
    cases move with
    | some x =>
      obtain ⟨lead, rest⟩ := p
      obtain rfl : lead = 0 := Nat.le_zero.1 (enough 0 (Nat.zero_le _))
      cases rest with
      | nil => cases read
      | cons s rest =>
        obtain ⟨y, k⟩ := s
        obtain ⟨rfl, read_rest⟩ := List.cons.inj read
        refine .symbol (proper x (List.mem_cons_self ..)) (ih (p := ⟨k, rest⟩) read_rest ?_ ?_)
        · exact fun z hz => proper z (List.mem_cons_of_mem _ hz)
        · exact fun i hi => enough (i + 1) (Nat.succ_le_succ hi)
    | none =>
      obtain ⟨_ | lead, rest⟩ := p
      · refine .unmarked (ih (p := ⟨0, rest⟩) read proper fun i hi => ?_)
        cases i with
        | zero => exact Nat.zero_le _
        | succ i => exact enough (i + 1) hi
      · refine .marked (ih (p := ⟨lead, rest⟩) read proper fun i hi => ?_)
        have here := enough i hi
        cases i with
        | zero => exact Nat.le_of_succ_le_succ here
        | succ i => exact here

/-! ## What is accepted -/

theorem ne_epsilon_of_declared (closed : a.Closed) {word : List Symbol}
    (declared : ∀ x ∈ word, x ∈ a.inputAlphabet) : ∀ x ∈ word, x ≠ Symbol.epsilon :=
  fun x hx epsilon => closed.builder.input_proper (epsilon ▸ declared x hx)

/-- A computation on a word is marked by the padded word exactly if it makes enough spontaneous
moves at each place. -/
theorem Computation.marks_iff (h : a.Computation (a.initialConfiguration (Symbol.toText p.word))
      moves d) (accepting : d.IsAccepting) (proper : ∀ x ∈ p.word, x ≠ Symbol.epsilon) :
    Marks p.tape moves ↔ ∀ i ≤ p.word.length, p.writtenAfter i ≤ spontaneousAfter moves i := by
  have read : p.word = moves.reduceOption := by
    have all := h.input_eq
    rwa [accepting.1, List.append_nil, initialConfiguration, Symbol.ofText_toText] at all
  constructor
  · intro marks i _
    exact marks.writtenAfter_le proper i
  · intro enough
    exact marks_of_writtenAfter_le read.symm proper enough

theorem exists_accepted_tape_iff (closed : a.Closed)
    (declared : ∀ x ∈ p.word, x ∈ a.inputAlphabet) :
    (∃ bound, (a.run ⟨bound⟩ (Symbol.toText p.tape)).verdict = .accepted) ↔
      ∃ moves d, a.Computation (a.initialConfiguration (Symbol.toText p.word)) moves d ∧
        d.IsAccepting ∧ ∀ i ≤ p.word.length, p.writtenAfter i ≤ spontaneousAfter moves i := by
  have proper := ne_epsilon_of_declared closed declared
  rw [exists_accepted_iff closed, Symbol.ofText_toText, PaddedWord.withoutEpsilon_tape proper]
  refine exists_congr fun moves => exists_congr fun d => and_congr_right fun computation =>
    and_congr_right fun accepting => ?_
  exact computation.marks_iff accepting proper

/-- On a word without empty symbols that is ordinary acceptance. -/
theorem exists_accepted_word_iff (closed : a.Closed) {word : List Symbol}
    (declared : ∀ x ∈ word, x ∈ a.inputAlphabet) :
    (∃ bound, (a.run ⟨bound⟩ (Symbol.toText word)).verdict = .accepted) ↔
      ∃ moves d, a.Computation (a.initialConfiguration (Symbol.toText word)) moves d ∧
        d.IsAccepting := by
  have plain := exists_accepted_tape_iff (p := .plain word) closed
    (by rwa [PaddedWord.word_plain])
  rw [PaddedWord.tape_plain, PaddedWord.word_plain] at plain
  rw [plain]
  refine exists_congr fun moves => exists_congr fun d => and_congr_right fun _ =>
    and_iff_left fun i _ => ?_
  rw [PaddedWord.writtenAfter_plain]
  exact Nat.zero_le _

/-- An accepted tape is still accepted when some of its empty symbols are deleted. -/
theorem accepted_of_sublist (closed : a.Closed) {tape shorter : String}
    (sub : (Symbol.ofText shorter).Sublist (Symbol.ofText tape))
    (same : Symbol.withoutEpsilon (Symbol.ofText shorter) =
      Symbol.withoutEpsilon (Symbol.ofText tape))
    (accepted : ∃ bound, (a.run ⟨bound⟩ tape).verdict = .accepted) :
    ∃ least, ∀ bound, least ≤ bound → (a.run ⟨bound⟩ shorter).verdict = .accepted := by
  obtain ⟨moves, d, computation, accepting, marks⟩ := (exists_accepted_iff closed).1 accepted
  rw [← same] at computation
  obtain ⟨bound, found⟩ := (exists_accepted_iff closed).2
    ⟨moves, d, computation, accepting, marks.of_sublist sub same⟩
  exact accepted_of_reaches closed (reaches_of_run_accepted closed found)

theorem accepted_withoutEpsilon (closed : a.Closed) {tape : List Symbol}
    (accepted : ∃ bound, (a.run ⟨bound⟩ (Symbol.toText tape)).verdict = .accepted) :
    ∃ bound, (a.run ⟨bound⟩ (Symbol.toText (Symbol.withoutEpsilon tape))).verdict = .accepted := by
  have sub : (Symbol.ofText (Symbol.toText (Symbol.withoutEpsilon tape))).Sublist
      (Symbol.ofText (Symbol.toText tape)) := by
    rw [Symbol.ofText_toText, Symbol.ofText_toText]
    exact List.filter_sublist
  obtain ⟨least, enough⟩ := accepted_of_sublist closed sub (by simp) accepted
  exact ⟨least, enough least (Nat.le_refl least)⟩

end Automaton

end Pushdown
