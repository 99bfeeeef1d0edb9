import Pushdown.Proofs.Search.Bound
import Pushdown.Proofs.Search.Safety

/-!
# Observing the search

A search talks to an observer and to a log in the middle of its loop. What it says in one round is
told by the stage that the round starts from. To the observer (`Automaton.told`) it says nothing if
nothing is taken or the bound is reached, else the configuration taken and then each move from it.
To the log (`Automaton.noted`) it says that this configuration is being expanded. Nothing of this
depends on who is listening, so

> `explore_eq_told`: a search under the eyes of an observer is the search that nobody sees, the
> observer is told what the rounds tell and the log what they note;
> `notedFrom_eq`: round by round, what is noted is what is shown;
> `runEachWith_eq`: several runs in front of one observer and with one log are the runs by
> themselves, and what these are told is what there is to see of each, one after another.

The events account for the queue. Every configuration that was ever queued is the first one or was
announced by one move, and it has been taken and shown or still waits (`Accounts`):

> `accounts_stageAfter`: after any number of rounds, the configurations shown and then those that
> wait are the first one and then those announced, in order.

> `observation_complete`: hence the counts of what is shown and announced, and the log of a run.
-/

namespace Pushdown

open Search (Event observed moveResults)

namespace Search

/-- The moves that events announce, in order. -/
def announced (events : List Event) : List Move :=
  events.filterMap fun
    | .examined _ => none
    | .queued m => some m

/-- The observer that writes every event to a place that may refuse it. It goes on all the same. -/
def writerTo {π ε : Type} (write : π → String → π × Option ε) : Observer π :=
  ⟨fun a c place => (write place (configurationText a c)).1,
   fun a m place => (write place (moveText a m)).1⟩

theorem moveResults_examined (events rest : List Event) (c : Configuration)
    (shown : Option Configuration) :
    moveResults shown (events ++ .examined c :: rest) =
      moveResults shown events ++ moveResults (some c) rest := by
  induction events generalizing shown with
  | nil => rfl
  | cons e events ih =>
    cases e with
    | examined d => exact ih (some d)
    | queued m =>
      show (shown.map m.result).toList ++ moveResults shown (events ++ _) = _
      rw [ih, ← List.append_assoc]
      rfl

end Search

namespace Automaton

variable {a : Automaton} {bound : Nat} {input : String} {σ : Type}

/-! ## What a round tells -/

/-- What the round from a stage tells an observer. -/
def told (a : Automaton) (bound : Nat) : Stage → List Event
  | .ended _ => []
  | .underWay taken queue =>
    match queue.pop? with
    | none => []
    | some (c, _) =>
      if bound ≤ taken + 1 then []
      else
        match a.examine c with
        | .moves successors _ => .examined c :: successors.map fun s => .queued s.move
        | _ => [.examined c]

/-- What some rounds from a stage on tell an observer. -/
def toldFrom (a : Automaton) (bound : Nat) : (rounds : Nat) → Stage → List Event
  | 0, _ => []
  | rounds + 1, s => a.told bound s ++ a.toldFrom bound rounds (a.round bound s)

/-- What the first rounds of a run tell an observer. -/
def toldAfter (a : Automaton) (bound rounds : Nat) (input : String) : List Event :=
  a.toldFrom bound rounds (a.firstStage input)

/-- What the round from a stage notes in a log. -/
def noted (a : Automaton) (bound : Nat) : Stage → List LogEvent
  | .ended _ => []
  | .underWay taken queue =>
    match queue.pop? with
    | none => []
    | some (c, _) => if bound ≤ taken + 1 then [] else [a.expanding c]

/-- What some rounds from a stage on note in a log. -/
def notedFrom (a : Automaton) (bound : Nat) : (rounds : Nat) → Stage → List LogEvent
  | 0, _ => []
  | rounds + 1, s => a.noted bound s ++ a.notedFrom bound rounds (a.round bound s)

@[simp] theorem toldFrom_ended (rounds : Nat) (e : Execution) :
    a.toldFrom bound rounds (.ended e) = [] := by
  induction rounds with
  | zero => rfl
  | succ rounds ih => exact ih

@[simp] theorem notedFrom_ended (rounds : Nat) (e : Execution) :
    a.notedFrom bound rounds (.ended e) = [] := by
  induction rounds with
  | zero => rfl
  | succ rounds ih => exact ih

theorem toldFrom_succ (rounds : Nat) (s : Stage) :
    a.toldFrom bound (rounds + 1) s =
      a.toldFrom bound rounds s ++ a.told bound ((a.round bound)^[rounds] s) := by
  induction rounds generalizing s with
  | zero => exact List.append_nil _
  | succ rounds ih =>
    rw [toldFrom, ih, ← List.append_assoc, Function.iterate_succ_apply]
    rfl

theorem toldAfter_succ (rounds : Nat) :
    a.toldAfter bound (rounds + 1) input =
      a.toldAfter bound rounds input ++ a.told bound (a.stageAfter bound rounds input) :=
  toldFrom_succ _ _

/-- A round notes the configuration that it shows, and only that. -/
theorem noted_eq (a : Automaton) (bound : Nat) (s : Stage) :
    a.noted bound s = (observed (a.told bound s)).map a.expanding := by
  cases s with
  | ended e => rfl
  | underWay taken queue =>
    rw [noted, told]
    cases queue.pop? with
    | none => rfl
    | some popped =>
      obtain ⟨c, queue⟩ := popped
      by_cases reached : bound ≤ taken + 1
      · simp only [if_pos reached]
        rfl
      · simp only [if_neg reached]
        cases a.examine c with
        | accepting => rfl
        | undeclared x => rfl
        | moves successors refused =>
          have shown : observed (.examined c :: (successors.map (·.move)).map .queued) = [c] :=
            congrArg (c :: ·) (Search.observed_queued _)
          rw [List.map_map] at shown
          exact (congrArg (List.map a.expanding) shown).symm

/-- Round by round, what is noted is what is shown. -/
theorem notedFrom_eq (a : Automaton) (bound rounds : Nat) (s : Stage) :
    a.notedFrom bound rounds s = (observed (a.toldFrom bound rounds s)).map a.expanding := by
  induction rounds generalizing s with
  | zero => rfl
  | succ rounds ih =>
    rw [notedFrom, toldFrom, noted_eq, ih, Search.observed_append, List.map_append]

/-- Neither an observer nor a log has a say in a search; the one is told what the rounds tell, the
other what they note. -/
theorem explore_eq_told (o : Observer σ) (remaining taken : Nat) (queue : Queue Configuration)
    (seen : σ) (log : Log) (room : remaining = bound - (taken + 1)) :
    a.explore bound o remaining taken queue seen log =
      ((a.explore bound .blind remaining taken queue () .silent).1,
        (a.toldFrom bound (remaining + 1) (.underWay taken queue)).foldl (o.notice a) seen,
        (a.notedFrom bound (remaining + 1) (.underWay taken queue)).foldl Log.tell log) := by
  -- the round sees neither of them, so the answer is that of the rounds
  have answer : (a.explore bound o remaining taken queue seen log).1 =
      (a.explore bound .blind remaining taken queue () .silent).1 :=
    Stage.ended.inj ((iterate_round_underWay o _ _ _ _ _ room).symm.trans
      (iterate_round_underWay .blind _ _ _ _ _ room))
  refine Prod.ext answer ?_
  clear answer
  induction remaining generalizing taken queue seen log with
  | zero =>
    have reached : bound ≤ taken + 1 := by omega
    unfold explore
    cases hq : queue.pop? with
    | none => simp [toldFrom, notedFrom, told, noted, hq]
    | some popped => simp [toldFrom, notedFrom, told, noted, hq, reached]
  | succ remaining ih =>
    have not_reached : ¬ bound ≤ taken + 1 := by omega
    unfold explore
    rw [toldFrom, notedFrom, told, noted, round]
    cases hq : queue.pop? with
    | none => simp
    | some popped =>
      obtain ⟨c, queue⟩ := popped
      simp only [if_neg not_reached]
      cases a.examine c with
      | accepting => simp [Observer.notice]
      | undeclared x => simp [Observer.notice]
      | moves successors refused =>
        cases refused with
        | some fault => simp [Observer.notice, List.foldl_map]
        | none =>
          simp only [ih _ _ _ _ (show remaining = bound - (taken + 1 + 1) by omega),
            List.foldl_append, List.foldl_cons, List.foldl_nil, List.foldl_map, Observer.notice]

/-- A run under the eyes of an observer and with a log, by its rounds. -/
theorem runWith_eq_told (a : Automaton) (bound : Nat) (o : Observer σ) (input : String) (seen : σ)
    (log : Log) :
    a.runWith ⟨bound⟩ o input seen log =
      (a.run ⟨bound⟩ input,
        (a.toldAfter bound (max bound 1) input).foldl (o.notice a) seen,
        ((a.notedFrom bound (max bound 1) (a.firstStage input)).foldl Log.tell log).tell
          (.runFinished input (a.run ⟨bound⟩ input))) := by
  have rounds : max bound 1 = bound - 1 + 1 := by omega
  unfold run runWith search toldAfter firstStage
  cases a.start (Symbol.ofText input) with
  | error fault => simp only [toldFrom_ended, notedFrom_ended, List.foldl_nil]
  | ok c => simp only [explore_eq_told o (bound - 1) 0 _ _ _ rfl, rounds]

/-- What there is to see of a run is what its rounds tell. -/
theorem events_eq_toldAfter (a : Automaton) (bound : Nat) (input : String) :
    a.events ⟨bound⟩ input = a.toldAfter bound (max bound 1) input := by
  simp only [events, runRecorded, runWith_eq_told, foldl_notice_recorder, List.append_nil,
    List.reverse_reverse]

/-- What a log is told of a run: that each configuration shown is expanded, and the result. -/
def logOf (a : Automaton) (limits : Limits) (input : String) : List LogEvent :=
  (observed (a.events limits input)).map a.expanding ++ [.runFinished input (a.run limits input)]

/-- A run in front of an observer and with a log is the run by itself, and the two are told what
there is to see of it. -/
theorem runWith_eq_run (a : Automaton) (limits : Limits) (o : Observer σ) (input : String)
    (seen : σ) (log : Log) :
    a.runWith limits o input seen log =
      (a.run limits input, (a.events limits input).foldl (o.notice a) seen,
        (a.logOf limits input).foldl Log.tell log) := by
  rw [logOf, List.foldl_append, events_eq_toldAfter, toldAfter, ← notedFrom_eq]
  exact runWith_eq_told a limits.maxTransitions o input seen log

/-- Runs in front of one observer and with one log are the runs by themselves, and the two are told
what there is to see of each. -/
theorem runEachWith_eq (a : Automaton) (limits : Limits) (o : Observer σ) (inputs : List String)
    (seen : σ) (log : Log) :
    a.runEachWith limits o inputs seen log =
      (inputs.map (a.run limits),
        (inputs.flatMap (a.events limits)).foldl (o.notice a) seen,
        (inputs.flatMap (a.logOf limits)).foldl Log.tell log) := by
  induction inputs generalizing seen log with
  | nil => rfl
  | cons input rest ih =>
    simp only [runEachWith, runWith_eq_run, ih, List.map_cons, List.flatMap_cons,
      List.foldl_append]

/-! ## The account of the queue -/

/-- What was told accounts for a stage. The configurations shown and then those that wait are the
first one and then those announced; as many are shown as are counted, but for the one that reaches
the bound. A search that has ended may have left some waiting, but it rejects only if none did. -/
def Accounts (root : Configuration) (events : List Event) : Stage → Prop
  | .underWay taken queue =>
    taken = (observed events).length ∧
      observed events ++ queue.toList = root :: moveResults none events
  | .ended e =>
    (¬ e.IsCutOff → e.transitions = (observed events).length) ∧
      (e.IsCutOff → e.transitions = (observed events).length + 1) ∧
      ∃ left, observed events ++ left = root :: moveResults none events ∧
        (e.verdict = .rejected → left = []) ∧ (e.IsCutOff → left ≠ [])

/-- What a round from a search under way does and tells: nothing waits and it rejects; or it reaches
the bound, which it tells nobody; or it shows a configuration and announces the moves from it, and
then either has its answer or has queued where the moves lead. -/
theorem round_told_cases (closed : a.Closed) (bound taken : Nat) (queue : Queue Configuration)
    (shared : ∀ c ∈ queue.toList, c.stack.alphabet = a.stackAlphabet) :
    (queue.toList = [] ∧ a.round bound (.underWay taken queue) = .ended ⟨.rejected, taken⟩ ∧
      a.told bound (.underWay taken queue) = []) ∨
    ∃ c rest, queue.toList = c :: rest ∧
      ((a.round bound (.underWay taken queue) =
            .ended ⟨.failed (.boundExceeded bound), taken + 1⟩ ∧
          a.told bound (.underWay taken queue) = []) ∨
        (a.told bound (.underWay taken queue) =
            .examined c :: ((a.successors c).map (·.move)).map .queued ∧
          ((∃ verdict, a.round bound (.underWay taken queue) = .ended ⟨verdict, taken + 1⟩ ∧
              verdict ≠ .rejected ∧ ∀ n, verdict ≠ .failed (.boundExceeded n)) ∨
            ∃ queue', a.round bound (.underWay taken queue) = .underWay (taken + 1) queue' ∧
              queue'.toList = rest ++ a.children c))) := by
  rw [round, told]
  cases hq : queue.pop? with
  | none => exact Or.inl ⟨Queue.pop?_eq_none_iff.1 hq, rfl, rfl⟩
  | some popped =>
    obtain ⟨c, queue'⟩ := popped
    have line := Queue.toList_of_pop? hq
    refine Or.inr ⟨c, queue'.toList, line, ?_⟩
    by_cases reached : bound ≤ taken + 1
    · exact Or.inl ⟨if_pos reached, if_pos reached⟩
    · simp only [if_neg reached]
      refine Or.inr ?_
      have shared_c := shared c (line ▸ List.mem_cons_self ..)
      rcases examine_eq closed shared_c with
        ⟨accepting, looked⟩ | ⟨x, blocked, looked⟩ | ⟨opened, looked⟩
      · simp only [looked, successors_of_isAccepting accepting]
        exact ⟨rfl, Or.inl ⟨_, rfl, by simp, by simp⟩⟩
      · simp only [looked, successors_of_isBlockedOn blocked]
        exact ⟨rfl, Or.inl ⟨_, rfl, by simp, by simp⟩⟩
      · simp only [looked, List.map_map]
        exact ⟨rfl, Or.inr ⟨_, rfl, Queue.toList_pushAll _ _⟩⟩

/-- A configuration and the moves from it are shown, and announce its children. -/
theorem observed_told (events : List Event) (c : Configuration) :
    observed (events ++ .examined c :: ((a.successors c).map (·.move)).map .queued) =
      observed events ++ [c] := by
  rw [Search.observed_append]
  exact congrArg (observed events ++ c :: ·) (Search.observed_queued _)

theorem moveResults_told (events : List Event) (c : Configuration) :
    moveResults none (events ++ .examined c :: ((a.successors c).map (·.move)).map .queued) =
      moveResults none events ++ a.children c := by
  have leads : ((a.successors c).map (·.move)).map (·.result c) = a.children c := by
    rw [List.map_map]
    exact List.map_congr_left fun s hs => result_move_of_mem_successors hs
  have moves := Search.moveResults_queued c ((a.successors c).map (·.move)) []
  rw [List.append_nil] at moves
  rw [Search.moveResults_examined, moves, leads, moveResults, List.append_nil]

theorem accounts_round (closed : a.Closed) {root : Configuration} {events : List Event} {s : Stage}
    (shared : ∀ c ∈ s.queued, c.stack.alphabet = a.stackAlphabet)
    (h : Accounts root events s) : Accounts root (events ++ a.told bound s) (a.round bound s) := by
  cases s with
  | ended e =>
    rw [told, List.append_nil]
    exact h
  | underWay taken queue =>
    obtain ⟨counted, account⟩ := h
    rcases round_told_cases closed bound taken queue shared with
      ⟨none_left, next, nothing⟩ | ⟨c, rest, line, ⟨next, nothing⟩ | ⟨tells, goes_on⟩⟩
    · rw [next, nothing, List.append_nil]
      have not_cut : ¬ Execution.IsCutOff ⟨.rejected, taken⟩ := fun ⟨_, cut⟩ => nomatch cut
      refine ⟨fun _ => counted, fun cut => absurd cut not_cut, [], ?_, fun _ => rfl,
        fun cut => absurd cut not_cut⟩
      rw [← account, none_left]
    · rw [next, nothing, List.append_nil]
      refine ⟨fun answered => absurd ⟨bound, rfl⟩ answered, fun _ => congrArg (· + 1) counted,
        queue.toList, account, nofun, fun _ => ?_⟩
      rw [line]
      exact List.cons_ne_nil _ _
    · -- the one shown moves over from those that wait; its children are both announced and queued
      have balance : observed events ++ [c] ++ (rest ++ a.children c) =
          root :: (moveResults none events ++ a.children c) := by
        rw [← List.cons_append, ← account, line]
        simp
      have count : (observed events ++ [c]).length = taken + 1 := by
        rw [List.length_append, counted]
        rfl
      rw [tells]
      rcases goes_on with ⟨verdict, next, not_rejected, not_cut⟩ | ⟨queue', next, waiting⟩
      · have not_cutOff : ¬ Execution.IsCutOff ⟨verdict, taken + 1⟩ :=
          fun ⟨n, cut⟩ => not_cut n cut
        rw [next]
        refine ⟨fun _ => ?_, fun cut => absurd cut not_cutOff, rest ++ a.children c, ?_,
          fun rejected => absurd rejected not_rejected, fun cut => absurd cut not_cutOff⟩
        · rw [observed_told, count]
        · rw [observed_told, moveResults_told, balance]
      · rw [next]
        refine ⟨?_, ?_⟩
        · rw [observed_told, count]
        · rw [observed_told, moveResults_told, waiting, balance]

/-- After any number of rounds of a run, what was told accounts for where it stands. -/
theorem accounts_stageAfter (closed : a.Closed) (bound rounds : Nat) (input : String) :
    Accounts (a.initialConfiguration input) (a.toldAfter bound rounds input)
      (a.stageAfter bound rounds input) := by
  induction rounds with
  | zero =>
    show Accounts _ [] (a.firstStage input)
    rw [firstStage, start_eq closed]
    exact ⟨rfl, Queue.toList_ofList _⟩
  | succ rounds ih =>
    have shared : ∀ c ∈ (a.stageAfter bound rounds input).queued,
        c.stack.alphabet = a.stackAlphabet := fun c hc =>
      ((reaches_of_mem_queued closed hc).sound closed
        (sound_initialConfiguration closed input)).alphabet_eq
    rw [stageAfter_succ, toldAfter_succ]
    exact accounts_round closed shared ih

/-! ## What is announced and what is logged -/

/-- Each move of a course leads somewhere. -/
theorem length_announced_course (visited : List Configuration) :
    (Search.announced (a.course visited)).length =
      (moveResults none (a.course visited)).length := by
  have moves (moves : List Move) (rest : List Event) :
      Search.announced (moves.map .queued ++ rest) = moves ++ Search.announced rest := by
    induction moves with
    | nil => rfl
    | cons m moves ih => exact congrArg (m :: ·) ih
  rw [moveResults_course]
  induction visited with
  | nil => rfl
  | cons c visited ih =>
    have shown : Search.announced (a.course (c :: visited)) =
        (a.successors c).map (·.move) ++ Search.announced (a.course visited) := by
      rw [course_cons, ← moves]
      rfl
    rw [shown, List.length_append, List.length_map, ih, List.flatMap_cons, List.length_append,
      children, List.length_map]

/-- A run has the same answer whatever the level of its log. -/
theorem runLogged_eq (a : Automaton) (limits : Limits) (level : Level) (input : String) :
    a.runLogged limits level input = (a.run limits input, keptAt level (a.logOf limits input)) := by
  simp only [runLogged, runWith_eq_run, Log.events_foldl_tell, Log.events_blank, List.nil_append]
  rfl

/-- A log at the level of the trace has all there is to tell of a run. -/
theorem keptAt_trace (events : List LogEvent) : keptAt .trace events = events := by
  refine List.filter_eq_self.2 fun e _ => ?_
  cases e with
  | expandingConfiguration state remaining depth => rfl
  | epsilonListed line => rfl
  | loadingDefinition path => rfl
  | definitionLoaded states transitions => rfl
  | engineConfigured most => rfl
  | runFinished input execution => rfl

/-- In the log of a run, what says that a configuration is expanded is what the search told of the
configurations it has shown. -/
theorem filter_message_logOf (a : Automaton) (limits : Limits) (input : String) :
    (a.logOf limits input).filter (·.message = "expanding configuration") =
      (observed (a.events limits input)).map a.expanding := by
  have result_apart :
      [LogEvent.runFinished input (a.run limits input)].filter
        (·.message = "expanding configuration") = [] := rfl
  rw [logOf, List.filter_append, result_apart, List.append_nil, List.filter_eq_self]
  intro e he
  obtain ⟨c, -, rfl⟩ := List.mem_map.1 he
  rfl

/-! ## Main result -/

/-- **Observation is complete and changes nothing.** -/
theorem observation_complete (h : a.IsBuilt) (limits : Limits) :
    (∀ (σ : Type) (o : Observer σ) (inputs : List String) (seen : σ) (log : Log),
      a.runEachWith limits o inputs seen log =
        (inputs.map (a.run limits),
          (inputs.flatMap (a.events limits)).foldl (o.notice a) seen,
          (inputs.flatMap (a.logOf limits)).foldl Log.tell log)) ∧
    ∀ input,
      let root := a.initialConfiguration input
      let bound := limits.maxTransitions
      let events := a.events limits input
      let execution := a.run limits input
      (a.stageAfter bound (max bound 1) input = .ended execution ∧
        a.toldAfter bound (max bound 1) input = events) ∧
      -- at every moment each configuration queued is the first one or was announced once
      (Search.announced events).length = (moveResults none events).length ∧
      (∀ rounds taken queue, a.stageAfter bound rounds input = .underWay taken queue →
        taken = (observed (a.toldAfter bound rounds input)).length ∧
          observed (a.toldAfter bound rounds input) ++ queue.toList =
            root :: moveResults none (a.toldAfter bound rounds input)) ∧
      (execution.IsCutOff → execution.transitions = (observed events).length + 1) ∧
      (¬ execution.IsCutOff → execution.transitions = (observed events).length) ∧
      (execution.verdict = .rejected →
        execution.transitions = (Search.announced events).length + 1) ∧
      execution.transitions ≤ (Search.announced events).length + 1 ∧
      a.runLogged limits .trace input =
        (execution, (observed events).map (fun c =>
            .expandingConfiguration (a.nameOf c.state) c.input.length c.stack.size) ++
          [.runFinished input execution]) ∧
      -- what the log says of the configurations shown, one line for each
      ((a.runLogged limits .trace input).2.filter (·.message = "expanding configuration")).map
          (fun e => (e.level, e.fields)) =
        (observed events).map fun c =>
          (.trace, [("state", .text (a.nameOf c.state)), ("remaining", .number c.input.length),
            ("depth", .number c.stack.symbols.length)]) := by
  have closed := h.closed
  refine ⟨fun σ o inputs seen log => runEachWith_eq a limits o inputs seen log, fun input => ?_⟩
  intro root bound events execution
  have ended : a.stageAfter bound (max bound 1) input = .ended execution :=
    iterate_round_firstStage a bound input
  have told : a.toldAfter bound (max bound 1) input = events :=
    (events_eq_toldAfter a bound input).symm
  have last := accounts_stageAfter closed bound (max bound 1) input
  rw [ended, told] at last
  obtain ⟨answered, cut, left, account, none_left, some_left⟩ := last
  have once : (Search.announced events).length = (moveResults none events).length := by
    rw [show events = _ from events_eq closed limits input, length_announced_course]
  have announced : (Search.announced events).length + 1 =
      (observed events).length + left.length := by
    rw [once, ← List.length_append, account, List.length_cons]
  have logged : a.runLogged limits .trace input = (execution, a.logOf limits input) := by
    rw [runLogged_eq, keptAt_trace]
  refine ⟨⟨ended, told⟩, once, fun rounds taken queue under => ?_, cut, answered,
    fun rejected => ?_, ?_, logged, ?_⟩
  · have now := accounts_stageAfter closed bound rounds input
    rw [under] at now
    exact now
  · have not_cut : ¬ execution.IsCutOff := fun ⟨n, cut⟩ => nomatch rejected.symm.trans cut
    rw [announced, none_left rejected, answered not_cut]
    rfl
  · by_cases cutOff : execution.IsCutOff
    · have := List.length_pos_iff.2 (some_left cutOff)
      have := cut cutOff
      omega
    · have := answered cutOff
      omega
  · rw [logged, filter_message_logOf, List.map_map]
    rfl

/-- A place that refuses whatever is written to it, and is tried at every event of three runs on the
balanced words, does not keep them from ending in three ways, and a log has a line for each
configuration taken. -/
theorem observation_complete_balanced :
    balanced.IsBuilt ∧
      balanced.runEachWith ⟨10⟩ (Search.writerTo fun refused _ => (refused + 1, some "full"))
          ["()", "(x", "("] 0 (.blank .debug) =
        ([⟨.accepted, 5⟩, ⟨.failed (.undeclaredInput 'x' balanced.inputAlphabet), 2⟩,
          ⟨.rejected, 3⟩], 18,
          ⟨.debug, [.runFinished "(" ⟨.rejected, 3⟩,
            .runFinished "(x" ⟨.failed (.undeclaredInput 'x' balanced.inputAlphabet), 2⟩,
            .runFinished "()" ⟨.accepted, 5⟩]⟩) ∧
      (Search.announced (balanced.events ⟨10⟩ "(")).length = 2 ∧
      (balanced.runLogged ⟨10⟩ .trace "(").2 =
        [.expandingConfiguration "q" 1 1, .expandingConfiguration "q" 0 2,
          .expandingConfiguration "q" 1 0, .runFinished "(" ⟨.rejected, 3⟩] := by
  obtain ⟨runs, single⟩ := observation_complete balanced_isBuilt ⟨10⟩
  obtain ⟨-, -, -, -, -, rejected, -, logged, -⟩ := single "("
  have run : balanced.run ⟨10⟩ "(" = ⟨.rejected, 3⟩ := by decide
  refine ⟨balanced_isBuilt, ?_, ?_, ?_⟩
  · rw [runs]
    decide
  · rw [run] at rejected
    exact (Nat.succ.inj (rejected rfl)).symm
  · rw [logged]
    decide

end Automaton

end Pushdown
