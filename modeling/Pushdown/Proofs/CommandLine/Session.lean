import Pushdown.CommandLine.Session
import Pushdown.Proofs.Search.Observation
import Mathlib.Data.List.DropRight

/-!
# What a session reports

A session that tests lines has one machine and one place to write to, and two ways to end early: at
a line that is empty but for its end, and at the first run without an answer. What it should report
is said here by single runs. The inputs of a text (`sessionInputs`) are its lines as the library
divides it, trimmed, up to the first that is empty; each has a run of its own.

> `runWith_sessionObserver`: a run writes its own trace after whatever the earlier ones have left;
> `testLines_eq_report`: so a session over lines writes what the runs on its inputs report, up to the
> first that fails;
> `testLines_append`: where some lines stop it, nothing after them is looked at.

`session_reports_runs` says it of whole commands and of texts, letter by letter.
-/

namespace Pushdown

/-- Whether a run has no answer. -/
def Execution.isFailed (e : Execution) : Bool :=
  match e.verdict with
  | .failed _ => true
  | _ => false

theorem Execution.answer_of_not_isFailed {e : Execution} (h : e.isFailed = false) :
    e.answer = .ok (e.verdict = .accepted) := by
  unfold isFailed at h
  unfold answer
  cases verdict : e.verdict with
  | accepted => simp
  | rejected => simp
  | failed error => simp [verdict] at h

theorem Execution.answer_of_isFailed {e : Execution} (h : e.isFailed = true) :
    ∃ error, e.answer = .error error := by
  unfold isFailed at h
  unfold answer
  cases verdict : e.verdict with
  | accepted => simp [verdict] at h
  | rejected => simp [verdict] at h
  | failed error => exact ⟨error, rfl⟩

/-! ## Lines -/

namespace Text

/-- The library's division has one piece more at most: what follows the last end, if that is
nothing. -/
theorem splitOnPPrepend_eq_divide {α : Type} (isEnd : α → Bool) (begun cs : List α) :
    cs.splitOnPPrepend isEnd begun = divide isEnd begun cs ∨
      cs.splitOnPPrepend isEnd begun = divide isEnd begun cs ++ [[]] := by
  induction cs generalizing begun with
  | nil =>
    cases begun with
    | nil => exact Or.inr rfl
    | cons b begun => exact Or.inl rfl
  | cons c cs ih =>
    rw [divide, List.splitOnPPrepend_cons_eq_if]
    by_cases ends : isEnd c = true
    · simp only [if_pos ends, ← List.splitOnPPrepend_nil_right, List.cons_append]
      exact (ih []).imp (congrArg _) (congrArg _)
    · simp only [if_neg ends]
      exact ih (c :: begun)

/-- Up to the end of a line the two divisions agree, and what follows it is divided by itself. -/
theorem divide_append_end {α : Type} (isEnd : α → Bool) {e : α} (ends : isEnd e = true)
    (begun front rest : List α) :
    divide isEnd begun (front ++ e :: rest) =
      front.splitOnPPrepend isEnd begun ++ divide isEnd [] rest := by
  induction front generalizing begun with
  | nil => simp [divide, ends]
  | cons c front ih =>
    rw [List.cons_append, divide, List.splitOnPPrepend_cons_eq_if]
    by_cases here : isEnd c = true
    · simp only [if_pos here, ih, List.splitOnPPrepend_nil_right, List.cons_append]
    · simp only [if_neg here, ih]

theorem lines_append_end (front rest : String) :
    lines (front ++ "\n" ++ rest) =
      (front.toList.splitOnPPrepend (· == '\n') []).map String.ofList ++ lines rest := by
  have newline : "\n".toList = ['\n'] := rfl
  have divided :=
    divide_append_end (· == '\n') (beq_self_eq_true '\n') [] front.toList rest.toList
  simp only [lines, String.toList_append, newline, List.append_assoc, List.singleton_append,
    divided, List.map_append]

theorem lines_of_end (front : String) :
    lines (front ++ "\n") =
      (front.toList.splitOnPPrepend (· == '\n') []).map String.ofList := by
  have nothing_after := lines_append_end front ""
  rw [String.append_empty] at nothing_after
  exact nothing_after.trans (List.append_nil _)

theorem linesOfBytes_toUTF8 (text : String) :
    linesOfBytes text.toUTF8 = (lines text).map some := by
  have valid : String.fromUTF8? text.toUTF8 = some text := by
    rw [String.fromUTF8?, String.toUTF8_eq_toByteArray, dif_pos text.isValidUTF8]
    rfl
  rw [linesOfBytes, valid]

end Text

/-- Samples are loaded from definitions. -/
theorem Sample.isBuilt_of_find? {name : String} {sample : Sample}
    (found : Sample.find? name = some sample) : sample.automaton.IsBuilt := by
  unfold find? all at found
  obtain ⟨⟨_, text⟩, -, made⟩ := List.mem_filterMap.1 (List.mem_of_find?_eq_some found)
  simp only [ofDefinition?] at made
  cases read : Definition.load text with
  | error e => simp [read] at made
  | ok b =>
    simp only [read, Option.some.injEq] at made
    rw [← made]
    exact Definition.isBuilt_of_load read

namespace CommandLine

/-- The lines of a text without their ends and without the `\r`s before these. What follows the last
`\n` counts as a line, also if it is empty. -/
def trimmedLines (text : String) : List String :=
  (text.toList.splitOn '\n').map fun line => String.ofList (line.rdropWhile (· == '\r'))

/-- The inputs that a text holds for a session: its lines up to the first that is empty. -/
def sessionInputs (text : String) : List String := (trimmedLines text).takeWhile (!·.isEmpty)

theorem trimmedLines_eq_map (text : String) :
    trimmedLines text =
      ((text.toList.splitOnPPrepend (· == '\n') []).map String.ofList).map Text.withoutReturns := by
  have trimmed (line : List Char) :
      String.ofList (line.rdropWhile (· == '\r')) = Text.withoutReturns (String.ofList line) := by
    rw [Text.withoutReturns, String.toList_ofList]
    rfl
  simp only [trimmedLines, List.splitOn_eq_splitOnP, trimmed, List.splitOnPPrepend_nil_right,
    List.map_map, Function.comp_def]

/-- The lines that a session sees are those of the text, but for an empty one at its end. -/
theorem trimmedLines_eq (text : String) :
    trimmedLines text = (Text.lines text).map Text.withoutReturns ∨
      trimmedLines text = (Text.lines text).map Text.withoutReturns ++ [""] := by
  rw [trimmedLines_eq_map, Text.lines]
  rcases Text.splitOnPPrepend_eq_divide (· == '\n') [] text.toList with same | more
  · exact Or.inl (by rw [same])
  · refine Or.inr ?_
    rw [more, List.map_append, List.map_append]
    rfl

theorem trimmedLines_of_end (front : String) :
    (Text.lines (front ++ "\n")).map Text.withoutReturns = trimmedLines front := by
  rw [trimmedLines_eq_map, Text.lines_of_end]

theorem sessionInputs_eq (text : String) :
    sessionInputs text = ((Text.lines text).map Text.withoutReturns).takeWhile (!·.isEmpty) := by
  rw [sessionInputs]
  rcases trimmedLines_eq text with same | more
  · rw [same]
  · rw [more, List.takeWhile_append]
    split
    · next whole => simpa using ((List.takeWhile_prefix _).eq_of_length whole).symm
    · rfl

/-! ## Sessions over lines -/

variable {a : Automaton} {limits : Limits} {traced : Bool}

/-- The tracer writes after whatever stands there. -/
theorem foldl_notice_tracer (events : List Search.Event) (written : String) :
    events.foldl (Search.tracer.notice a) written =
      written ++ String.join (events.map (Search.Event.toText a)) := by
  induction events generalizing written with
  | nil => simp
  | cons e events ih =>
    have wrote : Search.tracer.notice a written e = written ++ e.toText a := by
      cases e with
      | examined c => rfl
      | queued m => rfl
    rw [List.foldl_cons, wrote, ih, List.map_cons, String.join_cons, String.append_assoc]

/-- Nothing is written for an observer that notices nothing. -/
theorem foldl_notice_blind {σ : Type} (events : List Search.Event) (seen : σ) :
    events.foldl (Observer.blind.notice a) seen = seen := by
  induction events with
  | nil => rfl
  | cons e events ih =>
    cases e with
    | examined c => exact ih
    | queued m => exact ih

/-- What a session writes of the course of a run. -/
def traceOf (a : Automaton) (limits : Limits) (traced : Bool) (input : String) : String :=
  if traced then String.join ((a.events limits input).map (Search.Event.toText a)) else ""

/-- A run in a session is the run by itself, and its trace comes after what the earlier ones have
left. -/
theorem runWith_sessionObserver (input written : String) (log : Log) :
    a.runWith limits (sessionObserver traced) input written log =
      (a.run limits input, written ++ traceOf a limits traced input,
        (a.logOf limits input).foldl Log.tell log) := by
  rw [Automaton.runWith_eq_run]
  cases traced with
  | true => simp only [sessionObserver, traceOf, if_true, foldl_notice_tracer]
  | false => simp [sessionObserver, traceOf, foldl_notice_blind]

theorem separator_eq :
    separator = "*-*-*-*-*-*-*-*-*-*-*-*-*-*-*-*-*-*-*-*-*-*-*-*-*-*-*-*-*" := by
  decide

/-- What a session writes of an answer, letter by letter. -/
theorem answerText_eq (accepted : Bool) (transitions : Nat) :
    answerText accepted transitions =
      (if accepted then "--> Accepted\n" else "--> Rejected\n") ++
        "Transitions processed: " ++ toString transitions ++ "\n" ++
        "*-*-*-*-*-*-*-*-*-*-*-*-*-*-*-*-*-*-*-*-*-*-*-*-*-*-*-*-*\n" := by
  have ended : separator ++ "\n" =
      "*-*-*-*-*-*-*-*-*-*-*-*-*-*-*-*-*-*-*-*-*-*-*-*-*-*-*-*-*\n" := by
    rw [separator_eq]
    decide
  rw [← ended, answerText]
  simp only [String.append_assoc]
  rfl

theorem bannerText_eq (name : String) :
    bannerText name =
      "PDA loaded from " ++ name ++
        "\nReading input strings from console (empty string to exit)...\n" := rfl

/-- What a session writes of a run with an answer. -/
def reportOf (a : Automaton) (limits : Limits) (traced : Bool) (input : String) : String :=
  let execution := a.run limits input
  traceOf a limits traced input ++
    answerText (execution.verdict = .accepted) execution.transitions

/-- What a session writes of runs on some inputs, of which the first that fails is the last. -/
def reportOfAll (a : Automaton) (limits : Limits) (traced : Bool) (inputs : List String) : String :=
  String.join ((inputs.takeWhile fun w => !(a.run limits w).isFailed).map
      (reportOf a limits traced)) ++
    ((inputs.find? fun w => (a.run limits w).isFailed).map (traceOf a limits traced)).getD ""

/-! ### One line -/

variable {line : String}

/-- At an empty line a session stops. -/
theorem testLines_of_isEmpty (o : Observer String) (stop : (Text.withoutReturns line).isEmpty = true)
    (rest : List (Option String)) (written : String) (log : Log) :
    testLines a limits o (some line :: rest) written log = ⟨written, log.events, none⟩ := by
  rw [testLines]
  exact if_pos stop

/-- After a run without an answer a session stops, too. -/
theorem testLines_of_isFailed (traced : Bool) (go : (Text.withoutReturns line).isEmpty = false)
    (failed : (a.run limits (Text.withoutReturns line)).isFailed = true) (written : String)
    (log : Log) :
    ∃ log' complaint, ∀ rest, testLines a limits (sessionObserver traced) (some line :: rest)
      written log =
        ⟨written ++ traceOf a limits traced (Text.withoutReturns line), log', some complaint⟩ := by
  obtain ⟨error, answered⟩ := Execution.answer_of_isFailed failed
  refine ⟨((a.logOf limits (Text.withoutReturns line)).foldl Log.tell log).events,
    .ofError error, fun rest => ?_⟩
  rw [testLines]
  simp only [go, Bool.false_eq_true, if_false, runWith_sessionObserver, answered]

/-- After a run with an answer it goes on. -/
theorem testLines_of_not_isFailed (go : (Text.withoutReturns line).isEmpty = false)
    (answered : (a.run limits (Text.withoutReturns line)).isFailed = false)
    (rest : List (Option String)) (written : String) (log : Log) :
    testLines a limits (sessionObserver traced) (some line :: rest) written log =
      testLines a limits (sessionObserver traced) rest
        (written ++ reportOf a limits traced (Text.withoutReturns line))
        ((a.logOf limits (Text.withoutReturns line)).foldl Log.tell log) := by
  rw [testLines]
  simp only [go, Bool.false_eq_true, if_false, runWith_sessionObserver,
    Execution.answer_of_not_isFailed answered, reportOf, String.append_assoc]

/-! ### All lines -/

/-- A session over lines writes what the runs on its inputs report, and complains if one fails. -/
theorem testLines_eq_report (a : Automaton) (limits : Limits) (traced : Bool) (lines : List String)
    (written : String) (log : Log) :
    let inputs := (lines.map Text.withoutReturns).takeWhile (!·.isEmpty)
    let session := testLines a limits (sessionObserver traced) (lines.map some) written log
    session.output = written ++ reportOfAll a limits traced inputs ∧
      session.complaint.isSome = inputs.any fun w => (a.run limits w).isFailed := by
  induction lines generalizing written log with
  | nil => exact ⟨String.append_empty.symm, rfl⟩
  | cons line lines ih =>
    rw [List.map_cons, List.map_cons]
    cases stop : (Text.withoutReturns line).isEmpty with
    | true => simp [testLines_of_isEmpty _ stop, stop, reportOfAll]
    | false =>
      cases failed : (a.run limits (Text.withoutReturns line)).isFailed with
      | true =>
        obtain ⟨log', complaint, tested⟩ :=
          testLines_of_isFailed traced stop failed written log
        simp [stop, tested, reportOfAll, failed]
      | false =>
        have next := ih (written ++ reportOf a limits traced (Text.withoutReturns line))
          ((a.logOf limits (Text.withoutReturns line)).foldl Log.tell log)
        simp only [reportOfAll] at next
        simp [testLines_of_not_isFailed stop failed, next, stop, failed, reportOfAll,
          String.append_assoc]

/-- Where some lines stop a session, it looks at nothing after them. -/
theorem testLines_append {front : List String}
    (stop : ∃ w ∈ front.map Text.withoutReturns, w.isEmpty ∨ (a.run limits w).isFailed)
    (rest : List (Option String)) (written : String) (log : Log) :
    testLines a limits (sessionObserver traced) (front.map some ++ rest) written log =
      testLines a limits (sessionObserver traced) (front.map some) written log := by
  induction front generalizing written log with
  | nil =>
    obtain ⟨w, hw, -⟩ := stop
    cases hw
  | cons line front ih =>
    rw [List.map_cons, List.cons_append]
    cases empty : (Text.withoutReturns line).isEmpty with
    | true => rw [testLines_of_isEmpty _ empty, testLines_of_isEmpty _ empty]
    | false =>
      cases failed : (a.run limits (Text.withoutReturns line)).isFailed with
      | true =>
        obtain ⟨log', complaint, tested⟩ :=
          testLines_of_isFailed traced empty failed written log
        rw [tested, tested]
      | false =>
        obtain ⟨w, hw, stops⟩ := stop
        rcases List.mem_cons.1 hw with rfl | later
        · rcases stops with is_empty | fails
          · exact absurd is_empty (empty ▸ Bool.false_ne_true)
          · exact absurd fails (failed ▸ Bool.false_ne_true)
        · rw [testLines_of_not_isFailed empty failed, testLines_of_not_isFailed empty failed,
            ih ⟨w, later, stops⟩]

/-! ## Main result -/

theorem Source.load_sample {files : Files} {name : String} {sample : Sample}
    (found : Sample.find? name = some sample) :
    ((Source.sample name).load files).2 = .ok (sample.name, sample.automaton) := by
  rw [load, found]

theorem Source.load_unknown (files : Files) {name : String} (found : Sample.find? name = none) :
    ∃ complaint, ((Source.sample name).load files).2 = .error complaint := by
  rw [load, found]
  exact ⟨_, rfl⟩

/-- What a source gives was built. -/
theorem Source.isBuilt_of_load {files : Files} {source : Source} {name : String}
    (loaded : (source.load files).2 = .ok (name, a)) : a.IsBuilt := by
  cases source with
  | sample wanted =>
    cases found : Sample.find? wanted with
    | none =>
      obtain ⟨complaint, refused⟩ := load_unknown files found
      cases loaded.symm.trans refused
    | some sample =>
      cases loaded.symm.trans (load_sample found)
      exact Sample.isBuilt_of_find? found
  | file path =>
    rw [load] at loaded
    cases content : files path with
    | error fault => simp [content, Definition.loadRead] at loaded
    | ok text =>
      simp only [content, Definition.loadRead] at loaded
      cases read : (Definition.loadLogged text).2 with
      | error e => simp [read] at loaded
      | ok b =>
        simp only [read, Except.ok.injEq, Prod.mk.injEq] at loaded
        rw [← loaded.2]
        exact Definition.isBuilt_of_load read

/-- What a command that tests lines leaves is what its lines leave, after the banner at a
terminal. -/
theorem perform_test {c : Command} {files : Files} {source : Source} {config : Option String}
    {most : Option Nat} {name : String} (task : c.task = .test source config most traced)
    (loaded : (source.load files).2 = .ok (name, a))
    (chosen : chooseLimits files config most = .ok limits) :
    ∃ log, ∀ terminal lines, c.performAt terminal files lines =
      testLines a limits (sessionObserver traced) lines (if terminal then bannerText name else "")
        log := by
  cases given : source.load files with
  | mk loading result =>
    rw [given] at loaded
    obtain rfl : result = .ok (name, a) := loaded
    refine ⟨(loading.foldl Log.tell (.blank c.level)).tell (.engineConfigured limits.maxTransitions),
      fun terminal lines => ?_⟩
    simp only [Command.performAt, task, Task.perform, given, chosen]

/-- **A session reports the verdicts of single runs.** -/
theorem session_reports_runs {c : Command} {files : Files} {source : Source}
    {config : Option String} {most : Option Nat} {name : String}
    (task : c.task = .test source config most traced)
    (loaded : (source.load files).2 = .ok (name, a))
    (chosen : chooseLimits files config most = .ok limits) :
    let session (terminal : Bool) (text : String) :=
      c.performAt terminal files (Text.linesOfBytes text.toUTF8)
    let fails (w : String) : Bool := (a.run limits w).isFailed
    let shown : Search.Event → String
      | .examined c =>
        "--------------------\nCurrent transition:\n\tState: " ++ a.nameOf c.state ++
          "\n\tSymbols: " ++ String.ofList c.input ++
          "\n\tStack: " ++ String.ofList c.stack.symbols ++ "\n\tNext transitions:\n"
      | .queued m =>
        "\t\tFrom state: " ++ a.nameOf m.source ++
          "\n\t\tConsume: " ++ String.ofList [m.consumed] ++
          "\n\t\tStack top: " ++ String.ofList [m.top] ++
          "\n\t\tTo state: " ++ a.nameOf m.target ++
          "\n\t\tStack replacement: " ++ String.ofList m.push ++ "\n\n"
    let trace (w : String) : String :=
      if traced then String.join ((a.events limits w).map shown) else ""
    let answer (w : String) : String :=
      (if (a.run limits w).verdict = .accepted then "--> Accepted\n" else "--> Rejected\n") ++
        "Transitions processed: " ++ toString (a.run limits w).transitions ++ "\n" ++
        "*-*-*-*-*-*-*-*-*-*-*-*-*-*-*-*-*-*-*-*-*-*-*-*-*-*-*-*-*\n"
    (∀ text,
      let inputs := sessionInputs text
      (session false text).output =
          String.join ((inputs.takeWhile (!fails ·)).map fun w => trace w ++ answer w) ++
            ((inputs.find? fails).map trace).getD "" ∧
        (session true text).output =
          "PDA loaded from " ++ name ++
            "\nReading input strings from console (empty string to exit)...\n" ++
            (session false text).output ∧
        ∀ terminal, (session terminal text).status = if inputs.any fails then 1 else 0) ∧
    -- what follows a line at which the session ends has no effect
    ∀ terminal front rest, (∃ w ∈ trimmedLines front, w = "" ∨ fails w) →
      session terminal (front ++ "\n" ++ rest) = session terminal (front ++ "\n") := by
  intro session fails shown trace answer
  obtain ⟨log, performed⟩ := perform_test task loaded chosen
  have shown_eq : shown = Search.Event.toText a := by
    funext e
    cases e with
    | examined c => rfl
    | queued m => rfl
  have trace_eq : traceOf a limits traced = trace := by
    funext w
    rw [traceOf, ← shown_eq]
  have report_eq : reportOf a limits traced = fun w => trace w ++ answer w := by
    funext w
    rw [reportOf, trace_eq, answerText_eq]
    simp only [decide_eq_true_eq]
    rfl
  refine ⟨fun text => ?_, fun terminal front rest stop => ?_⟩
  · intro inputs
    have reported (terminal : Bool) :
        (session terminal text).output =
            (if terminal then bannerText name else "") ++ reportOfAll a limits traced inputs ∧
          (session terminal text).complaint.isSome = inputs.any fails := by
      have report := testLines_eq_report a limits traced (Text.lines text)
        (if terminal then bannerText name else "") log
      rw [← sessionInputs_eq, ← Text.linesOfBytes_toUTF8, ← performed] at report
      exact report
    have written : (session false text).output = reportOfAll a limits traced inputs :=
      (reported false).1.trans String.empty_append
    refine ⟨?_, ?_, fun terminal => ?_⟩
    · rw [written, reportOfAll, report_eq, trace_eq]
    · rw [(reported true).1, written, if_pos rfl, bannerText_eq]
    · rw [Transcript.status, (reported terminal).2]
  · have stops : ∃ w ∈ (Text.lines (front ++ "\n")).map Text.withoutReturns,
        w.isEmpty ∨ (a.run limits w).isFailed := by
      rw [trimmedLines_of_end]
      exact stop.imp fun w => And.imp_right (Or.imp_left String.isEmpty_iff.2)
    show c.performAt _ _ _ = c.performAt _ _ _
    rw [performed, performed, Text.linesOfBytes_toUTF8, Text.linesOfBytes_toUTF8,
      Text.lines_append_end, ← Text.lines_of_end, List.map_append, testLines_append stops]

/-- A definition of the balanced words. -/
def balancedDefinition : String := "q\n( )\nX Z\nq\nZ\nq ( X q XX\nq ( Z q XZ\nq ) X q .\nq . Z q ."

/-- A session on the balanced words, at a terminal, that answers twice and ends at a symbol that is
not declared, whatever comes after it. -/
theorem session_reports_runs_balanced :
    let c : Command := ⟨.test (.file "balanced.pda") none (some 10) false, 0⟩
    let files : Files := fun _ => .ok balancedDefinition
    let session (terminal : Bool) (text : String) :=
      c.performAt terminal files (Text.linesOfBytes text.toUTF8)
    c.task = .test (.file "balanced.pda") none (some 10) false ∧
      ((Source.file "balanced.pda").load files).2 = .ok ("balanced.pda", Automaton.balanced) ∧
      chooseLimits files none (some 10) = .ok ⟨10⟩ ∧
      (session true "()\n(\r\r\nx\n()").output =
        "PDA loaded from balanced.pda\n" ++
          "Reading input strings from console (empty string to exit)...\n" ++
          "--> Accepted\nTransitions processed: 5\n" ++
          "*-*-*-*-*-*-*-*-*-*-*-*-*-*-*-*-*-*-*-*-*-*-*-*-*-*-*-*-*\n" ++
          "--> Rejected\nTransitions processed: 3\n" ++
          "*-*-*-*-*-*-*-*-*-*-*-*-*-*-*-*-*-*-*-*-*-*-*-*-*-*-*-*-*\n" ∧
      (session true "()\n(\r\r\nx\n()").status = 1 ∧
      session true "()\n(\r\r\nx\n()" = session true "()\n(\r\r\nx\n" := by
  intro c files session
  have task : c.task = .test (.file "balanced.pda") none (some 10) false := rfl
  have loaded : ((Source.file "balanced.pda").load files).2 =
      .ok ("balanced.pda", Automaton.balanced) := by decide +kernel
  have chosen : chooseLimits files none (some 10) = .ok ⟨10⟩ := rfl
  obtain ⟨reports, ends⟩ := session_reports_runs task loaded chosen
  obtain ⟨output, banner, status⟩ := reports "()\n(\r\r\nx\n()"
  have ended := ends true "()\n(\r\r\nx" "()" ⟨"x", by decide +kernel, Or.inr (by decide +kernel)⟩
  have whole : "()\n(\r\r\nx" ++ "\n" ++ "()" = "()\n(\r\r\nx\n()" := by decide
  have front : "()\n(\r\r\nx" ++ "\n" = "()\n(\r\r\nx\n" := by decide
  rw [whole, front] at ended
  refine ⟨task, loaded, chosen, banner.trans (output ▸ ?_), (status true).trans ?_, ended⟩
  · decide +kernel
  · decide +kernel

end CommandLine

end Pushdown
