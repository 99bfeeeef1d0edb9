import Pushdown.Proofs.Definition.Unplaced

/-!
# Lines that hold at most a comment

Blank lines and lines of comment are meant to be ignored wherever they stand. What a text is loaded
as depends on the rows that hold more than a comment and on the last row, whatever lines they stand
on (`significantRows_unplaced`). A line that holds at most a comment is no row of the first kind,
wherever it is put in. So it can make a difference only where it becomes the last, or where the last
row no longer is:

> `load_idleLine`: before the first line and between two it makes no difference; after the last it
> makes none unless just four rows hold more than a comment and one of the two last rows, the old or
> the new, is a comment of a single word.

In that case the last line, which has no newline, is taken for the initial stack symbol:
`load_final_newline_matters` has a text that is loaded, but not with a newline at its end.
-/

namespace Pushdown.Definition

/-! ## The rows that count -/

/-- The rows that count are those that hold more than a comment, and the last one if it is a comment
and fewer than five come before it. -/
theorem significant_eq (before : Nat) (rows : List Row) :
    significant before rows =
      rows.filter (!isIdle ·) ++
        (rows.getLast?.filter fun last =>
          isCommentRow last && before + (rows.filter (!isIdle ·)).length < 5).toList := by
  induction rows generalizing before with
  | nil => rfl
  | cons row below ih =>
    cases below with
    | nil =>
      cases row with
      | nil => rfl
      | cons t more =>
        cases comment : isCommentRow (t :: more) with
        | false => simp [significant, isIdle, comment]
        | true =>
          by_cases header : before < 5
          · simp [significant, isIdle, comment, header, Option.filter_some, Nat.not_le.2 header]
          · simp [significant, isIdle, comment, header, Nat.le_of_not_lt header]
    | cons next more =>
      rw [List.getLast?_cons_cons]
      cases idle : isIdle row with
      | true =>
        have passed : (row :: next :: more).filter (!isIdle ·) =
            (next :: more).filter (!isIdle ·) := by
          rw [List.filter_cons, idle]
          rfl
        rw [significant, if_pos idle, ih, passed]
      | false =>
        have kept : (row :: next :: more).filter (!isIdle ·) =
            row :: (next :: more).filter (!isIdle ·) := by
          rw [List.filter_cons, idle]
          rfl
        rw [significant_cons idle, ih, kept]
        simp only [List.length_cons, List.cons_append, Nat.add_assoc, Nat.add_comm 1]

/-- The lines of a text, where every `\n` and every `\r` ends one. -/
def pieces (cs : List Char) : List (List Char) := cs.splitOnP (!isInLine ·)

/-- Two divisions of a text that differ in empty lines only, and not at the end. -/
def AgreeButForEmpty (lines others : List (List Char)) : Prop :=
  ∃ first below below', lines = first :: below ∧ others = first :: below' ∧
    below.filter (!·.isEmpty) = below'.filter (!·.isEmpty) ∧ below.getLast? = below'.getLast?

namespace AgreeButForEmpty

variable {lines others : List (List Char)}

theorem cons_nil (h : AgreeButForEmpty lines others) :
    AgreeButForEmpty ([] :: lines) ([] :: others) := by
  obtain ⟨first, below, below', rfl, rfl, busy, last⟩ := h
  refine ⟨[], _, _, rfl, rfl, ?_, ?_⟩
  · rw [List.filter_cons, List.filter_cons, busy]
  · rw [List.getLast?_cons, List.getLast?_cons, last]

theorem cons_nil_nil (h : AgreeButForEmpty lines others) :
    AgreeButForEmpty ([] :: lines) ([] :: [] :: others) := by
  obtain ⟨first, below, below', rfl, rfl, busy, last⟩ := h
  refine ⟨[], first :: below, [] :: first :: below', rfl, rfl, ?_, ?_⟩
  · have empty : ([] :: first :: below').filter (!·.isEmpty) =
        (first :: below').filter (!·.isEmpty) := rfl
    rw [empty, List.filter_cons, List.filter_cons, busy]
  · rw [List.getLast?_cons_cons, List.getLast?_cons, List.getLast?_cons, last]

theorem modifyHead (h : AgreeButForEmpty lines others) (f : List Char → List Char) :
    AgreeButForEmpty (lines.modifyHead f) (others.modifyHead f) := by
  obtain ⟨first, below, below', rfl, rfl, busy, last⟩ := h
  exact ⟨f first, below, below', rfl, rfl, busy, last⟩

end AgreeButForEmpty

/-- A `\r` and the `\n` after it end one line between them, with nothing in it; that is all the
difference between the lines of a text and its pieces. -/
theorem linesFrom_agree (n : Nat) (cs : List Char) :
    AgreeButForEmpty ((linesFrom n cs).map Prod.snd) (pieces cs) := by
  unfold pieces
  fun_induction linesFrom n cs with
  | case1 n => exact ⟨[], [], [], rfl, rfl, rfl, rfl⟩
  | case2 n cs ih => exact ih.cons_nil
  | case3 n cs ih => exact ih.cons_nil_nil
  | case4 n cs not_newline ih => exact ih.cons_nil
  | case5 n c cs not_newline not_both not_return ih =>
    have in_line : isInLine c = true := by
      simp only [isInLine, Bool.not_eq_true', Bool.or_eq_false_iff, beq_eq_false_iff_ne]
      exact ⟨not_newline, not_return⟩
    have split : (c :: cs).splitOnP (!isInLine ·) =
        (cs.splitOnP (!isInLine ·)).modifyHead (c :: ·) := by
      rw [List.splitOnP_cons_eq_if_modifyHead, in_line]
      rfl
    have numbered : ((linesFrom n cs).modifyHead fun line => (line.1, c :: line.2)).map Prod.snd =
        ((linesFrom n cs).map Prod.snd).modifyHead (c :: ·) := by
      cases linesFrom n cs <;> rfl
    rw [split, numbered]
    exact ih.modifyHead (c :: ·)

/-! ### Rows whatever their lines -/

/-- The rows of some lines that hold more than a comment. -/
def busyOf (lines : List (List Char)) : List Row := (lines.map (tokensOf 0)).filter (!isIdle ·)

/-- The rows of a text that hold more than a comment. -/
def busyRows (text : String) : List Row := busyOf (pieces text.toList)

/-- The last row of a text. -/
def lastRow? (text : String) : Option Row := (pieces text.toList).getLast?.map (tokensOf 0)

theorem busyOf_append (lines others : List (List Char)) :
    busyOf (lines ++ others) = busyOf lines ++ busyOf others := by
  rw [busyOf, List.map_append, List.filter_append, ← busyOf, ← busyOf]

/-- Empty lines hold nothing. -/
theorem busyOf_filter (lines : List (List Char)) :
    busyOf (lines.filter (!·.isEmpty)) = busyOf lines := by
  unfold busyOf
  rw [List.filter_map, List.filter_map, List.filter_filter]
  refine congrArg _ (List.filter_congr fun line _ => ?_)
  cases line with
  | nil => rfl
  | cons c cs => exact Bool.and_true _

namespace AgreeButForEmpty

variable {lines others : List (List Char)}

theorem busyOf_eq (h : AgreeButForEmpty lines others) : busyOf lines = busyOf others := by
  obtain ⟨first, below, below', rfl, rfl, busy, -⟩ := h
  rw [← busyOf_filter, ← busyOf_filter (first :: below'), List.filter_cons, List.filter_cons, busy]

theorem getLast?_eq (h : AgreeButForEmpty lines others) : lines.getLast? = others.getLast? := by
  obtain ⟨first, below, below', rfl, rfl, -, last⟩ := h
  rw [List.getLast?_cons, List.getLast?_cons, last]

end AgreeButForEmpty

/-- The rows of a text that count are told by those that hold more than a comment, and the last. -/
theorem significantRows_unplaced (text : String) :
    (significantRows text).map unplaced =
      busyRows text ++ ((lastRow? text).filter fun last =>
        isCommentRow last && (busyRows text).length < 5).toList := by
  have rows : (rowsFrom 1 text.toList).map unplaced =
      ((linesFrom 1 text.toList).map Prod.snd).map (tokensOf 0) := by
    rw [rowsFrom, List.map_map, List.map_map]
    exact List.map_congr_left fun line _ => tokensOf_unplaced _ _
  have agree := linesFrom_agree 1 text.toList
  have busy : ((rowsFrom 1 text.toList).filter (!isIdle ·)).map unplaced = busyRows text := by
    rw [busyRows, ← agree.busyOf_eq, busyOf, ← rows, List.filter_map]
    simp only [Function.comp_def, isIdle_unplaced]
  have last : (rowsFrom 1 text.toList).getLast?.map unplaced = lastRow? text := by
    rw [lastRow?, ← agree.getLast?_eq, ← List.getLast?_map, ← List.getLast?_map, rows]
  have count : ((rowsFrom 1 text.toList).filter (!isIdle ·)).length = (busyRows text).length := by
    rw [← busy, List.length_map]
  rw [significantRows, significant_eq, List.map_append, busy, count, ← last, Nat.zero_add]
  congr 1
  cases (rowsFrom 1 text.toList).getLast? with
  | none => rfl
  | some row =>
    simp only [Option.map_some, Option.filter_some, isCommentRow_unplaced]
    split <;> rfl

/-! ## Lines that are put in -/

/-- What may end a line. -/
def newlines : List String := ["\n", "\r\n", "\r"]

/-- A line that holds at most a comment: it is blank, or its first character that is no blank is a
`#`. -/
structure IsIdleLine (line : String) : Prop where
  in_line : ∀ c ∈ line.toList, isInLine c = true
  idle : ∀ c, (line.toList.dropWhile isBlank).head? = some c → c = '#'

/-- Between two parts of a text with a newline between them, there is nothing but perhaps an empty
line. -/
theorem pieces_append {nl : String} (ends : nl ∈ newlines) (front back : String) :
    ∃ gap, busyOf gap = [] ∧
      pieces (front ++ nl ++ back).toList = pieces front.toList ++ gap ++ pieces back.toList := by
  have at_end {c : Char} (h : isInLine c = false) (xs ys : List Char) :
      pieces (xs ++ c :: ys) = pieces xs ++ pieces ys :=
    List.splitOnP_append_cons xs ys (by rw [h]; rfl)
  simp only [newlines, List.mem_cons, List.not_mem_nil, or_false] at ends
  simp only [String.toList_append, List.append_assoc]
  rcases ends with rfl | rfl | rfl
  · exact ⟨[], rfl, at_end rfl _ _⟩
  · refine ⟨[[]], rfl, ?_⟩
    show pieces (front.toList ++ '\r' :: ([] ++ '\n' :: back.toList)) = _
    rw [at_end rfl, at_end rfl]
    rfl
  · exact ⟨[], rfl, at_end rfl _ _⟩

theorem busyRows_append {nl : String} (ends : nl ∈ newlines) (front back : String) :
    busyRows (front ++ nl ++ back) = busyRows front ++ busyRows back := by
  obtain ⟨gap, nothing, split⟩ := pieces_append ends front back
  rw [busyRows, split, busyOf_append, busyOf_append, nothing, List.append_nil]
  rfl

theorem lastRow?_append {nl : String} (ends : nl ∈ newlines) (front back : String) :
    lastRow? (front ++ nl ++ back) = lastRow? back := by
  obtain ⟨gap, -, split⟩ := pieces_append ends front back
  have some_piece : pieces back.toList ≠ [] := List.splitOnP_ne_nil _ _
  rw [lastRow?, split, List.getLast?_append_of_ne_nil _ some_piece]
  rfl

theorem IsIdleLine.busyRows_eq {line : String} (h : IsIdleLine line) : busyRows line = [] := by
  have whole : pieces line.toList = [line.toList] :=
    List.splitOnP_eq_singleton fun c hc => by rw [h.in_line c hc]; rfl
  rw [busyRows, whole, busyOf, List.map_singleton, List.filter_singleton, isIdle_tokensOf h.idle]
  rfl

/-! ## Main result -/

/-- Whether the last line of a text is a comment of a single word. -/
def EndsInWordOfComment (text : String) : Prop := ∃ t, lastRow? text = some [t] ∧ t.isComment = true

/-- The fifth row of a definition is a single token. -/
theorem FollowsFormat.fifth {rows : List Row} (h : FollowsFormat rows) :
    ∃ t, rows[4]? = some [t] := by
  match rows, h with
  | _ :: _ :: _ :: [_] :: [symbol] :: _, _ => exact ⟨symbol, rfl⟩

/-- Fewer than five rows that hold more than a comment are a definition only if a comment of a
single word can stand for the fifth. -/
theorem not_followsFormat_of_few {text : String} (few : (busyRows text).length < 5)
    (h : ¬ ((busyRows text).length = 4 ∧ EndsInWordOfComment text)) :
    ¬ FollowsFormat ((significantRows text).map unplaced) := by
  intro shape
  obtain ⟨t, fifth⟩ := shape.fifth
  rw [significantRows_unplaced, List.getElem?_append_right (by omega)] at fifth
  cases counts : (lastRow? text).filter fun last =>
      isCommentRow last && (busyRows text).length < 5 with
  | none => simp [counts] at fifth
  | some last =>
    rw [counts, Option.toList_some, List.getElem?_singleton] at fifth
    split at fifth
    · next place =>
      obtain rfl := Option.some.inj fifth
      obtain ⟨at_end, comment⟩ := Option.filter_eq_some_iff.1 counts
      exact h ⟨by omega, t, at_end, (Bool.and_eq_true_iff.1 comment).1⟩
    · cases fifth

theorem endAlike_of_not_followsFormat {text text' : String}
    (small : text.utf8ByteSize ≤ sizeLimit) (small' : text'.utf8ByteSize ≤ sizeLimit)
    (h : ¬ FollowsFormat ((significantRows text).map unplaced))
    (h' : ¬ FollowsFormat ((significantRows text').map unplaced)) :
    EndAlike (load text) (load text') := by
  have refused {text : String} (small : text.utf8ByteSize ≤ sizeLimit)
      (h : ¬ FollowsFormat ((significantRows text).map unplaced)) :
      ∃ report, load text = .error (.layout report) := by
    cases read : Layout.read text with
    | error report => exact ⟨report, load_of_read_eq_error small read⟩
    | ok l =>
      have shape := (layoutOf?_eq_some_iff.1 (Layout.read_eq_ok_iff.1 read)).1
      exact absurd (followsFormat_unplaced.2 shape) h
  obtain ⟨report, refused₁⟩ := refused small h
  obtain ⟨report', refused₂⟩ := refused small' h'
  rw [refused₁, refused₂]
  exact .layout report report'

/-- **Idle lines are ignored.** A line that holds at most a comment makes no difference where
another line follows it. At the end of a text it makes none unless the header lacks its last line,
and the last line that has no newline is a word of comment, before or after. -/
theorem load_idleLine {line : String} (idle : IsIdleLine line) {nl : String}
    (ends : nl ∈ newlines) :
    (∀ text, text.utf8ByteSize ≤ sizeLimit → (line ++ nl ++ text).utf8ByteSize ≤ sizeLimit →
      EndAlike (load text) (load (line ++ nl ++ text))) ∧
    (∀ before nl₀ after, nl₀ ∈ newlines → (before ++ nl₀ ++ after).utf8ByteSize ≤ sizeLimit →
      (before ++ nl₀ ++ line ++ nl ++ after).utf8ByteSize ≤ sizeLimit →
      EndAlike (load (before ++ nl₀ ++ after)) (load (before ++ nl₀ ++ line ++ nl ++ after))) ∧
    ∀ text, text.utf8ByteSize ≤ sizeLimit → (text ++ nl ++ line).utf8ByteSize ≤ sizeLimit →
      ¬ ((busyRows text).length = 4 ∧ (EndsInWordOfComment text ∨ EndsInWordOfComment line)) →
      EndAlike (load text) (load (text ++ nl ++ line)) := by
  refine ⟨fun text small small' => ?_, fun before nl₀ after ends₀ small small' => ?_,
    fun text small small' regular => ?_⟩
  · refine load_endAlike small small' ?_
    rw [significantRows_unplaced, significantRows_unplaced, busyRows_append ends, idle.busyRows_eq,
      lastRow?_append ends]
    rfl
  · refine load_endAlike small small' ?_
    simp only [significantRows_unplaced, busyRows_append ends, busyRows_append ends₀,
      lastRow?_append ends, lastRow?_append ends₀, idle.busyRows_eq, List.append_nil]
  · have busy : busyRows (text ++ nl ++ line) = busyRows text := by
      rw [busyRows_append ends, idle.busyRows_eq, List.append_nil]
    have last : EndsInWordOfComment (text ++ nl ++ line) ↔ EndsInWordOfComment line := by
      rw [EndsInWordOfComment, lastRow?_append ends]
      rfl
    by_cases few : (busyRows text).length < 5
    · refine endAlike_of_not_followsFormat small small' (not_followsFormat_of_few few ?_)
        (not_followsFormat_of_few (by rwa [busy]) ?_)
      · exact fun h => regular ⟨h.1, Or.inl h.2⟩
      · rw [busy, last]
        exact fun h => regular ⟨h.1, Or.inr h.2⟩
    · have none_counts (last : Option Row) : last.filter (fun _ => false) = none := by
        cases last <;> rfl
      refine load_endAlike small small' ?_
      simp only [significantRows_unplaced, busy, few, decide_false, Bool.and_false, none_counts]

/-- Lines of comment around `commented`, which ends in a comment without a newline, are ignored. -/
theorem load_idleLine_commented :
    IsIdleLine "\t# note" ∧ "\r\n" ∈ newlines ∧ commented.utf8ByteSize ≤ sizeLimit ∧
      ("\t# note" ++ "\r\n" ++ commented).utf8ByteSize ≤ sizeLimit ∧
      (commented ++ "\r\n" ++ "\t# note").utf8ByteSize ≤ sizeLimit ∧
      (busyRows commented).length = 6 ∧
      ∃ a, load commented = .ok a ∧ load ("\t# note" ++ "\r\n" ++ commented) = .ok a ∧
        load (commented ++ "\r\n" ++ "\t# note") = .ok a := by
  have idle : IsIdleLine "\t# note" := by
    have first : ("\t# note".toList.dropWhile isBlank).head? = some '#' := by decide
    exact ⟨List.all_eq_true.1 (by decide), fun c hc => Option.some.inj (hc.symm.trans first)⟩
  have ends : "\r\n" ∈ newlines := by decide
  have small : commented.utf8ByteSize ≤ sizeLimit := by decide
  have small₁ : ("\t# note" ++ "\r\n" ++ commented).utf8ByteSize ≤ sizeLimit := by decide
  have small₂ : (commented ++ "\r\n" ++ "\t# note").utf8ByteSize ≤ sizeLimit := by decide
  have rows : (busyRows commented).length = 6 := by decide
  obtain ⟨first, -, last⟩ := load_idleLine idle ends
  refine ⟨idle, ends, small, small₁, small₂, rows, ?_⟩
  have before := first commented small small₁
  have behind := last commented small small₂ fun h => absurd (rows.symm.trans h.1) (by decide)
  have loads : (load commented).isOk = true := by decide +kernel
  cases loaded : load commented with
  | error e =>
    rw [loaded] at loads
    cases loads
  | ok a =>
    rw [loaded] at before behind
    exact ⟨a, rfl, before.eq_ok, behind.eq_ok⟩

/-- A definition whose header lacks its last line, with a word of comment at its end. -/
def symbolOfComment : String := "q\na\nZ #\nq\n#"

/-- The comment at the end of `symbolOfComment` is taken for the initial stack symbol, which is
declared, but not if a newline follows it. -/
theorem load_final_newline_matters :
    IsIdleLine "" ∧ (symbolOfComment ++ "\n" ++ "").utf8ByteSize ≤ sizeLimit ∧
      (∃ a, load symbolOfComment = .ok a ∧ a.initialSymbol = '#') ∧
      ¬ EndAlike (load symbolOfComment) (load (symbolOfComment ++ "\n" ++ "")) := by
  have refused : (load (symbolOfComment ++ "\n" ++ "")).isOk = false := by decide +kernel
  have loads : (load symbolOfComment).toOption.map (·.initialSymbol) = some '#' := by decide +kernel
  cases loaded : load symbolOfComment with
  | error e =>
    rw [loaded] at loads
    cases loads
  | ok a =>
    rw [loaded] at loads
    refine ⟨⟨nofun, nofun⟩, by decide, ⟨a, rfl, Option.some.inj loads⟩, fun same => ?_⟩
    rw [same.eq_ok] at refused
    cases refused

end Pushdown.Definition
