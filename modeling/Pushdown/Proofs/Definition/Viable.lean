import Pushdown.Proofs.Definition.Failures

/-!
# A text is right up to its report

The position of a report is never past the mistake: what stands before it is the beginning of a
definition, or a definition if only the end of the text was expected there.

A demand is noted only where the format asks for it (`Demanded`), which gives both halves:

> `Demanded.eq_of_offset`: at one position one thing is demanded, whatever readers have come there;
> `Demanded.viable`: with a space and any token that is demanded, the text before the position can
> be completed to a definition;
> `load_error_viable`: so it is with the position that is reported.
-/

namespace Pushdown.Definition

/-! ## What is demanded is unique -/

section

variable {text : List Char} {c d : Cursor} {above above' : List Row} {part part' : Row}

/-- A position is told by its offset. -/
theorem At.eq_of_offset (h : At text c above part) (h' : At text d above' part')
    (same : c.offset = d.offset) : c = d := by
  have line := h.line_eq
  have rest := h.append_rest.trans h'.append_rest.symm
  rw [same] at line rest
  obtain ⟨offset, number, cs⟩ := c
  obtain ⟨offset', number', cs'⟩ := d
  obtain rfl : offset = offset' := same
  obtain rfl : number = number' := line.trans h'.line_eq.symm
  obtain rfl : cs = cs' := List.append_cancel_left rest
  rfl

/-- Where a definition may end, no token is demanded that does not follow. -/
theorem Closing.accepts_of_awaited (h : Closing text c above part) {t : Token} {row : Row}
    {below : List Row} (after : c.rows = (t :: row) :: below) {e : Expected}
    (next : awaited (counted above).length part.length = some e) : accepts e t = true := by
  obtain ⟨enough, fits⟩ := followsFormat_iff.1 h.follows
  rw [List.length_append] at enough
  rw [fitFrom_append, Nat.zero_add] at fits
  -- The row counts as the last of a definition, or it holds at most a comment.
  unfold significant at enough fits
  split at enough
  · next idle =>
    have le : 5 ≤ (counted above).length := enough
    obtain ⟨rfl, shown⟩ := h.free le (by
      rw [decide_eq_true le, Bool.and_true] at idle
      exact idle) t row below after
    exact accepts_of_isComment e shown
  · next counts =>
    rw [if_neg counts] at fits
    have le : 3 ≤ (counted above).length := by
      rw [List.length_singleton] at enough
      omega
    rw [fits.2.1.awaited_length le] at next
    cases next

end

/-- **At one position one thing is demanded.** -/
theorem Demanded.eq_of_offset {text : List Char} {f g : Failure} (hf : Demanded text f)
    (hg : Demanded text g) (same : f.offset = g.offset) : f = g := by
  have clash {c d : Cursor} {above above' below below' : List Row} {part part' row row' : Row}
      {t : Token} {e : Expected} (track : OnTrack text c above part)
      (next : awaited (counted above).length part.length = some e) (after : c.rows = row :: below)
      (refused : Row.token? e row = none) (closing : Closing text d above' part')
      (after' : d.rows = (t :: row') :: below') (same : c.offset = d.offset) : False := by
    obtain ⟨rfl, rfl⟩ := track.position.unique closing.position same
    obtain rfl := track.position.eq_of_offset closing.position same
    obtain ⟨rfl, rfl⟩ := List.cons.inj (after.symm.trans after')
    have fits := closing.accepts_of_awaited after next
    rw [Row.token?_eq_some_iff.2 ⟨rfl, fits⟩] at refused
    cases refused
  cases hf with
  | token track begins next after refused =>
    cases hg with
    | token track' begins' next' after' refused' =>
      obtain ⟨rfl, rfl⟩ := track.position.unique track'.position same
      obtain rfl := Option.some.inj (next.symm.trans next')
      exact congrArg (Failure.mk · _) same
    | endOfInput closing after' => exact (clash track next after refused closing after' same).elim
  | endOfInput closing after' =>
    cases hg with
    | token track begins next after refused =>
      exact (clash track next after refused closing after' same.symm).elim
    | endOfInput closing' after => exact congrArg (Failure.mk · _) same

/-! ## What is demanded can be supplied -/

/-- Whether a token may be written where it is expected. -/
def Expected.Admits (expected : Expected) (token : String) : Prop :=
  IsWord token ∧ (expected = .name → token.toList.head? ≠ some '#')

theorem Expected.Admits.accepts {expected : Expected} {token : String} (h : expected.Admits token)
    (n : Nat) : accepts expected ⟨token, n⟩ = true := by
  cases expected with
  | name =>
    have shown := h.2 rfl
    simpa [Definition.accepts, Token.isComment] using shown
  | symbol | push | endOfInput => rfl

/-- The text of rows starts with their first token. -/
theorem exists_textOf_eq (t : Token) (row : Row) (below : List Row) :
    ∃ rest, (textOf ((t :: row) :: below)).toList = t.text.toList ++ rest := by
  obtain ⟨line_rest, line⟩ : ∃ rest, (lineOf (t :: row)).toList = t.text.toList ++ rest := by
    cases row with
    | nil => exact ⟨[], by rw [lineOf_singleton, List.append_nil]⟩
    | cons u row => exact ⟨_, toList_lineOf_cons t u row⟩
  cases below with
  | nil =>
    have whole : textOf [t :: row] = lineOf (t :: row) := String.intercalate_singleton
    exact ⟨line_rest, by rw [whole, line]⟩
  | cons next more => exact ⟨_, by rw [toList_textOf_cons, line, List.append_assoc]⟩

/-- A space at the start of a text is no part of its rows. -/
theorem rowsFrom_space (n : Nat) (cs : List Char) : rowsFrom n (' ' :: cs) = rowsFrom n cs :=
  -- Both texts are the same after their blanks.
  (Cursor.rows_skipBlanks ⟨0, n, ' ' :: cs⟩).symm.trans (Cursor.rows_skipBlanks ⟨0, n, cs⟩)

/-- A text can be continued with a space and rows of one's own, the first of which then continues
the row at its end. -/
theorem rowsFrom_continue {front : List Char} {above : List Row} {part : Row}
    (before : rowsFrom 1 front = above ++ [part]) {row : Row} {below : List Row}
    (words : ∀ r ∈ row :: below, ∀ t ∈ r, IsWord t.text)
    (numbered : Numbered (1 + front.count '\n') (row :: below)) :
    rowsFrom 1 (front ++ ' ' :: (textOf (row :: below)).toList) =
      above ++ (part ++ row) :: below := by
  refine rowsFrom_cut (fun x y _ hy => ?_) before ?_
  · cases hy
    exact ⟨fun _ => rfl, fun _ => by decide⟩
  · rw [rowsFrom_space]
    exact rowsFrom_textOf words numbered

/-- A text is a definition exactly if the rows that count follow the format. -/
theorem exists_read_iff {text : String} :
    (∃ l, Layout.read text = .ok l) ↔ FollowsFormat (significantRows text) := by
  constructor
  · intro h
    obtain ⟨l, read⟩ := h
    exact (layoutOf?_eq_some_iff.1 (Layout.read_eq_ok_iff.1 read)).1
  · intro shape
    obtain ⟨l, hl⟩ := exists_layoutOf? shape
    exact ⟨l, Layout.read_eq_ok_iff.2 hl⟩

/-- The end of the text is never awaited within a row. -/
theorem awaited_ne_endOfInput (place found : Nat) : awaited place found ≠ some .endOfInput := by
  intro h
  match place with
  | 0 | 1 | 2 => cases h
  | 3 | 4 =>
    have h : (if found = 0 then _ else none) = some Expected.endOfInput := h
    split at h <;> cases h
  | _ + 5 =>
    have among := List.mem_of_getElem? h
    exact absurd among (by decide)

theorem isWord_plainToken (n : Nat) : IsWord (plainToken n).text := by
  have word : IsWord "q" := (isWord_singleton (s := 'q')).2 rfl
  exact word

theorem Demanded.offset_le {text : List Char} {f : Failure} (h : Demanded text f) :
    f.offset ≤ text.length := by
  cases h with
  | token track => exact track.position.offset_le
  | endOfInput closing => exact closing.position.offset_le

/-- **Up to a demand a text is right.** If the end of the text is demanded, the text before is a
definition; otherwise it can be continued with any token that is demanded. -/
theorem Demanded.viable {text : List Char} {f : Failure} (h : Demanded text f) :
    (f.expected = .endOfInput ∧ ∃ l, Layout.read (String.ofList (text.take f.offset)) = .ok l) ∨
    (f.expected ≠ .endOfInput ∧ ∀ token, f.expected.Admits token → ∃ rest l,
      Layout.read (String.ofList (text.take f.offset) ++ " " ++ token ++ rest) = .ok l) := by
  cases h with
  | @endOfInput c above below part row t closing after =>
    refine .inl ⟨rfl, exists_read_iff.2 ?_⟩
    rw [significantRows, String.toList_ofList, closing.position.before, significant_append,
      Nat.zero_add]
    exact closing.follows
  | @token c above below part row e track begins next after refused =>
    have not_end : e ≠ .endOfInput := by
      rintro rfl
      exact awaited_ne_endOfInput _ _ next
    refine .inr ⟨not_end, fun token admitted => ?_⟩
    have fits : accepts e ⟨token, c.line⟩ = true := admitted.accepts c.line
    obtain ⟨filler, count, plain, follows⟩ := exists_completion track.fits begins next fits
    obtain ⟨rest, shown⟩ :=
      exists_textOf_eq ⟨token, c.line⟩ filler (plainRows (c.line + 1) count)
    have words : ∀ r ∈ (⟨token, c.line⟩ :: filler) :: plainRows (c.line + 1) count, ∀ t ∈ r,
        IsWord t.text := by
      refine List.forall_mem_cons.2 ⟨List.forall_mem_cons.2 ⟨admitted.1, fun t ht => ?_⟩,
        fun r hr t ht => ?_⟩
      · rw [plain t ht]
        exact isWord_plainToken _
      · obtain ⟨m, rfl⟩ := eq_of_mem_plainRows hr
        rw [List.mem_singleton.1 ht]
        exact isWord_plainToken _
    have numbered : Numbered (1 + (text.take c.offset).count '\n')
        ((⟨token, c.line⟩ :: filler) :: plainRows (c.line + 1) count) := by
      rw [← track.position.line_eq]
      refine ⟨List.forall_mem_cons.2 ⟨rfl, fun t ht => ?_⟩, numbered_plainRows _ _⟩
      rw [plain t ht]
      rfl
    have rows := rowsFrom_continue track.position.before words numbered
    refine ⟨String.ofList rest, exists_read_iff.2 ?_⟩
    have same : (String.ofList (text.take c.offset) ++ " " ++ token ++ String.ofList rest).toList =
        text.take c.offset ++ ' ' ::
          (textOf ((⟨token, c.line⟩ :: filler) :: plainRows (c.line + 1) count)).toList := by
      rw [shown]
      simp
    rw [significantRows, same, rows, significant_append, Nat.zero_add]
    exact follows

/-! ## Main result -/

/-- **A syntax error is never reported past the mistake.** A text of a permitted size that is no
definition is refused with the report of a position at which something was demanded, the farthest
of all. Nothing else was demanded there. If it was the end of the text, the text before the position
is a definition; otherwise the text before it, a space and any token that is admitted are the
beginning of one. -/
theorem load_error_viable {text : String} (small : text.utf8ByteSize ≤ sizeLimit)
    (rejected : ∀ l, Layout.read text ≠ .ok l) :
    ∃ failure ∈ (Layout.definition (.start text.toList)).failures,
      load text = .error (.layout (.ofFailure text.toList failure)) ∧
      failure.offset ≤ text.toList.length ∧
      (∀ f ∈ (Layout.definition (.start text.toList)).failures,
        f.offset ≤ failure.offset ∧ (f.offset = failure.offset → f = failure)) ∧
      ((failure.expected = .endOfInput ∧
          ∃ l, Layout.read (String.ofList (text.toList.take failure.offset)) = .ok l) ∨
        (failure.expected ≠ .endOfInput ∧ ∀ token, failure.expected.Admits token →
          ∃ rest l, Layout.read (String.ofList (text.toList.take failure.offset) ++ " " ++ token ++
            rest) = .ok l)) := by
  obtain ⟨failure, mem, farthest, -, read⟩ := Layout.read_eq_error rejected
  have demanded := (Layout.definition_meets text.toList).noted
  refine ⟨failure, mem, load_of_read_eq_error small read, (demanded failure mem).offset_le,
    fun f hf => ⟨farthest f hf, (demanded f hf).eq_of_offset (demanded failure mem)⟩,
    (demanded failure mem).viable⟩

/-- A transition whose last token is missing. -/
def lacksPush : String := "q\na\nZ\nq\nZ\nq a Z q\n"

/-- What `lacksPush` lacks is reported at the end of its last line, and with any token there the
text can be completed. -/
theorem load_error_viable_lacksPush :
    lacksPush.utf8ByteSize ≤ sizeLimit ∧ (∀ l, Layout.read lacksPush ≠ .ok l) ∧
      load lacksPush = .error (.layout ⟨6, 8, "q a Z q␊", .push⟩) ∧
      ∃ rest l, Layout.read ("q\na\nZ\nq\nZ\nq a Z q" ++ " " ++ "#" ++ rest) = .ok l := by
  have small : lacksPush.utf8ByteSize ≤ sizeLimit := by decide
  have refused : Layout.read lacksPush = .error ⟨6, 8, "q a Z q␊", .push⟩ := by decide +kernel
  have rejected : ∀ l, Layout.read lacksPush ≠ .ok l := fun l read => by
    rw [refused] at read
    cases read
  have failures : (Layout.definition (.start lacksPush.toList)).failures =
      [⟨1, .name⟩, ⟨3, .symbol⟩, ⟨5, .symbol⟩, ⟨17, .push⟩, ⟨10, .endOfInput⟩] := by decide +kernel
  obtain ⟨failure, mem, -, -, farthest, viable⟩ := load_error_viable small rejected
  rw [failures] at mem farthest
  have push_noted : (⟨17, .push⟩ : Failure) ∈
      [⟨1, .name⟩, ⟨3, .symbol⟩, ⟨5, .symbol⟩, ⟨17, .push⟩, ⟨10, .endOfInput⟩] := by decide
  have bound : ∀ f ∈ [⟨1, .name⟩, ⟨3, .symbol⟩, ⟨5, .symbol⟩, ⟨17, .push⟩, ⟨10, .endOfInput⟩],
      17 ≤ Failure.offset f → f = ⟨17, .push⟩ := by decide
  obtain rfl := bound failure mem (farthest _ push_noted).1
  refine ⟨small, rejected, load_of_read_eq_error small refused, ?_⟩
  rcases viable with ⟨same, -⟩ | ⟨-, viable⟩
  · cases same
  · exact viable "#" ⟨(isWord_singleton (s := '#')).2 rfl, fun same => by cases same⟩

end Pushdown.Definition
