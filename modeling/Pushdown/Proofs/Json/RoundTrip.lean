import Pushdown.Json.Format
import Pushdown.Proofs.Json.Texts

/-!
# Documents read back

A value of a shape is written as a document, and a document has two written forms. Both are read
back as the value if nothing follows but what may follow a value (`Shape.ReadsBack`). The two differ
only in the blanks before an item and before a closing bracket, which the reader passes over, so one
lemma on lists settles both (`Reader.list_joined`):

> `Shape.ReadsBack.list`: a list is read back if each of its items is;
> `Shape.ReadsBack.read_eq`: what is read back from its written forms is so from whole texts.
-/

namespace Pushdown.Json

/-! ## Blanks and numerals -/

theorem skipBlanks_append {gap : List Char} (h : ∀ c ∈ gap, isBlank c = true) (cs : List Char) :
    skipBlanks (gap ++ cs) = skipBlanks cs :=
  List.dropWhile_append_of_pos h

theorem skipBlanks_cons {c : Char} (h : isBlank c = false) (cs : List Char) :
    skipBlanks (c :: cs) = c :: cs :=
  List.dropWhile_cons_of_neg (by simp [h])

theorem isBlank_of_mem_newLine {depth : Nat} {c : Char} (h : c ∈ Document.newLine depth) :
    isBlank c = true := by
  rcases List.mem_cons.1 h with rfl | spaces
  · rfl
  · rw [List.eq_of_mem_replicate spaces]
    rfl

/-- Whether a numeral goes on with a character. -/
def continuesNumeral (c : Char) : Bool := c.isDigit || c == '.' || c == 'e' || c == 'E'

theorem continuesNumeral_of_isBlank {c : Char} (h : isBlank c = true) :
    continuesNumeral c = false := by
  simp only [isBlank, Bool.or_eq_true, beq_iff_eq] at h
  rcases h with ((rfl | rfl) | rfl) | rfl <;> rfl

/-! ## Where values start -/

/-- Whether a value may start with a character, also as an item of a list. -/
def IsValueStart (c : Char) : Prop := isBlank c = false ∧ c ≠ ']'

/-- Whether a text starts like a value. -/
def StartsValue (cs : List Char) : Prop := ∃ c more, cs = c :: more ∧ IsValueStart c

namespace Document

theorem startsValue_digits (n : Nat) : StartsValue (Nat.toDigits 10 n) := by
  cases digits : Nat.toDigits 10 n with
  | nil => exact absurd digits Nat.toDigits_ne_nil
  | cons c more =>
    have digit : c.isDigit = true :=
      Nat.isDigit_of_mem_toDigits (by decide) (by decide) (digits ▸ List.mem_cons_self ..)
    refine ⟨c, more, rfl, ?_, ?_⟩
    · cases blank : isBlank c with
      | false => rfl
      | true =>
        have other := continuesNumeral_of_isBlank blank
        simp [continuesNumeral, digit] at other
    · rintro rfl
      exact absurd digit (by decide)

theorem startsValue_compactChars (d : Document) : StartsValue d.compactChars := by
  cases d with
  | number n => exact startsValue_digits n
  | text s => exact ⟨_, _, rfl, rfl, by decide⟩
  | list items => exact ⟨_, _, rfl, rfl, by decide⟩
  | object members => exact ⟨_, _, rfl, rfl, by decide⟩

theorem startsValue_prettyChars (depth : Nat) (d : Document) :
    StartsValue (d.prettyChars depth) := by
  cases d with
  | number n => exact startsValue_digits n
  | text s => exact ⟨_, _, rfl, rfl, by decide⟩
  | list items => cases items <;> exact ⟨_, _, rfl, rfl, by decide⟩
  | object members => cases members <;> exact ⟨_, _, rfl, rfl, by decide⟩

/-! ## Items -/

/-- Written items with a comma between neighbours, and a gap before each. -/
def joined (gap : List Char) : List (List Char) → List Char
  | [] => []
  | w :: ws => gap ++ w ++ ws.flatMap fun w => ',' :: (gap ++ w)

theorem joined_cons_cons (gap w next : List Char) (ws : List (List Char)) :
    joined gap (w :: next :: ws) = gap ++ w ++ ',' :: joined gap (next :: ws) := rfl

theorem compactItems_eq (items : List Document) :
    compactItems items = joined [] (items.map compactChars) := by
  induction items with
  | nil => rfl
  | cons d items ih =>
    cases items with
    | nil => simp [compactItems, joined]
    | cons next more =>
      rw [List.map_cons, List.map_cons, joined_cons_cons, ← List.map_cons, ← ih]
      rfl

theorem prettyItems_eq (depth : Nat) (items : List Document) :
    prettyItems depth items = joined (newLine depth) (items.map (prettyChars depth)) := by
  induction items with
  | nil => rfl
  | cons d items ih =>
    cases items with
    | nil => simp [prettyItems, joined]
    | cons next more =>
      rw [List.map_cons, List.map_cons, joined_cons_cons, ← List.map_cons, ← ih]
      rfl

end Document

/-! ## Readers -/

/-- Whether a text may follow a value: it must not continue a numeral. -/
def FollowsValue (rest : List Char) : Prop :=
  ∀ c, rest.head? = some c → continuesNumeral c = false

theorem followsValue_cons {c : Char} (h : continuesNumeral c = false) (cs : List Char) :
    FollowsValue (c :: cs) := by
  intro d hd
  obtain rfl := Option.some.inj hd
  exact h

/-- Blanks may follow a value. -/
theorem followsValue_append {gap cs : List Char} (blank : ∀ c ∈ gap, isBlank c = true)
    (h : FollowsValue cs) : FollowsValue (gap ++ cs) := by
  cases gap with
  | nil => exact h
  | cons c gap =>
    exact followsValue_cons (continuesNumeral_of_isBlank (blank c (List.mem_cons_self ..))) _

/-! ### The next item -/

theorem nextItem_first {gap w : List Char} (blank : ∀ c ∈ gap, isBlank c = true)
    (start : StartsValue w) (rest : List Char) :
    nextItem true (gap ++ w ++ rest) = .ok (true, w ++ rest) := by
  obtain ⟨c, more, rfl, visible, item⟩ := start
  rw [List.append_assoc, nextItem, skipBlanks_append blank, List.cons_append,
    skipBlanks_cons visible]
  simp only [if_neg item, if_true]

theorem nextItem_comma {gap w : List Char} (blank : ∀ c ∈ gap, isBlank c = true)
    (start : StartsValue w) (rest : List Char) :
    nextItem false (',' :: (gap ++ w ++ rest)) = .ok (true, w ++ rest) := by
  obtain ⟨c, more, rfl, visible, item⟩ := start
  have comma : skipBlanks (',' :: (gap ++ c :: more ++ rest)) =
      ',' :: (gap ++ c :: more ++ rest) := skipBlanks_cons rfl _
  have after : skipBlanks (gap ++ c :: more ++ rest) = c :: (more ++ rest) := by
    rw [List.append_assoc, skipBlanks_append blank, List.cons_append, skipBlanks_cons visible]
  rw [nextItem, comma]
  dsimp only
  rw [after]
  simp [item]

theorem nextItem_bracket {gap : List Char} (blank : ∀ c ∈ gap, isBlank c = true) (first : Bool)
    (rest : List Char) : nextItem first (gap ++ ']' :: rest) = .ok (false, ']' :: rest) := by
  rw [nextItem, skipBlanks_append blank]
  rfl

theorem endList_bracket (rest : List Char) : endList (']' :: rest) = .ok ((), rest) := rfl

namespace Reader

variable {α : Type} {item : Reader α}

/-- A value is read from how it is written, whatever follows. -/
def Recovers (r : Reader α) (written : List Char) (a : α) : Prop :=
  ∀ rest, FollowsValue rest → r.run (written ++ rest) = .ok (a, rest)

/-- A text that is accepted is read from between its quotes. -/
theorem recovers_scalar {accept : Found → Except Mismatch α} {s : String} {a : α}
    (h : accept (.text s) = .ok a) : (scalar accept).Recovers (quoted s) a := by
  intro rest _
  have whole : quoted s ++ rest = '"' :: (s.toList.flatMap escaped ++ '"' :: rest) := by
    simp [quoted]
  have start : skipBlanks (quoted s ++ rest) = quoted s ++ rest := by
    rw [whole]
    exact skipBlanks_cons rfl _
  have read : found '"' (s.toList.flatMap escaped ++ '"' :: rest) = .ok (.text s, rest) := by
    simp [found, text_escaped]
  simp only [scalar]
  rw [start, whole]
  simp only [read, h]

/-! ### Lists -/

theorem itemsAfter_of_end {before : List α} {cs rest : List Char}
    (h : nextItem false cs = .ok (false, rest)) :
    itemsAfter item before cs = .ok (before.reverse, rest) := by
  rw [itemsAfter]
  split
  · next refused => cases h.symm.trans refused
  · next ended =>
    cases h.symm.trans ended
    rfl
  · next another => cases h.symm.trans another

theorem itemsAfter_of_next {before : List α} {a : α} {cs written rest : List Char}
    (h : nextItem false cs = .ok (true, written)) (read : item.run written = .ok (a, rest)) :
    itemsAfter item before cs = itemsAfter item (a :: before) rest := by
  rw [itemsAfter]
  split
  · next refused => cases h.symm.trans refused
  · next ended => cases h.symm.trans ended
  · next another =>
    cases h.symm.trans another
    split
    · next refused => cases read.symm.trans refused
    · next found =>
      cases read.symm.trans found
      rfl

variable {gap close : List Char}

/-- Written items, each with the value that is to be read from it. -/
def Items (item : Reader α) (pairs : List (List Char × α)) : Prop :=
  ∀ p ∈ pairs, StartsValue p.1 ∧ item.Recovers p.1 p.2

theorem continues_bracket : continuesNumeral ']' = false := rfl

/-- A comma or what closes the list follows an item. -/
theorem followsValue_items (blank' : ∀ c ∈ close, isBlank c = true) {closer : Char}
    (closes : continuesNumeral closer = false) (ws : List (List Char)) (rest : List Char) :
    FollowsValue (ws.flatMap (fun w => ',' :: (gap ++ w)) ++ (close ++ closer :: rest)) := by
  cases ws with
  | nil =>
    show FollowsValue (close ++ closer :: rest)
    exact followsValue_append blank' (followsValue_cons closes rest)
  | cons w ws => exact followsValue_cons rfl _

/-- The items after the first are read, each from after its comma. -/
theorem itemsAfter_joined (blank : ∀ c ∈ gap, isBlank c = true)
    (blank' : ∀ c ∈ close, isBlank c = true) {pairs : List (List Char × α)}
    (h : item.Items pairs) (before : List α) (rest : List Char) :
    itemsAfter item before
        ((pairs.map Prod.fst).flatMap (fun w => ',' :: (gap ++ w)) ++ (close ++ ']' :: rest)) =
      .ok (before.reverse ++ pairs.map Prod.snd, ']' :: rest) := by
  induction pairs generalizing before with
  | nil =>
    rw [List.map_nil, List.flatMap_nil, List.nil_append,
      itemsAfter_of_end (nextItem_bracket blank' false rest), List.map_nil, List.append_nil]
  | cons p pairs ih =>
    obtain ⟨⟨start, recovers⟩, others⟩ := List.forall_mem_cons.1 h
    obtain ⟨w, a⟩ := p
    rw [List.map_cons, List.flatMap_cons, List.append_assoc, List.cons_append,
      itemsAfter_of_next (nextItem_comma blank start _)
        (recovers _ (followsValue_items blank' continues_bracket _ rest)), ih others]
    simp

/-- A list is read from its items, with blanks before each and before the bracket that closes it. -/
theorem list_joined (blank : ∀ c ∈ gap, isBlank c = true)
    (blank' : ∀ c ∈ close, isBlank c = true) {pairs : List (List Char × α)}
    (h : item.Items pairs) :
    (list item).Recovers ('[' :: Document.joined gap (pairs.map Prod.fst) ++ close ++ [']'])
      (pairs.map Prod.snd) := by
  intro rest _
  have read : items item (Document.joined gap (pairs.map Prod.fst) ++ (close ++ ']' :: rest)) =
      .ok (pairs.map Prod.snd, ']' :: rest) := by
    cases pairs with
    | nil =>
      show items item (close ++ ']' :: rest) = _
      rw [items, nextItem_bracket blank' true rest]
      rfl
    | cons p pairs =>
      obtain ⟨⟨start, recovers⟩, others⟩ := List.forall_mem_cons.1 h
      rw [List.map_cons, Document.joined, List.append_assoc, items, nextItem_first blank start]
      simp only [recovers _ (followsValue_items blank' continues_bracket _ rest),
        itemsAfter_joined blank blank' others]
      rfl
  have whole : '[' :: Document.joined gap (pairs.map Prod.fst) ++ close ++ [']'] ++ rest =
      '[' :: (Document.joined gap (pairs.map Prod.fst) ++ (close ++ ']' :: rest)) := by
    simp
  have start : skipBlanks ('[' :: Document.joined gap (pairs.map Prod.fst) ++ close ++ [']'] ++
      rest) = '[' :: (Document.joined gap (pairs.map Prod.fst) ++ (close ++ ']' :: rest)) := by
    rw [whole]
    exact skipBlanks_cons rfl _
  simp only [list]
  rw [start]
  simp only [if_true, read, endList_bracket]
  rfl

end Reader

/-! ## Shapes -/

/-- A value of a shape is read back from both written forms, whatever follows that may. -/
def Shape.ReadsBack (s : Shape) (v : s.Value) : Prop :=
  s.reader.Recovers (s.write v).compactChars v ∧
    ∀ depth, s.reader.Recovers ((s.write v).prettyChars depth) v

namespace Shape

theorem readsBack_character (c : Char) : ReadsBack .character c := by
  have recovers : Reader.character.Recovers (quoted (String.singleton c)) c := by
    refine Reader.recovers_scalar ?_
    dsimp only
    rw [String.toList_singleton]
  exact ⟨recovers, fun _ => recovers⟩

/-- A list is read back if each of its items is. -/
theorem ReadsBack.list {item : Shape} {values : List item.Value}
    (h : ∀ v ∈ values, item.ReadsBack v) : ReadsBack (.list item) values := by
  -- the items in one of the two forms, each with its value
  have recovers (form : Document → List Char) (gap close : List Char)
      (blank : ∀ c ∈ gap, isBlank c = true) (blank' : ∀ c ∈ close, isBlank c = true)
      (each : ∀ v ∈ values, StartsValue (form (item.write v)) ∧
        item.reader.Recovers (form (item.write v)) v) :
      (Reader.list item.reader).Recovers
        ('[' :: Document.joined gap ((values.map item.write).map form) ++ close ++ [']'])
        values := by
    have items : item.reader.Items (values.map fun v => (form (item.write v), v)) :=
      List.forall_mem_map.2 each
    have listed := Reader.list_joined blank blank' items
    simpa only [List.map_map, Function.comp_def, List.map_id'] using listed
  refine ⟨?_, fun depth => ?_⟩
  · have compact := recovers Document.compactChars [] [] nofun nofun fun v hv =>
      ⟨Document.startsValue_compactChars _, (h v hv).1⟩
    rw [List.append_nil, ← Document.compactItems_eq] at compact
    exact compact
  · cases values with
    | nil => exact recovers (Document.prettyChars depth) [] [] nofun nofun nofun
    | cons v values =>
      have pretty := recovers (Document.prettyChars (depth + 1)) (Document.newLine (depth + 1))
        (Document.newLine depth) (fun _ => isBlank_of_mem_newLine) (fun _ => isBlank_of_mem_newLine)
        fun v hv => ⟨Document.startsValue_prettyChars _ _, (h v hv).2 _⟩
      rw [← Document.prettyItems_eq] at pretty
      exact pretty

/-- What is read back from its written forms is so from whole texts. -/
theorem ReadsBack.read_eq {s : Shape} {v : s.Value} (h : s.ReadsBack v) :
    s.read (s.write v).compact = .ok v ∧ s.read (s.write v).pretty = .ok v := by
  have whole {cs : List Char} (recovers : s.reader.Recovers cs v) :
      s.read (String.ofList cs) = .ok v := by
    have run := recovers [] nofun
    rw [List.append_nil] at run
    rw [Shape.read, String.toList_ofList, run]
    rfl
  exact ⟨whole h.1, whole (h.2 0)⟩

end Shape

/-- A value is read back from what its format writes if the value of the shape is. -/
theorem Format.read_write {α : Type} {f : Format α} {a : α}
    (h : f.shape.ReadsBack (f.toValue a)) :
    f.read (f.write a).compact = .ok a ∧ f.read (f.write a).pretty = .ok a := by
  obtain ⟨compact, pretty⟩ := h.read_eq
  unfold Format.read write
  rw [compact, pretty]
  simp only [f.ofValue_toValue, and_self]

end Pushdown.Json
