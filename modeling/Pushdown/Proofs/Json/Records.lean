import Pushdown.Proofs.Json.Numerals

/-!
# Records read back

A record is written as an object with a member for each field, in order. Its members are read one by
one: the name of each says which field the value is for, and what has been read is kept in a slot
for each field. If no two fields have one name, all slots are filled in the end:

> `membersAfter_fields`: the members of some fields are read back, also as the last ones of a larger
> record (its earlier slots are what `keep` keeps);
> `Shape.ReadsBack.record`: a record is read back if the values of its fields are;
> `Shape.readsBack`: so every value is, if its numbers have 64 bits and the fields of each record
> have different names.
-/

namespace Pushdown.Json

/-! ## Members of objects -/

/-- A member as it is written, with a gap after its colon. -/
def member (gap : List Char) (form : Document → List Char) (m : String × Document) : List Char :=
  quoted m.1 ++ ':' :: (gap ++ form m.2)

namespace Document

theorem compactMembers_eq (members : List (String × Document)) :
    compactMembers members = joined [] (members.map (member [] compactChars)) := by
  induction members with
  | nil => rfl
  | cons m members ih =>
    cases members with
    | nil => simp [compactMembers, joined, member]
    | cons next more =>
      rw [List.map_cons, List.map_cons, joined_cons_cons, ← List.map_cons, ← ih]
      simp [compactMembers, member]

theorem prettyMembers_eq (depth : Nat) (members : List (String × Document)) :
    prettyMembers depth members =
      joined (newLine depth) (members.map (member [' '] (prettyChars depth))) := by
  induction members with
  | nil => rfl
  | cons m members ih =>
    cases members with
    | nil => simp [prettyMembers, joined, member]
    | cons next more =>
      rw [List.map_cons, List.map_cons, joined_cons_cons, ← List.map_cons, ← ih]
      simp [prettyMembers, member]

end Document

theorem continues_brace : continuesNumeral '\x7d' = false := rfl

/-! ## The next key -/

section

variable {gap : List Char} (blank : ∀ c ∈ gap, isBlank c = true)

include blank

theorem nextKey_first (name : String) (rest : List Char) :
    nextKey true (gap ++ quoted name ++ rest) = .ok (some name, rest) := by
  have quote : skipBlanks (gap ++ quoted name ++ rest) =
      '"' :: (name.toList.flatMap escaped ++ '"' :: rest) := by
    rw [List.append_assoc, skipBlanks_append blank]
    simp [quoted, skipBlanks_cons (show isBlank '"' = false from rfl)]
  rw [nextKey, quote]
  simp [text_escaped]

theorem nextKey_comma (name : String) (rest : List Char) :
    nextKey false (',' :: (gap ++ quoted name ++ rest)) = .ok (some name, rest) := by
  have comma : skipBlanks (',' :: (gap ++ quoted name ++ rest)) =
      ',' :: (gap ++ quoted name ++ rest) := skipBlanks_cons rfl _
  have quote : skipBlanks (gap ++ quoted name ++ rest) =
      '"' :: (name.toList.flatMap escaped ++ '"' :: rest) := by
    rw [List.append_assoc, skipBlanks_append blank]
    simp [quoted, skipBlanks_cons (show isBlank '"' = false from rfl)]
  rw [nextKey, comma]
  dsimp only
  rw [quote]
  simp [text_escaped]

theorem nextKey_bracket (first : Bool) (rest : List Char) :
    nextKey first (gap ++ '\x7d' :: rest) = .ok (none, '\x7d' :: rest) := by
  rw [nextKey, skipBlanks_append blank]
  rfl

end

namespace Reader

variable {α β σ τ : Type}

theorem map_map (f : α → β) (g : β → τ) (r : Reader α) : (r.map f).map g = r.map (g ∘ f) := by
  obtain ⟨run, forward⟩ := r
  simp only [map, mk.injEq]
  funext cs
  cases run cs <;> rfl

theorem map_id (r : Reader α) : r.map id = r := by
  obtain ⟨run, forward⟩ := r
  simp only [map, mk.injEq]
  funext cs
  cases run cs <;> rfl

theorem run_map {r : Reader α} {cs rest : List Char} {a : α} (h : r.run cs = .ok (a, rest))
    (f : α → β) : (r.map f).run cs = .ok (f a, rest) := by
  simp only [map, h]

theorem membersAfter_of_end {members : String → σ → Member σ} {first : Bool} {read : σ}
    {cs rest : List Char} (h : nextKey first cs = .ok (none, rest)) :
    membersAfter members first read cs = .ok (read, rest) := by
  rw [membersAfter]
  split
  · next refused => cases h.symm.trans refused
  · next ended =>
    cases h.symm.trans ended
    rfl
  · next another => cases h.symm.trans another

theorem membersAfter_of_next {members : String → σ → Member σ} {first : Bool} {read read' : σ}
    {key : String} {cs written rest : List Char} (h : nextKey first cs = .ok (some key, written))
    (found : (ofMember key read (members key read)).run written = .ok (read', rest)) :
    membersAfter members first read cs = membersAfter members false read' rest := by
  rw [membersAfter]
  split
  · next refused => cases h.symm.trans refused
  · next ended => cases h.symm.trans ended
  · next another =>
    cases h.symm.trans another
    split
    · next refused => cases found.symm.trans refused
    · next again =>
      cases found.symm.trans again
      rfl

end Reader

theorem Member.map_map {σ τ υ : Type} (f : σ → τ) (g : τ → υ) (m : Member σ) :
    (m.map f).map g = m.map (g ∘ f) := by
  cases m with
  | unknown => rfl
  | repeated => rfl
  | field value => exact congrArg Member.field (value.map_map f g)

theorem Member.map_id {σ : Type} (m : Member σ) : m.map id = m := by
  cases m with
  | unknown => rfl
  | repeated => rfl
  | field value => exact congrArg Member.field value.map_id

/-! ## Fields -/

/-- Blanks before a value are passed over. -/
theorem Shape.run_gap (s : Shape) {gap : List Char} (blank : ∀ c ∈ gap, isBlank c = true)
    (cs : List Char) : s.reader.run (gap ++ cs) = s.reader.run cs := by
  have scalar {α : Type} (accept : Found → Except Mismatch α) :
      (Reader.scalar accept).run (gap ++ cs) = (Reader.scalar accept).run cs := by
    simp only [Reader.scalar, skipBlanks_append blank]
  cases s with
  | natural fallback => exact scalar _
  | character => exact scalar _
  | text => exact scalar _
  | list item =>
    show (Reader.list item.reader).run (gap ++ cs) = (Reader.list item.reader).run cs
    simp only [Reader.list, skipBlanks_append blank]
  | record title fields => simp only [Shape.reader, Reader.record, skipBlanks_append blank]

namespace Fields

/-- The names of fields. -/
def names : Fields → List String
  | .done => []
  | .field name _ others => name :: others.names

/-- All values of some fields, as they have been read. -/
def filled : (fs : Fields) → fs.Values → fs.Slots
  | .done, () => ()
  | .field _ _ others, (value, rest) => (some value, others.filled rest)

theorem complete_filled : (fs : Fields) → (values : fs.Values) →
    fs.complete (fs.filled values) = .ok values
  | .done, () => rfl
  | .field _ _ others, (value, rest) => by
    simp only [complete, filled, Option.some_or, complete_filled others rest]

/-- Whether the value of each field is read back from one written form. -/
def Recovers (form : Document → List Char) : (fs : Fields) → fs.Values → Prop
  | .done, () => True
  | .field _ shape others, (value, rest) =>
    shape.reader.Recovers (form (shape.write value)) value ∧ others.Recovers form rest

end Fields

section

variable {σ : Type} {members : String → σ → Member σ} {form : Document → List Char}
  {gap space close : List Char} (blank : ∀ c ∈ gap, isBlank c = true)
  (blank_space : ∀ c ∈ space, isBlank c = true) (blank_close : ∀ c ∈ close, isBlank c = true)

include blank_space in
/-- A member is read after its name: its value goes to the field of that name. -/
theorem membersAfter_member {shape : Shape} {value : shape.Value}
    (recovers : shape.reader.Recovers (form (shape.write value)) value) {first : Bool} {read : σ}
    {keep : shape.Value → σ} {name : String} {cs rest : List Char}
    (known : members name read = .field (shape.reader.map keep))
    (key : nextKey first cs = .ok (some name, ':' :: (space ++ form (shape.write value)) ++ rest))
    (follows : FollowsValue rest) :
    Reader.membersAfter members first read cs =
      Reader.membersAfter members false (keep value) rest := by
  have colon : skipColon (':' :: (space ++ form (shape.write value)) ++ rest) =
      .ok ((), space ++ (form (shape.write value) ++ rest)) := by
    rw [List.cons_append, skipColon, skipBlanks_cons rfl, List.append_assoc]
    rfl
  have found : shape.reader.run (space ++ (form (shape.write value) ++ rest)) = .ok (value, rest) :=
    (shape.run_gap blank_space _).trans (recovers rest follows)
  refine Reader.membersAfter_of_next key ?_
  rw [known]
  simp only [Reader.ofMember, Reader.afterColon, colon]
  exact Reader.run_map found keep

/-- What is known of the first of some fields, and of the others once it has been read. -/
theorem member_cons {name : String} {shape : Shape} {others : Fields}
    {keep : (Fields.field name shape others).Slots → σ}
    (known : ∀ key ∈ (Fields.field name shape others).names, ∀ slots,
      members key (keep slots) = ((Fields.field name shape others).member key slots).map keep)
    (distinct : (Fields.field name shape others).names.Nodup) :
    (∀ rest, members name (keep (none, rest)) =
      .field (shape.reader.map fun value => keep (some value, rest))) ∧
    ∀ value, ∀ key ∈ others.names, ∀ slots,
      members key (keep (some value, slots)) =
        (others.member key slots).map fun slots => keep (some value, slots) := by
  obtain ⟨fresh, -⟩ := List.nodup_cons.1 distinct
  refine ⟨fun rest => ?_, fun value key mem slots => ?_⟩
  · rw [known name (List.mem_cons_self ..) (none, rest), Fields.member, if_pos rfl]
    exact congrArg Member.field (shape.reader.map_map _ _)
  · have other : key ≠ name := fun same => fresh (same ▸ mem)
    rw [known key (List.mem_cons_of_mem _ mem) (some value, slots), Fields.member, if_neg other]
    exact Member.map_map _ _ _

include blank blank_space blank_close

/-- The members of some fields are read from after a comma. They may be the last fields of a
record, whose other slots `keep` keeps. -/
theorem membersAfter_fields : (fs : Fields) → (values : fs.Values) → (keep : fs.Slots → σ) →
    (∀ key ∈ fs.names, ∀ slots, members key (keep slots) = (fs.member key slots).map keep) →
    fs.names.Nodup → fs.Recovers form values → (rest : List Char) →
    Reader.membersAfter members false (keep fs.unread)
        (((fs.write values).map (member space form)).flatMap (fun w => ',' :: (gap ++ w)) ++
          (close ++ '\x7d' :: rest)) =
      .ok (keep (fs.filled values), '\x7d' :: rest)
  | .done, (), _, _, _, _, rest =>
    Reader.membersAfter_of_end (nextKey_bracket blank_close false rest)
  | .field name shape others, (value, more), keep, known, distinct, ⟨first, recovers⟩, rest => by
    obtain ⟨here, later⟩ := member_cons known distinct
    have go_on := membersAfter_fields others more (fun slots => keep (some value, slots))
      (later value) (List.nodup_cons.1 distinct).2 recovers rest
    have written : ((Fields.write (.field name shape others) (value, more)).map
        (member space form)).flatMap (fun w => ',' :: (gap ++ w)) ++ (close ++ '\x7d' :: rest) =
        ',' :: (gap ++ quoted name ++ (':' :: (space ++ form (shape.write value)) ++
          (((others.write more).map (member space form)).flatMap (fun w => ',' :: (gap ++ w)) ++
            (close ++ '\x7d' :: rest)))) := by
      simp [Fields.write, member]
    rw [written]
    exact (membersAfter_member blank_space first (here others.unread) (nextKey_comma blank name _)
      (Reader.followsValue_items blank_close continues_brace _ rest)).trans go_on

/-- All members of a record are read. -/
theorem membersAfter_record (fs : Fields) (values : fs.Values) (distinct : fs.names.Nodup)
    (recovers : fs.Recovers form values) (rest : List Char) :
    Reader.membersAfter fs.member true fs.unread
        (Document.joined gap ((fs.write values).map (member space form)) ++
          (close ++ '\x7d' :: rest)) =
      .ok (fs.filled values, '\x7d' :: rest) := by
  have known : ∀ key ∈ fs.names, ∀ slots, fs.member key (id slots) = (fs.member key slots).map id :=
    fun key _ slots => (fs.member key slots).map_id.symm
  cases fs with
  | done => exact Reader.membersAfter_of_end (nextKey_bracket blank_close true rest)
  | field name shape others =>
    obtain ⟨value, more⟩ := values
    obtain ⟨first, recovers⟩ := recovers
    obtain ⟨here, later⟩ := member_cons known distinct
    have go_on := membersAfter_fields blank blank_space blank_close others more _ (later value)
      (List.nodup_cons.1 distinct).2 recovers rest
    have written : Document.joined gap ((Fields.write (.field name shape others) (value, more)).map
        (member space form)) ++ (close ++ '\x7d' :: rest) =
        gap ++ quoted name ++ (':' :: (space ++ form (shape.write value)) ++
          (((others.write more).map (member space form)).flatMap (fun w => ',' :: (gap ++ w)) ++
            (close ++ '\x7d' :: rest))) := by
      simp [Fields.write, member, Document.joined]
    rw [written]
    exact (membersAfter_member blank_space first (here others.unread) (nextKey_first blank name _)
      (Reader.followsValue_items blank_close continues_brace _ rest)).trans go_on

end

/-! ## Shapes -/

namespace Fields

/-- Whether the value of each field is read back. -/
def ReadsBack : (fs : Fields) → fs.Values → Prop
  | .done, () => True
  | .field _ shape others, (value, rest) => shape.ReadsBack value ∧ others.ReadsBack rest

theorem ReadsBack.compact : {fs : Fields} → {values : fs.Values} → fs.ReadsBack values →
    fs.Recovers Document.compactChars values
  | .done, (), _ => trivial
  | .field .., (_, _), h => ⟨h.1.1, ReadsBack.compact h.2⟩

theorem ReadsBack.pretty (depth : Nat) : {fs : Fields} → {values : fs.Values} →
    fs.ReadsBack values → fs.Recovers (Document.prettyChars depth) values
  | .done, (), _ => trivial
  | .field .., (_, _), h => ⟨h.1.2 depth, ReadsBack.pretty depth h.2⟩

end Fields

namespace Shape

/-- A record is read back if the values of its fields are. -/
theorem ReadsBack.record {title : String} {fields : Fields} {values : fields.Values}
    (distinct : fields.names.Nodup) (h : fields.ReadsBack values) :
    ReadsBack (.record title fields) values := by
  have recovers (form : Document → List Char) (gap space close : List Char)
      (blank : ∀ c ∈ gap, isBlank c = true) (blank_space : ∀ c ∈ space, isBlank c = true)
      (blank_close : ∀ c ∈ close, isBlank c = true) (each : fields.Recovers form values) :
      (Shape.record title fields).reader.Recovers
        ('\x7b' :: Document.joined gap ((fields.write values).map (member space form)) ++ close ++
          ['\x7d']) values := by
    intro rest _
    have read := membersAfter_record blank blank_space blank_close fields values distinct each rest
    have start : skipBlanks ('\x7b' :: Document.joined gap ((fields.write values).map
        (member space form)) ++ close ++ ['\x7d'] ++ rest) =
        '\x7b' :: (Document.joined gap ((fields.write values).map (member space form)) ++
          (close ++ '\x7d' :: rest)) := by
      rw [List.append_assoc, List.append_assoc]
      exact skipBlanks_cons rfl _
    have closed : endObject ('\x7d' :: rest) = .ok ((), rest) := rfl
    simp only [Shape.reader, Reader.record]
    rw [start]
    simp [read, closed, fields.complete_filled]
  have none : ∀ c ∈ ([] : List Char), isBlank c = true := List.forall_mem_nil _
  refine ⟨?_, fun depth => ?_⟩
  · have compact := recovers Document.compactChars [] [] [] none none none h.compact
    rw [List.append_nil, ← Document.compactMembers_eq] at compact
    exact compact
  · cases fields with
    | done => exact recovers (Document.prettyChars depth) [] [] [] none none none trivial
    | field name shape others =>
      have pretty := recovers (Document.prettyChars (depth + 1)) (Document.newLine (depth + 1))
        [' '] (Document.newLine depth) (fun _ => isBlank_of_mem_newLine)
        (List.forall_mem_singleton.2 rfl) (fun _ => isBlank_of_mem_newLine) (h.pretty _)
      rw [← Document.prettyMembers_eq] at pretty
      exact pretty

end Shape

mutual

/-- Whether the fields of every record of a shape have different names. -/
def Shape.Distinct : Shape → Prop
  | .natural _ => True
  | .character => True
  | .text => True
  | .list item => item.Distinct
  | .record _ fields => fields.names.Nodup ∧ fields.Distinct

/-- Whether the fields of every record among some fields have different names. -/
def Fields.Distinct : Fields → Prop
  | .done => True
  | .field _ shape others => shape.Distinct ∧ others.Distinct

end

mutual

/-- Whether the numbers of a value have 64 bits. -/
def Shape.Fits : (s : Shape) → s.Value → Prop
  | .natural _, (n : Nat) => n < UInt64.size
  | .character, _ => True
  | .text, _ => True
  | .list item, (values : List item.Value) => ∀ v ∈ values, item.Fits v
  | .record _ fields, values => fields.Fits values

/-- Whether the numbers of the values of some fields have 64 bits. -/
def Fields.Fits : (fs : Fields) → fs.Values → Prop
  | .done, () => True
  | .field _ shape others, (value, rest) => shape.Fits value ∧ others.Fits rest

end

mutual

/-- **Every value of a shape is read back**, if its numbers have 64 bits. -/
theorem Shape.readsBack : (s : Shape) → s.Distinct → (v : s.Value) → s.Fits v → s.ReadsBack v
  | .natural _, _, _, fits =>
    have recovers := recovers_natural (Nat.le_sub_one_of_lt fits)
    ⟨recovers, fun _ => recovers⟩
  | .character, _, c, _ => Shape.readsBack_character c
  | .text, _, s, _ =>
    have recovers : Reader.text.Recovers (quoted s) s := Reader.recovers_scalar rfl
    ⟨recovers, fun _ => recovers⟩
  | .list item, distinct, _, fits => .list fun v hv => item.readsBack distinct v (fits v hv)
  | .record _ fields, distinct, values, fits =>
    .record distinct.1 (fields.readsBack distinct.2 values fits)

/-- The values of fields are read back. -/
theorem Fields.readsBack : (fs : Fields) → fs.Distinct → (values : fs.Values) →
    fs.Fits values → fs.ReadsBack values
  | .done, _, (), _ => trivial
  | .field _ shape others, distinct, (value, rest), fits =>
    ⟨shape.readsBack distinct.1 value fits.1, others.readsBack distinct.2 rest fits.2⟩

end

end Pushdown.Json
