import Pushdown.Json.Skip

/-!
# Readers of values

A `Reader` reads a value of one kind at the head of a text, after any blanks, and comes with
the fact that it never goes back. The readers of lists and objects need no more than that to
end: a loop passes over a comma or a key each time.

A value that is refused as a whole, for a field that is missing or there twice, is refused
at the end of what could be read of it: its closing bracket is passed over first, if it
comes next (`passCloser`).
-/

namespace Pushdown.Json

/-- A reader of one kind of value. -/
structure Reader (α : Type) where
  /-- What is found at the head of a text, and what is left. -/
  run : List Char → Step α
  /-- What is left is no longer than the text. -/
  forward : ∀ {cs : List Char} {a : α} {rest : List Char},
    run cs = .ok (a, rest) → rest.length ≤ cs.length

namespace Reader

variable {α β σ : Type}

/-- Changes what is found. -/
def map (f : α → β) (r : Reader α) : Reader β where
  run cs :=
    match r.run cs with
    | .error s => .error s
    | .ok (a, rest) => .ok (f a, rest)
  forward h := by
    split at h
    · cases h
    · rename_i hr
      cases h
      exact r.forward hr

end Reader

/-! ## Scalars -/

/-- What value there is, from its first character on. A list or an object is not entered. -/
def found (c : Char) (rest : List Char) : Step Found :=
  if c = 'n' then (word ['u', 'l', 'l'] rest).answering .null
  else if c = 't' then (word ['r', 'u', 'e'] rest).answering (.boolean true)
  else if c = 'f' then (word ['a', 'l', 's', 'e'] rest).answering (.boolean false)
  else if c = '-' then
    match numeral true rest with
    | .error s => .error s
    | .ok (n, rest) => .ok (.numeral n, rest)
  else if c.isDigit then
    match numeral false (c :: rest) with
    | .error s => .error s
    | .ok (n, rest) => .ok (.numeral n, rest)
  else if c = '"' then
    match text rest with
    | .error s => .error s
    | .ok (s, rest) => .ok (.text s, rest)
  else if c = '[' then .ok (.list, c :: rest)
  else if c = '\x7b' then .ok (.object, c :: rest)
  else stopPast (.malformed .missingValue) (c :: rest)

theorem found_length_le {c : Char} {cs rest : List Char} {f : Found}
    (h : found c cs = .ok (f, rest)) : rest.length ≤ (c :: cs).length := by
  unfold found at h
  simp only [List.length_cons]
  split at h
  · obtain ⟨_, hs⟩ := Step.ok_of_answering h
    exact Nat.le_succ_of_le (word_length_le hs)
  split at h
  · obtain ⟨_, hs⟩ := Step.ok_of_answering h
    exact Nat.le_succ_of_le (word_length_le hs)
  split at h
  · obtain ⟨_, hs⟩ := Step.ok_of_answering h
    exact Nat.le_succ_of_le (word_length_le hs)
  split at h
  · split at h
    · cases h
    · rename_i hn
      cases h
      have := numeral_shortens hn
      omega
  split at h
  · split at h
    · cases h
    · rename_i hn
      cases h
      have := numeral_shortens hn
      simp only [List.length_cons] at this
      omega
  split at h
  · split at h
    · cases h
    · rename_i ht
      cases h
      have := text_shortens ht
      omega
  split at h
  · cases h
    exact Nat.le_refl _
  split at h
  · cases h
    exact Nat.le_refl _
  cases h

/-- Refuses the value that is there, since another kind is expected. -/
def unexpected {α : Type} (expected : String) (c : Char) (rest : List Char) : Except Stop α :=
  match found c rest with
  | .error s => .error s
  | .ok (f, rest) => stopAt (.mismatch (.kind f expected)) rest

namespace Reader

variable {α β σ : Type}

/-- The reader that accepts some values, and refuses all others. -/
def scalar (accept : Found → Except Mismatch α) : Reader α where
  run cs :=
    match skipBlanks cs with
    | [] => stopAt (.ended .value) []
    | c :: rest =>
      match found c rest with
      | .error s => .error s
      | .ok (f, rest) =>
        match accept f with
        | .error m => stopAt (.mismatch m) rest
        | .ok a => .ok (a, rest)
  forward {cs a rest} h := by
    have blanks := skipBlanks_length_le cs
    split at h
    · cases h
    · rename_i hc
      rw [hc] at blanks
      split at h
      · cases h
      · rename_i hf
        have := found_length_le hf
        split at h
        · cases h
        · cases h
          omega

/-- Accepts a natural number of 64 bits. -/
def natural : Reader Nat :=
  scalar fun
    | .numeral (.natural n) => .ok n
    | .numeral (.negative n) => .error (.value (.numeral (.negative n)) "usize")
    | f => .error (.kind f "usize")

/-- Accepts a text. -/
def text : Reader String :=
  scalar fun
    | .text s => .ok s
    | f => .error (.kind f "a string")

/-- Accepts a text of one character. -/
def character : Reader Char :=
  scalar fun
    | .text s =>
      match s.toList with
      | [c] => .ok c
      | _ => .error (.value (.text s) "a character")
    | f => .error (.kind f "a character")

end Reader

/-! ## Lists -/

/-- Looks whether there is another item in a list, and passes over the comma before it. -/
def nextItem (first : Bool) (cs : List Char) : Step Bool :=
  match skipBlanks cs with
  | [] => stopAt (.ended .list) []
  | c :: rest =>
    if c = ']' then .ok (false, c :: rest)
    else if first then .ok (true, c :: rest)
    else if c = ',' then
      match skipBlanks rest with
      | [] => stopAt (.ended .value) []
      | d :: more =>
        if d = ']' then stopPast (.malformed .trailingComma) (d :: more) else .ok (true, d :: more)
    else stopPast (.malformed .missingCommaInList) (c :: rest)

/-- Passes over the end of a list. -/
def endList (cs : List Char) : Step Unit :=
  match skipBlanks cs with
  | [] => stopAt (.ended .list) []
  | c :: rest =>
    if c = ']' then .ok ((), rest)
    -- A comma here follows the last field of a record.
    else if c = ',' then
      let after := skipBlanks rest
      if after.head? = some ']' then stopPast (.malformed .trailingComma) after
      else stopPast (.malformed .trailingCharacters) after
    else stopPast (.malformed .trailingCharacters) (c :: rest)

/-- What is left after a closing bracket, if that comes next. -/
def passCloser (closer : Char) (cs : List Char) : List Char :=
  match skipBlanks cs with
  | [] => []
  | c :: rest => if c = closer then rest else c :: rest

theorem nextItem_length_le {first : Bool} {cs rest : List Char} {another : Bool}
    (h : nextItem first cs = .ok (another, rest)) : rest.length ≤ cs.length := by
  have blanks := skipBlanks_length_le cs
  unfold nextItem at h
  split at h
  · cases h
  · rename_i c more hc
    rw [hc] at blanks
    split at h
    · cases h
      exact blanks
    split at h
    · cases h
      exact blanks
    split at h
    · have blanks' := skipBlanks_length_le more
      split at h
      · cases h
      · rename_i hd
        rw [hd] at blanks'
        simp only [List.length_cons] at blanks blanks'
        split at h
        · cases h
        · cases h
          simp only [List.length_cons]
          omega
    · cases h

/-- Another item than the first takes up at least its comma. -/
theorem nextItem_shortens {cs rest : List Char} (h : nextItem false cs = .ok (true, rest)) :
    rest.length < cs.length := by
  have blanks := skipBlanks_length_le cs
  unfold nextItem at h
  split at h
  · cases h
  · rename_i c more hc
    rw [hc] at blanks
    split at h
    · cases h
    split at h
    · contradiction
    split at h
    · have blanks' := skipBlanks_length_le more
      split at h
      · cases h
      · rename_i hd
        rw [hd] at blanks'
        simp only [List.length_cons] at blanks blanks'
        split at h
        · cases h
        · cases h
          simp only [List.length_cons]
          omega
    · cases h

theorem endList_length_le {cs rest : List Char} (h : endList cs = .ok ((), rest)) :
    rest.length ≤ cs.length := by
  have blanks := skipBlanks_length_le cs
  unfold endList at h
  split at h
  · cases h
  · rename_i c more hc
    rw [hc] at blanks
    simp only [List.length_cons] at blanks
    split at h
    · cases h
      omega
    · dsimp only at h
      repeat' split at h
      all_goals cases h

namespace Reader

variable {α β σ : Type}

/-- The items of a list after those that have been read, the latest of which comes first. -/
def itemsAfter (item : Reader α) (before : List α) (cs : List Char) : Step (List α) :=
  match _h : nextItem false cs with
  | .error s => .error s
  | .ok (false, rest) => .ok (before.reverse, rest)
  | .ok (true, rest) =>
    match _h' : item.run rest with
    | .error s => .error s
    | .ok (a, rest) => itemsAfter item (a :: before) rest
termination_by cs.length
decreasing_by
  have := nextItem_shortens _h
  have := item.forward _h'
  omega

/-- The items of a list, from after its opening bracket on. -/
def items (item : Reader α) (cs : List Char) : Step (List α) :=
  match nextItem true cs with
  | .error s => .error s
  | .ok (false, rest) => .ok ([], rest)
  | .ok (true, rest) =>
    match item.run rest with
    | .error s => .error s
    | .ok (a, rest) => itemsAfter item [a] rest

theorem itemsAfter_length_le {item : Reader α} {before found : List α} {cs rest : List Char}
    (h : itemsAfter item before cs = .ok (found, rest)) : rest.length ≤ cs.length := by
  fun_induction itemsAfter item before cs with
  | case1 => cases h
  | case2 before cs more hn =>
    cases h
    exact nextItem_length_le hn
  | case3 => cases h
  | case4 before cs more hn a more' hi ih =>
    have := nextItem_shortens hn
    have := item.forward hi
    have := ih h
    omega

/-- The reader of one value and then another. -/
def and (first : Reader α) (second : Reader β) : Reader (α × β) where
  run cs :=
    match first.run cs with
    | .error s => .error s
    | .ok (a, rest) =>
      match second.run rest with
      | .error s => .error s
      | .ok (b, rest) => .ok ((a, b), rest)
  forward h := by
    split at h
    · cases h
    · rename_i ha
      have := first.forward ha
      split at h
      · cases h
      · rename_i hb
        cases h
        have := second.forward hb
        omega

/-- The reader of one item of a list of fields. A list that ends before it is refused,
unless there is a value for that case. -/
def item (first : Bool) (fallback : Option α) (missing : Mismatch) (r : Reader α) : Reader α where
  run cs :=
    match nextItem first cs with
    | .error s => .error s
    | .ok (true, rest) => r.run rest
    | .ok (false, rest) =>
      match fallback with
      | some a => .ok (a, rest)
      | none => stopAt (.mismatch missing) (passCloser ']' rest)
  forward h := by
    split at h
    · cases h
    · rename_i hn
      have := nextItem_length_le hn
      have := r.forward h
      omega
    · rename_i hn
      have := nextItem_length_le hn
      split at h <;> cases h
      omega

/-- Accepts a list of values of one kind. -/
def list (item : Reader α) : Reader (List α) where
  run cs :=
    match skipBlanks cs with
    | [] => stopAt (.ended .value) []
    | c :: rest =>
      if c = '[' then
        match items item rest with
        | .error s => .error s
        | .ok (found, rest) => (endList rest).answering found
      else unexpected "a sequence" c rest
  forward {cs a rest} h := by
    have blanks := skipBlanks_length_le cs
    split at h
    · cases h
    · rename_i c more hc
      rw [hc] at blanks
      simp only [List.length_cons] at blanks
      split at h
      · split at h
        · cases h
        · rename_i hi
          obtain ⟨_, he⟩ := Step.ok_of_answering h
          have := endList_length_le he
          unfold items at hi
          split at hi
          · cases hi
          · rename_i hn
            have := nextItem_length_le hn
            cases hi
            omega
          · rename_i hn
            have := nextItem_length_le hn
            split at hi
            · cases hi
            · rename_i hr
              have := item.forward hr
              have := itemsAfter_length_le hi
              omega
      · unfold unexpected at h
        split at h <;> cases h

end Reader

/-! ## Objects -/

/-- Reads the next key of an object, if there is one, with the comma before it. -/
def nextKey (first : Bool) (cs : List Char) : Step (Option String) :=
  match skipBlanks cs with
  | [] => stopAt (.ended .object) []
  | c :: rest =>
    let key (quote : Char) (rest : List Char) : Step (Option String) :=
      if quote = '"' then
        match text rest with
        | .error s => .error s
        | .ok (s, rest) => .ok (some s, rest)
      else stopPast (.malformed .keyNotText) (quote :: rest)
    if c = '\x7d' then .ok (none, c :: rest)
    else if first then key c rest
    else if c = ',' then
      match skipBlanks rest with
      | [] => stopAt (.ended .value) []
      | d :: more =>
        if d = '\x7d' then stopPast (.malformed .trailingComma) (d :: more) else key d more
    else stopPast (.malformed .missingCommaInObject) (c :: rest)

/-- Passes over the end of an object. -/
def endObject (cs : List Char) : Step Unit :=
  match skipBlanks cs with
  | [] => stopAt (.ended .object) []
  | c :: rest =>
    if c = '\x7d' then .ok ((), rest)
    else if c = ',' then stopPast (.malformed .trailingComma) (c :: rest)
    else stopPast (.malformed .trailingCharacters) (c :: rest)

theorem nextKey_length_le {first : Bool} {cs rest : List Char} {key : Option String}
    (h : nextKey first cs = .ok (key, rest)) :
    rest.length + (if key.isSome then 1 else 0) ≤ cs.length := by
  have blanks := skipBlanks_length_le cs
  unfold nextKey at h
  split at h
  · cases h
  · rename_i c more hc
    rw [hc] at blanks
    simp only [List.length_cons] at blanks
    dsimp only at h
    split at h
    · cases h
      simpa using blanks
    split at h
    · split at h
      · split at h
        · cases h
        · rename_i ht
          have := text_shortens ht
          cases h
          simp only [Option.isSome_some, ↓reduceIte]
          omega
      · cases h
    split at h
    · have blanks' := skipBlanks_length_le more
      split at h
      · cases h
      · rename_i hd
        rw [hd] at blanks'
        simp only [List.length_cons] at blanks'
        split at h
        · cases h
        split at h
        · split at h
          · cases h
          · rename_i ht
            have := text_shortens ht
            cases h
            simp only [Option.isSome_some, ↓reduceIte]
            omega
        · cases h
    · cases h

theorem endObject_length_le {cs rest : List Char} (h : endObject cs = .ok ((), rest)) :
    rest.length ≤ cs.length := by
  have blanks := skipBlanks_length_le cs
  unfold endObject at h
  split at h
  · cases h
  · rename_i c more hc
    rw [hc] at blanks
    simp only [List.length_cons] at blanks
    split at h
    · cases h
      omega
    · split at h <;> cases h

/-- What a key is to a record that has been read in part. -/
inductive Member (σ : Type) where
  /-- No field has this name. -/
  | unknown
  /-- The field of this name has been read before. -/
  | repeated
  /-- The field of this name is to be read. -/
  | field (value : Reader σ)

/-- Changes what is read with a member. -/
def Member.map {σ τ : Type} (f : σ → τ) : Member σ → Member τ
  | unknown => .unknown
  | repeated => .repeated
  | field value => .field (value.map f)

namespace Reader

variable {α β σ : Type}

/-- The reader that passes over any value. -/
def anything (a : α) : Reader α where
  run cs := (skipValue cs).answering a
  forward h := by
    obtain ⟨_, hs⟩ := Step.ok_of_answering h
    exact Nat.le_of_lt (skipValue_shortens hs)

/-- The reader of a value after a colon. -/
def afterColon (value : Reader α) : Reader α where
  run cs :=
    match skipColon cs with
    | .error s => .error s
    | .ok (_, rest) => value.run rest
  forward h := by
    split at h
    · cases h
    · rename_i hc
      have := skipColon_shortens hc
      have := value.forward h
      omega

/-- The reader of the value of a key. -/
def ofMember (key : String) (read : σ) : Member σ → Reader σ
  | .unknown => (anything read).afterColon
  | .repeated =>
    { run := fun cs => stopAt (.mismatch (.duplicateField key)) (passCloser '\x7d' cs)
      forward := fun h => by cases h }
  | .field value => value.afterColon

/-- The members of an object from here on, when some have been read. -/
def membersAfter (member : String → σ → Member σ) (first : Bool) (read : σ) (cs : List Char) :
    Step σ :=
  match _h : nextKey first cs with
  | .error s => .error s
  | .ok (none, rest) => .ok (read, rest)
  | .ok (some key, rest) =>
    match _h' : (ofMember key read (member key read)).run rest with
    | .error s => .error s
    | .ok (read, rest) => membersAfter member false read rest
termination_by cs.length
decreasing_by
  have := nextKey_length_le _h
  have := (ofMember key _ _).forward _h'
  simp only [Option.isSome_some, ↓reduceIte] at *
  omega

theorem membersAfter_length_le {member : String → σ → Member σ} {first : Bool} {read found : σ}
    {cs rest : List Char} (h : membersAfter member first read cs = .ok (found, rest)) :
    rest.length ≤ cs.length := by
  fun_induction membersAfter member first read cs with
  | case1 => cases h
  | case2 first read cs more hn =>
    cases h
    exact Nat.le_trans (Nat.le_add_right ..) (nextKey_length_le hn)
  | case3 => cases h
  | case4 first read cs key more hn read' more' hm ih =>
    have := nextKey_length_le hn
    have := (ofMember key _ _).forward hm
    have := ih h
    omega

/-- How a record is read. -/
structure Record (σ α : Type) where
  /-- What messages call it. -/
  title : String
  /-- What has been read of an object before its first member. -/
  start : σ
  /-- What a key is to an object that has been read in part. -/
  member : String → σ → Member σ
  /-- What an object is, once all its members have been read. -/
  complete : σ → Except Mismatch α
  /-- The reader of a list of the fields. -/
  inOrder : Reader α

/-- Accepts a record: an object with its fields by name, or a list of them in order. -/
def record (r : Record σ α) : Reader α where
  run cs :=
    match skipBlanks cs with
    | [] => stopAt (.ended .value) []
    | c :: rest =>
      if c = '[' then
        match r.inOrder.run rest with
        | .error s => .error s
        | .ok (found, rest) => (endList rest).answering found
      else if c = '\x7b' then
        match membersAfter r.member true r.start rest with
        | .error s => .error s
        | .ok (read, rest) =>
          match endObject rest with
          | .error s => .error s
          | .ok (_, rest) =>
            match r.complete read with
            | .error m => stopAt (.mismatch m) rest
            | .ok a => .ok (a, rest)
      else unexpected ("struct " ++ r.title) c rest
  forward {cs a rest} h := by
    have blanks := skipBlanks_length_le cs
    split at h
    · cases h
    · rename_i c more hc
      rw [hc] at blanks
      simp only [List.length_cons] at blanks
      split at h
      · split at h
        · cases h
        · rename_i hi
          obtain ⟨_, he⟩ := Step.ok_of_answering h
          have := endList_length_le he
          have := r.inOrder.forward hi
          omega
      split at h
      · split at h
        · cases h
        · rename_i hm
          have := membersAfter_length_le hm
          split at h
          · cases h
          · rename_i he
            have := endObject_length_le he
            split at h
            · cases h
            · cases h
              omega
      · unfold unexpected at h
        split at h <;> cases h

end Reader

end Pushdown.Json
