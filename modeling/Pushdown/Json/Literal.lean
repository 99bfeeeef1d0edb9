import Pushdown.Json.Numeral

/-!
# Reading texts and words

A text stands between double quotes. Inside, a backslash starts an escape: one letter, or
`u` and four hexadecimal digits, of which two in a row may be needed for one character. A
text whose value is of no interest is only passed over, and then the digits of an escape
need not name a character (`skipText`).

`text_shortens`, `skipText_shortens` and `word_length_le` say that all this goes forward.
-/

namespace Pushdown.Json

/-- The number that a hexadecimal digit stands for. -/
def hexValue? (c : Char) : Option Nat :=
  if c.isDigit then some (c.toNat - '0'.toNat)
  else if 'a' ≤ c && c ≤ 'f' then some (c.toNat - 'a'.toNat + 10)
  else if 'A' ≤ c && c ≤ 'F' then some (c.toNat - 'A'.toNat + 10)
  else none

/-- The number that four hexadecimal digits stand for. -/
def hexFour? (a b c d : Char) : Option Nat := do
  return (((← hexValue? a) * 16 + (← hexValue? b)) * 16 + (← hexValue? c)) * 16 + (← hexValue? d)

/-- The four digits of an escape: so many bytes are looked at together. -/
def hexDigits (cs : List Char) : Step Nat :=
  match cs with
  | a :: b :: c :: d :: rest =>
    match hexFour? a b c d with
    | some n => .ok (n, rest)
    | none => .error ⟨.malformed .unknownEscape, cs, 4⟩
  -- Fewer than four characters may still be four bytes; then they are no digits.
  | _ =>
    if (String.ofList cs).utf8ByteSize < 4 then stopAt (.ended .text) []
    else .error ⟨.malformed .unknownEscape, cs, 4⟩

/-- Whether a number is the first half of a surrogate pair. -/
def isLeading (n : Nat) : Bool := 0xd800 ≤ n && n ≤ 0xdbff

/-- Whether a number is the second half of a surrogate pair. -/
def isTrailing (n : Nat) : Bool := 0xdc00 ≤ n && n ≤ 0xdfff

/-- The character of a surrogate pair. -/
def paired (leading trailing : Nat) : Char :=
  Char.ofNat ((leading - 0xd800) * 0x400 + (trailing - 0xdc00) + 0x10000)

/-- The second half of a surrogate pair, after the first. -/
def trailingHalf (leading : Nat) (cs : List Char) : Step Char :=
  match cs with
  | [] => stopAt (.ended .text) []
  | backslash :: more =>
    if backslash = '\\' then
      match more with
      | [] => stopAt (.ended .text) []
      | letter :: digits =>
        if letter = 'u' then
          match hexDigits digits with
          | .error s => .error s
          | .ok (n, rest) =>
            if isTrailing n then .ok (paired leading n, rest)
            else stopAt (.malformed .loneSurrogate) rest
        else stopPast (.malformed .unpairedEscape) more
    else stopPast (.malformed .unpairedEscape) cs

/-- The character that an escape by number stands for, from its digits on. -/
def numberedEscape (cs : List Char) : Step Char :=
  match hexDigits cs with
  | .error s => .error s
  | .ok (n, rest) =>
    if isTrailing n then stopAt (.malformed .loneSurrogate) rest
    else if isLeading n then trailingHalf n rest
    else .ok (Char.ofNat n, rest)

/-- The character that an escape by letter stands for. -/
def letterEscape? : Char → Option Char
  | '"' => some '"'
  | '\\' => some '\\'
  | '/' => some '/'
  | 'b' => some '\x08'
  | 'f' => some '\x0c'
  | 'n' => some '\n'
  | 'r' => some '\r'
  | 't' => some '\t'
  | _ => none

/-- The character that an escape stands for, from after its backslash on. -/
def escape (cs : List Char) : Step Char :=
  match cs with
  | [] => stopAt (.ended .text) []
  | c :: rest =>
    match letterEscape? c with
    | some e => .ok (e, rest)
    | none => if c = 'u' then numberedEscape rest else stopPast (.malformed .unknownEscape) cs

theorem hexDigits_shortens {cs rest : List Char} {n : Nat} (h : hexDigits cs = .ok (n, rest)) :
    rest.length < cs.length := by
  unfold hexDigits at h
  split at h
  · split at h
    · cases h
      simp only [List.length_cons]
      omega
    · cases h
  · split at h <;> cases h

theorem trailingHalf_shortens {leading : Nat} {cs rest : List Char} {c : Char}
    (h : trailingHalf leading cs = .ok (c, rest)) : rest.length < cs.length := by
  unfold trailingHalf at h
  split at h
  · cases h
  · split at h
    · split at h
      · cases h
      · split at h
        · split at h
          · cases h
          · rename_i hx
            have := hexDigits_shortens hx
            split at h
            · simp only [Except.ok.injEq, Prod.mk.injEq] at h
              obtain ⟨-, rfl⟩ := h
              simp only [List.length_cons]
              omega
            · cases h
        · cases h
    · cases h

theorem numberedEscape_shortens {cs rest : List Char} {c : Char}
    (h : numberedEscape cs = .ok (c, rest)) : rest.length < cs.length := by
  unfold numberedEscape at h
  split at h
  · cases h
  · rename_i hx
    have := hexDigits_shortens hx
    split at h
    · cases h
    · split at h
      · have := trailingHalf_shortens h
        omega
      · cases h
        omega

theorem escape_shortens {cs rest : List Char} {c : Char} (h : escape cs = .ok (c, rest)) :
    rest.length < cs.length := by
  unfold escape at h
  split at h
  · cases h
  · split at h
    · cases h
      simp
    · split at h
      · have := numberedEscape_shortens h
        simp only [List.length_cons]
        omega
      · cases h

/-- A text from after its opening quote on, when some of its characters have been read, the
latest first. -/
def textAfter (before : List Char) (cs : List Char) : Step String :=
  match cs with
  | [] => stopAt (.ended .text) []
  | '"' :: rest => .ok (String.ofList before.reverse, rest)
  | '\\' :: rest =>
    match _h : escape rest with
    | .error s => .error s
    | .ok (c, rest) => textAfter (c :: before) rest
  | c :: rest =>
    if c < ' ' then stopPast (.malformed .controlCharacter) (c :: rest)
    else textAfter (c :: before) rest
termination_by cs.length
decreasing_by
  · have := escape_shortens _h
    simp only [List.length_cons]
    omega
  · simp

/-- A text from after its opening quote on. -/
def text (cs : List Char) : Step String := textAfter [] cs

theorem textAfter_shortens {before cs rest : List Char} {s : String}
    (h : textAfter before cs = .ok (s, rest)) : rest.length < cs.length := by
  fun_induction textAfter before cs with
  | case1 before => cases h
  | case2 before more =>
    cases h
    simp
  | case3 before more s' he => cases h
  | case4 before more c more' he ih =>
    have := escape_shortens he
    have := ih h
    simp only [List.length_cons]
    omega
  | case5 before c more _ _ control => cases h
  | case6 before c more _ _ control ih =>
    have := ih h
    simp only [List.length_cons]
    omega

theorem text_shortens {cs rest : List Char} {s : String} (h : text cs = .ok (s, rest)) :
    rest.length < cs.length :=
  textAfter_shortens h

/-- Passes over an escape, from after its backslash on. -/
def skipEscape (cs : List Char) : Step Unit :=
  match cs with
  | [] => stopAt (.ended .text) []
  | c :: rest =>
    match letterEscape? c with
    | some _ => .ok ((), rest)
    | none =>
      if c = 'u' then
        match hexDigits rest with
        | .error s => .error s
        | .ok (_, rest) => .ok ((), rest)
      else stopPast (.malformed .unknownEscape) cs

theorem skipEscape_shortens {cs rest : List Char} (h : skipEscape cs = .ok ((), rest)) :
    rest.length < cs.length := by
  unfold skipEscape at h
  split at h
  · cases h
  · split at h
    · cases h
      simp
    · split at h
      · split at h
        · cases h
        · rename_i hx
          have := hexDigits_shortens hx
          cases h
          simp only [List.length_cons]
          omega
      · cases h

/-- Passes over a text, from after its opening quote on. -/
def skipText (cs : List Char) : Step Unit :=
  match cs with
  | [] => stopAt (.ended .text) []
  | '"' :: rest => .ok ((), rest)
  | '\\' :: rest =>
    match _h : skipEscape rest with
    | .error s => .error s
    | .ok (_, rest) => skipText rest
  | c :: rest =>
    if c < ' ' then stopAt (.malformed .controlCharacter) (c :: rest) else skipText rest
termination_by cs.length
decreasing_by
  · have := skipEscape_shortens _h
    simp only [List.length_cons]
    omega
  · simp

theorem skipText_shortens {cs rest : List Char} (h : skipText cs = .ok ((), rest)) :
    rest.length < cs.length := by
  fun_induction skipText cs with
  | case1 => cases h
  | case2 more =>
    cases h
    simp
  | case3 more s he => cases h
  | case4 more _ more' he ih =>
    have := skipEscape_shortens he
    have := ih h
    simp only [List.length_cons]
    omega
  | case5 c more _ _ control => cases h
  | case6 c more _ _ control ih =>
    have := ih h
    simp only [List.length_cons]
    omega

/-- The remaining letters of a word. -/
def word : (letters : List Char) → List Char → Step Unit
  | [], cs => .ok ((), cs)
  | _ :: _, [] => stopAt (.ended .value) []
  | l :: letters, c :: rest =>
    if c = l then word letters rest else stopPast (.malformed .unknownWord) (c :: rest)

theorem word_length_le {letters cs rest : List Char} (h : word letters cs = .ok ((), rest)) :
    rest.length ≤ cs.length := by
  induction letters generalizing cs with
  | nil =>
    cases h
    exact Nat.le_refl _
  | cons l letters ih =>
    cases cs with
    | nil => cases h
    | cons c more =>
      simp only [word] at h
      split at h
      · exact Nat.le_succ_of_le (ih h)
      · cases h

end Pushdown.Json
