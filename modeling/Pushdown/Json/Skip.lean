import Pushdown.Json.Literal

/-!
# Passing over values

The value of a field that a record does not have is passed over, however deep it is. What is
open around the place that has been reached is a list of `Bracket`s, the innermost first.
`skipValue` alternates between the head of a value (`valueHead`), which is the whole of it
unless it opens a bracket, and what may follow a value (`settle`): closing brackets, then a
comma and perhaps a key.

A number that is passed over only has to look like one, and if the text ends inside it, it
does not look like one.
-/

namespace Pushdown.Json

/-- Whether a character may stand between any two tokens. -/
def isBlank (c : Char) : Bool := c == ' ' || c == '\n' || c == '\t' || c == '\r'

/-- Drops the blanks that come next. -/
def skipBlanks (cs : List Char) : List Char := cs.dropWhile isBlank

theorem skipBlanks_length_le (cs : List Char) : (skipBlanks cs).length ≤ cs.length :=
  (List.dropWhile_sublist _).length_le

/-! ## Numerals -/

/-- Passes over an exponent, from its sign on. -/
def skipExponent (cs : List Char) : Step Unit :=
  match (exponentSign cs).2 with
  | [] => stopAt (.malformed .badNumeral) []
  | c :: rest =>
    if c.isDigit then .ok ((), dropDigits rest) else stopPast (.malformed .badNumeral) (c :: rest)

/-- Passes over an exponent, if one follows. -/
def skipExponentNext (cs : List Char) : Step Unit :=
  match cs with
  | 'e' :: rest | 'E' :: rest => skipExponent rest
  | _ => .ok ((), cs)

/-- Passes over a fraction and an exponent, if they follow. -/
def skipFractionNext (cs : List Char) : Step Unit :=
  match cs with
  | '.' :: rest =>
    if digitNext rest then skipExponentNext (dropDigits rest)
    else stopPast (.malformed .badNumeral) rest
  | _ => skipExponentNext cs

/-- Passes over a numeral, from its first digit on. -/
def skipNumeral (cs : List Char) : Step Unit :=
  match cs with
  | [] => stopAt (.malformed .badNumeral) []
  | c :: rest =>
    if c = '0' then
      if digitNext rest then stopPast (.malformed .badNumeral) rest else skipFractionNext rest
    else if c.isDigit then skipFractionNext (dropDigits rest)
    else stopPast (.malformed .badNumeral) cs

theorem skipExponent_length_le {cs rest : List Char} (h : skipExponent cs = .ok ((), rest)) :
    rest.length ≤ cs.length := by
  have signless := exponentSign_length_le cs
  unfold skipExponent at h
  split at h
  · cases h
  · rename_i c more hc
    have := dropDigits_length_le more
    simp only [hc, List.length_cons] at signless
    split at h
    · cases h
      omega
    · cases h

theorem skipExponentNext_length_le {cs rest : List Char}
    (h : skipExponentNext cs = .ok ((), rest)) : rest.length ≤ cs.length := by
  unfold skipExponentNext at h
  split at h
  · exact Nat.le_succ_of_le (skipExponent_length_le h)
  · exact Nat.le_succ_of_le (skipExponent_length_le h)
  · cases h
    exact Nat.le_refl _

theorem skipFractionNext_length_le {cs rest : List Char}
    (h : skipFractionNext cs = .ok ((), rest)) : rest.length ≤ cs.length := by
  unfold skipFractionNext at h
  split at h
  · rename_i more
    have := dropDigits_length_le more
    split at h
    · have := skipExponentNext_length_le h
      simp only [List.length_cons]
      omega
    · cases h
  · exact skipExponentNext_length_le h

theorem skipNumeral_shortens {cs rest : List Char} (h : skipNumeral cs = .ok ((), rest)) :
    rest.length < cs.length := by
  unfold skipNumeral at h
  split at h
  · cases h
  · rename_i c more
    have := dropDigits_length_le more
    simp only [List.length_cons]
    split at h
    · split at h
      · cases h
      · have := skipFractionNext_length_le h
        omega
    · split at h
      · have := skipFractionNext_length_le h
        omega
      · cases h

/-! ## Values -/

/-- A step with another answer. -/
def Step.answering {α β : Type} (step : Step α) (answer : β) : Step β :=
  match step with
  | .error s => .error s
  | .ok (_, rest) => .ok (answer, rest)

theorem Step.ok_of_answering {α β : Type} {step : Step α} {answer b : β} {rest : List Char}
    (h : step.answering answer = .ok (b, rest)) : ∃ a, step = .ok (a, rest) := by
  unfold Step.answering at h
  split at h
  · cases h
  · rename_i a more
    simp only [Except.ok.injEq, Prod.mk.injEq] at h
    obtain ⟨-, rfl⟩ := h
    exact ⟨a, rfl⟩

/-- Something open. -/
inductive Bracket where
  | list
  | object
deriving DecidableEq

namespace Bracket

/-- What closes it. -/
def closer : Bracket → Char
  | list => ']'
  | object => '\x7d'

/-- What the text ends in the middle of, if it ends here. -/
def construct : Bracket → Construct
  | list => .list
  | object => .object

/-- What is wrong if neither a comma nor the closing bracket comes. -/
def missingComma : Bracket → Malformation
  | list => .missingCommaInList
  | object => .missingCommaInObject

end Bracket

/-- Passes over the head of a value, which is all of it unless it opens a bracket. -/
def valueHead (cs : List Char) : Step (Option Bracket) :=
  match skipBlanks cs with
  | [] => stopAt (.ended .value) []
  | c :: rest =>
    let whole (step : Step Unit) : Step (Option Bracket) := step.answering none
    if c = 'n' then whole (word ['u', 'l', 'l'] rest)
    else if c = 't' then whole (word ['r', 'u', 'e'] rest)
    else if c = 'f' then whole (word ['a', 'l', 's', 'e'] rest)
    else if c = '-' then whole (skipNumeral rest)
    else if c.isDigit then whole (skipNumeral (c :: rest))
    else if c = '"' then whole (skipText rest)
    else if c = '[' then .ok (some .list, rest)
    else if c = '\x7b' then .ok (some .object, rest)
    else stopPast (.malformed .missingValue) (c :: rest)

/-- Passes over a colon. -/
def skipColon (cs : List Char) : Step Unit :=
  match skipBlanks cs with
  | [] => stopAt (.ended .object) []
  | c :: rest => if c = ':' then .ok ((), rest) else stopPast (.malformed .missingColon) (c :: rest)

/-- Passes over a key and its colon, inside an object; inside a list there is none. -/
def skipKey (bracket : Bracket) (cs : List Char) : Step Unit :=
  match bracket with
  | .list => .ok ((), cs)
  | .object =>
    match skipBlanks cs with
    | [] => stopAt (.ended .object) []
    | c :: rest =>
      if c = '"' then
        match skipText rest with
        | .error s => .error s
        | .ok (_, rest) => skipColon rest
      else stopPast (.malformed .keyNotText) (c :: rest)

/-- Passes over what may follow, up to where the next value starts: closing brackets, a
comma, a key. Right after an opening bracket (`fresh`) there is no comma. What is still open
then is the answer. -/
def settle : (brackets : List Bracket) → (fresh : Bool) → List Char → Step (List Bracket)
  | [], _, cs => .ok ([], cs)
  | b :: outer, fresh, cs =>
    match skipBlanks cs with
    | [] => stopAt (.ended b.construct) []
    | c :: rest =>
      -- What this closes was a value of the bracket around it.
      if c = b.closer then settle outer false rest
      else if fresh then (skipKey b (c :: rest)).answering (b :: outer)
      else if c = ',' then (skipKey b rest).answering (b :: outer)
      else stopPast (.malformed b.missingComma) (c :: rest)

theorem valueHead_shortens {cs rest : List Char} {opened : Option Bracket}
    (h : valueHead cs = .ok (opened, rest)) : rest.length < cs.length := by
  have blanks := skipBlanks_length_le cs
  unfold valueHead at h
  split at h
  · cases h
  · rename_i c more hc
    simp only [hc, List.length_cons] at blanks
    dsimp only at h
    split at h
    · obtain ⟨_, hs⟩ := Step.ok_of_answering h
      have := word_length_le hs
      omega
    split at h
    · obtain ⟨_, hs⟩ := Step.ok_of_answering h
      have := word_length_le hs
      omega
    split at h
    · obtain ⟨_, hs⟩ := Step.ok_of_answering h
      have := word_length_le hs
      omega
    split at h
    · obtain ⟨_, hs⟩ := Step.ok_of_answering h
      have := skipNumeral_shortens hs
      omega
    split at h
    · obtain ⟨_, hs⟩ := Step.ok_of_answering h
      have := skipNumeral_shortens hs
      simp only [List.length_cons] at this
      omega
    split at h
    · obtain ⟨_, hs⟩ := Step.ok_of_answering h
      have := skipText_shortens hs
      omega
    split at h
    · simp only [Except.ok.injEq, Prod.mk.injEq] at h
      obtain ⟨-, rfl⟩ := h
      omega
    split at h
    · simp only [Except.ok.injEq, Prod.mk.injEq] at h
      obtain ⟨-, rfl⟩ := h
      omega
    cases h

theorem skipColon_shortens {cs rest : List Char} (h : skipColon cs = .ok ((), rest)) :
    rest.length < cs.length := by
  have blanks := skipBlanks_length_le cs
  unfold skipColon at h
  split at h
  · cases h
  · rename_i c more hc
    simp only [hc, List.length_cons] at blanks
    split at h
    · simp only [Except.ok.injEq, Prod.mk.injEq] at h
      obtain ⟨-, rfl⟩ := h
      omega
    · cases h

theorem skipKey_length_le {b : Bracket} {cs rest : List Char} (h : skipKey b cs = .ok ((), rest)) :
    rest.length ≤ cs.length := by
  have blanks := skipBlanks_length_le cs
  unfold skipKey at h
  split at h
  · cases h
    exact Nat.le_refl _
  · split at h
    · cases h
    · rename_i c more hc
      simp only [hc, List.length_cons] at blanks
      split at h
      · split at h
        · cases h
        · rename_i ht
          have := skipText_shortens ht
          have := skipColon_shortens h
          omega
      · cases h

theorem settle_length_le {brackets left : List Bracket} {fresh : Bool} {cs rest : List Char}
    (h : settle brackets fresh cs = .ok (left, rest)) : rest.length ≤ cs.length := by
  induction brackets generalizing fresh cs with
  | nil =>
    simp only [settle, Except.ok.injEq, Prod.mk.injEq] at h
    obtain ⟨-, rfl⟩ := h
    exact Nat.le_refl _
  | cons b outer ih =>
    have blanks := skipBlanks_length_le cs
    simp only [settle] at h
    split at h
    · cases h
    · rename_i c more hc
      simp only [hc, List.length_cons] at blanks
      split at h
      · have := ih h
        omega
      · split at h
        · obtain ⟨_, hs⟩ := Step.ok_of_answering h
          have := skipKey_length_le hs
          simp only [List.length_cons] at this
          omega
        · split at h
          · obtain ⟨_, hs⟩ := Step.ok_of_answering h
            have := skipKey_length_le hs
            omega
          · cases h

/-- Passes over what is open and the value that starts here. -/
def skipFrom (brackets : List Bracket) (cs : List Char) : Step Unit :=
  match _h : valueHead cs with
  | .error s => .error s
  | .ok (opened, rest) =>
    match _h' : settle (opened.toList ++ brackets) opened.isSome rest with
    | .error s => .error s
    | .ok ([], rest) => .ok ((), rest)
    | .ok (b :: outer, rest) => skipFrom (b :: outer) rest
termination_by cs.length
decreasing_by
  have := valueHead_shortens _h
  have := settle_length_le _h'
  omega

/-- Passes over a value. -/
def skipValue (cs : List Char) : Step Unit := skipFrom [] cs

theorem skipFrom_shortens {brackets : List Bracket} {cs rest : List Char}
    (h : skipFrom brackets cs = .ok ((), rest)) : rest.length < cs.length := by
  fun_induction skipFrom brackets cs with
  | case1 => cases h
  | case2 => cases h
  | case3 brackets cs opened more hv rest' hs =>
    have := valueHead_shortens hv
    have := settle_length_le hs
    cases h
    omega
  | case4 brackets cs opened more hv b outer rest' hs ih =>
    have := valueHead_shortens hv
    have := settle_length_le hs
    have := ih h
    omega

theorem skipValue_shortens {cs rest : List Char} (h : skipValue cs = .ok ((), rest)) :
    rest.length < cs.length :=
  skipFrom_shortens h

end Pushdown.Json
