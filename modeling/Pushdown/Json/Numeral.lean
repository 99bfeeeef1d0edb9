import Pushdown.Json.Fault

/-!
# Reading numerals

A numeral is a whole number, with a sign before it if it is below zero, and perhaps a
fraction and an exponent. Digits are gathered as long as their number fits in 64 bits; what
comes after is dropped, each dropped digit before the point counting as a power of ten. So
the value of a long numeral is near its number, and that of a whole number beyond 64 bits is
a fraction.

Every function here goes forward (`numeral_shortens`).
-/

namespace Pushdown.Json

/-- The outcome of a step that finds something at the head of a text and leaves the rest. -/
abbrev Step (α : Type) := Except Stop (α × List Char)

/-- Stops at what is left. -/
def stopAt {α : Type} (fault : Fault) (rest : List Char) : Except Stop α := .error ⟨fault, rest, 0⟩

/-- Stops just after the next byte. -/
def stopPast {α : Type} (fault : Fault) (rest : List Char) : Except Stop α :=
  .error ⟨fault, rest, 1⟩

/-- The greatest whole number. -/
def greatestNatural : Nat := Nat.pow 2 64 - 1

/-- The greatest magnitude of a whole number below zero. -/
def greatestNegative : Nat := Nat.pow 2 63

/-- The greatest exponent that is looked at in full. -/
def greatestExponent : Nat := Nat.pow 2 31 - 1

/-- The number that a digit stands for. -/
def digitValue (c : Char) : Nat := c.toNat - '0'.toNat

/-- Gathers digits after a number, as long as they make no number beyond a limit. -/
def gather (limit n : Nat) : List Char → Nat × List Char
  | [] => (n, [])
  | c :: rest =>
    if c.isDigit && 10 * n + digitValue c ≤ limit then gather limit (10 * n + digitValue c) rest
    else (n, c :: rest)

/-- Whether a digit comes next. -/
def digitNext (cs : List Char) : Bool := cs.head?.any Char.isDigit

/-- Drops the digits that come next. -/
def dropDigits (cs : List Char) : List Char := cs.dropWhile Char.isDigit

/-- A numeral with a fraction or an exponent, at its end. -/
def fractionOf (isNegative : Bool) (digits : Nat) (power : Int) (rest : List Char) : Step Numeral :=
  match Decimal.Binary.ofDigits digits power with
  | some magnitude => .ok (.fraction isNegative magnitude, rest)
  | none => stopAt (.malformed .hugeNumeral) rest

/-- The sign of an exponent, true for a minus. -/
def exponentSign : List Char → Bool × List Char
  | '+' :: rest => (false, rest)
  | '-' :: rest => (true, rest)
  | rest => (false, rest)

/-- A numeral from the sign of its exponent on. -/
def exponent (isNegative : Bool) (digits : Nat) (power : Int) (cs : List Char) : Step Numeral :=
  let (minus, signless) := exponentSign cs
  match signless with
  | [] => stopAt (.ended .value) []
  | c :: rest =>
    if c.isDigit then
      let (e, rest) := gather greatestExponent (digitValue c) rest
      -- An exponent that does not fit: the number is beyond all bounds, or next to nothing.
      if digitNext rest then
        if digits ≠ 0 && !minus then stopPast (.malformed .hugeNumeral) rest
        else .ok (.fraction isNegative .zero, dropDigits rest)
      else fractionOf isNegative digits (if minus then power - e else power + e) rest
    else stopPast (.malformed .badNumeral) (c :: rest)

/-- A numeral from the place on where an exponent may follow. -/
def exponentNext (isNegative : Bool) (digits : Nat) (power : Int) (cs : List Char) : Step Numeral :=
  match cs with
  | 'e' :: rest | 'E' :: rest => exponent isNegative digits power rest
  | _ => fractionOf isNegative digits power cs

/-- A numeral from its first decimal on. -/
def decimals (isNegative : Bool) (digits : Nat) (power : Int) (cs : List Char) : Step Numeral :=
  let (digits, rest) := gather greatestNatural digits cs
  let power := power - (cs.length - rest.length : Nat)
  -- Decimals that no longer fit are dropped, and the power of ten stays as it is.
  if digitNext rest then exponentNext isNegative digits power (dropDigits rest)
  else if rest.length = cs.length then
    match rest with
    | [] => stopAt (.ended .value) []
    | _ => stopPast (.malformed .badNumeral) rest
  else exponentNext isNegative digits power rest

/-- A numeral from the place on where its fraction or its exponent may follow, with the
value it has if neither does. -/
def fractionNext (whole : List Char → Step Numeral) (isNegative : Bool) (digits : Nat) (power : Int)
    (cs : List Char) : Step Numeral :=
  match cs with
  | '.' :: rest => decimals isNegative digits power rest
  | 'e' :: rest | 'E' :: rest => exponent isNegative digits power rest
  | _ => whole cs

/-- A whole number, at its end. -/
def wholeOf (isNegative : Bool) (n : Nat) (rest : List Char) : Step Numeral :=
  -- A whole number has no place for a zero below zero; that is a fraction.
  if !isNegative then .ok (.natural n, rest)
  else if n = 0 || greatestNegative < n then fractionOf true n 0 rest
  else .ok (.negative n, rest)

/-- A numeral from its first digit on. -/
def numeral (isNegative : Bool) (cs : List Char) : Step Numeral :=
  match cs with
  | [] => stopAt (.ended .value) []
  | c :: rest =>
    if c = '0' then
      if digitNext rest then stopPast (.malformed .badNumeral) rest
      else fractionNext (wholeOf isNegative 0) isNegative 0 0 rest
    else if c.isDigit then
      let (n, more) := gather greatestNatural (digitValue c) rest
      -- Digits that no longer fit count as powers of ten.
      if digitNext more then
        let power : Nat := more.length - (dropDigits more).length
        fractionNext (fractionOf isNegative n power) isNegative n power (dropDigits more)
      else fractionNext (wholeOf isNegative n) isNegative n 0 more
    else stopPast (.malformed .badNumeral) (c :: rest)

/-! ## Going forward -/

theorem gather_length_le (limit n : Nat) (cs : List Char) :
    (gather limit n cs).2.length ≤ cs.length := by
  induction cs generalizing n with
  | nil => simp [gather]
  | cons c rest ih =>
    simp only [gather]
    split
    · exact Nat.le_succ_of_le (ih _)
    · exact Nat.le_refl _

theorem dropDigits_length_le (cs : List Char) : (dropDigits cs).length ≤ cs.length :=
  (List.dropWhile_sublist _).length_le

theorem fractionOf_length_le {isNegative : Bool} {digits : Nat} {power : Int} {cs rest : List Char}
    {n : Numeral} (h : fractionOf isNegative digits power cs = .ok (n, rest)) :
    rest.length ≤ cs.length := by
  unfold fractionOf at h
  split at h
  · cases h
    exact Nat.le_refl _
  · cases h

theorem exponentSign_length_le (cs : List Char) : (exponentSign cs).2.length ≤ cs.length := by
  unfold exponentSign
  split <;> simp

theorem exponent_length_le {isNegative : Bool} {digits : Nat} {power : Int} {cs rest : List Char}
    {n : Numeral} (h : exponent isNegative digits power cs = .ok (n, rest)) :
    rest.length ≤ cs.length := by
  have signless := exponentSign_length_le cs
  unfold exponent at h
  dsimp only at h
  split at h
  · cases h
  · rename_i c more hc
    have gathered := gather_length_le greatestExponent (digitValue c) more
    have dropped := dropDigits_length_le (gather greatestExponent (digitValue c) more).2
    simp only [hc, List.length_cons] at signless
    split at h
    · split at h
      · split at h
        · cases h
        · cases h
          omega
      · have := fractionOf_length_le h
        omega
    · cases h

theorem exponentNext_length_le {isNegative : Bool} {digits : Nat} {power : Int}
    {cs rest : List Char} {n : Numeral} (h : exponentNext isNegative digits power cs = .ok (n, rest)) :
    rest.length ≤ cs.length := by
  unfold exponentNext at h
  split at h
  · exact Nat.le_succ_of_le (exponent_length_le h)
  · exact Nat.le_succ_of_le (exponent_length_le h)
  · exact fractionOf_length_le h

theorem decimals_length_le {isNegative : Bool} {digits : Nat} {power : Int} {cs rest : List Char}
    {n : Numeral} (h : decimals isNegative digits power cs = .ok (n, rest)) :
    rest.length ≤ cs.length := by
  have gathered := gather_length_le greatestNatural digits cs
  have dropped := dropDigits_length_le (gather greatestNatural digits cs).2
  unfold decimals at h
  dsimp only at h
  split at h
  · have := exponentNext_length_le h
    omega
  · split at h
    · split at h <;> cases h
    · have := exponentNext_length_le h
      omega

theorem fractionNext_length_le {whole : List Char → Step Numeral}
    (whole_le : ∀ {cs rest : List Char} {n : Numeral},
      whole cs = .ok (n, rest) → rest.length ≤ cs.length)
    {isNegative : Bool} {digits : Nat} {power : Int} {cs rest : List Char} {n : Numeral}
    (h : fractionNext whole isNegative digits power cs = .ok (n, rest)) :
    rest.length ≤ cs.length := by
  unfold fractionNext at h
  split at h
  · exact Nat.le_succ_of_le (decimals_length_le h)
  · exact Nat.le_succ_of_le (exponent_length_le h)
  · exact Nat.le_succ_of_le (exponent_length_le h)
  · exact whole_le h

theorem wholeOf_length_le {isNegative : Bool} {n : Nat} {cs rest : List Char} {m : Numeral}
    (h : wholeOf isNegative n cs = .ok (m, rest)) : rest.length ≤ cs.length := by
  unfold wholeOf at h
  split at h
  · cases h
    exact Nat.le_refl _
  · split at h
    · exact fractionOf_length_le h
    · cases h
      exact Nat.le_refl _

/-- A numeral takes up something of the text. -/
theorem numeral_shortens {isNegative : Bool} {cs rest : List Char} {n : Numeral}
    (h : numeral isNegative cs = .ok (n, rest)) : rest.length < cs.length := by
  unfold numeral at h
  split at h
  · cases h
  · rename_i c more
    have gathered := gather_length_le greatestNatural (digitValue c) more
    have dropped := dropDigits_length_le (gather greatestNatural (digitValue c) more).2
    simp only [List.length_cons]
    split at h
    · split at h
      · cases h
      · have := fractionNext_length_le wholeOf_length_le h
        omega
    · split at h
      · dsimp only at h
        split at h
        · have := fractionNext_length_le fractionOf_length_le h
          omega
        · have := fractionNext_length_le wholeOf_length_le h
          omega
      · cases h

end Pushdown.Json
