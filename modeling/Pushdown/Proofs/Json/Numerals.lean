import Pushdown.Proofs.Json.RoundTrip

/-!
# Natural numbers read back

A natural number is written by its digits, without a zero before them. The reader gathers digits as
long as the number fits in 64 bits (`gather_digits`), and takes what follows for a fraction or an
exponent if it looks like one:

> `recovers_natural`: a number of 64 bits is read back, if nothing follows that continues it.
-/

namespace Pushdown.Json

/-- Further digits do not make a number smaller. -/
theorem le_ofDigitChars (n : Nat) (digits : List Char) : n ≤ Nat.ofDigitChars 10 digits n := by
  induction digits generalizing n with
  | nil => exact Nat.le_refl n
  | cons c digits ih =>
    rw [Nat.ofDigitChars_cons]
    exact Nat.le_trans (by omega) (ih _)

/-- Digits are gathered up to where they end, if their number is within the limit. -/
theorem gather_digits {limit n : Nat} {digits rest : List Char}
    (digit : ∀ c ∈ digits, c.isDigit = true) (fits : Nat.ofDigitChars 10 digits n ≤ limit)
    (stop : digitNext rest = false) :
    gather limit n (digits ++ rest) = (Nat.ofDigitChars 10 digits n, rest) := by
  induction digits generalizing n with
  | nil =>
    cases rest with
    | nil => rfl
    | cons c rest =>
      have other : c.isDigit = false := stop
      rw [List.nil_append, gather, other]
      rfl
  | cons c digits ih =>
    obtain ⟨first, others⟩ := List.forall_mem_cons.1 digit
    have value : Nat.ofDigitChars 10 (c :: digits) n =
        Nat.ofDigitChars 10 digits (10 * n + digitValue c) := Nat.ofDigitChars_cons
    rw [value] at fits ⊢
    have within : 10 * n + digitValue c ≤ limit := Nat.le_trans (le_ofDigitChars _ _) fits
    rw [List.cons_append, gather, first, decide_eq_true within]
    exact ih others fits

/-- The digits of a number start with a zero only if there is nothing else. -/
theorem exists_toDigits_eq_cons {n : Nat} (positive : 0 < n) :
    ∃ c more, Nat.toDigits 10 n = c :: more ∧ c ≠ '0' := by
  induction n using Nat.strongRecOn with
  | ind n ih =>
    rw [Nat.toDigits_eq_if (by decide)]
    split
    · next single =>
      have nonzero : ∀ d < 10, 0 < d → Nat.digitChar d ≠ '0' := by decide
      exact ⟨_, [], rfl, nonzero n single positive⟩
    · next many =>
      obtain ⟨c, more, digits, proper⟩ := ih (n / 10) (by omega) (by omega)
      exact ⟨c, more ++ [Nat.digitChar (n % 10)], by rw [digits]; rfl, proper⟩

/-- A numeral ends where nothing follows that continues it. -/
theorem fractionNext_of_followsValue {whole : List Char → Step Numeral} {isNegative : Bool}
    {digits : Nat} {power : Int} {rest : List Char} (h : FollowsValue rest) :
    fractionNext whole isNegative digits power rest = whole rest := by
  unfold fractionNext
  split
  · exact absurd (h '.' rfl) (by decide)
  · exact absurd (h 'e' rfl) (by decide)
  · exact absurd (h 'E' rfl) (by decide)
  · rfl

theorem digitNext_of_followsValue {rest : List Char} (h : FollowsValue rest) :
    digitNext rest = false := by
  cases rest with
  | nil => rfl
  | cons c rest =>
    have other := h c rfl
    simp only [continuesNumeral, Bool.or_eq_false_iff] at other
    exact other.1.1.1

/-- A natural number of 64 bits is read from its digits. -/
theorem numeral_toDigits {n : Nat} (fits : n ≤ greatestNatural) {rest : List Char}
    (h : FollowsValue rest) :
    numeral false (Nat.toDigits 10 n ++ rest) = .ok (.natural n, rest) := by
  have stop := digitNext_of_followsValue h
  rcases Nat.eq_zero_or_pos n with rfl | positive
  · show numeral false ('0' :: rest) = _
    rw [numeral, if_pos rfl, stop, if_neg Bool.false_ne_true, fractionNext_of_followsValue h]
    rfl
  · obtain ⟨c, more, digits, proper⟩ := exists_toDigits_eq_cons positive
    have digit : ∀ x ∈ c :: more, x.isDigit = true := fun x hx =>
      Nat.isDigit_of_mem_toDigits (by decide) (by decide) (digits ▸ hx)
    obtain ⟨first, others⟩ := List.forall_mem_cons.1 digit
    have value : Nat.ofDigitChars 10 more (digitValue c) = n := by
      have whole := Nat.ofDigitChars_ten_toDigits (n := n)
      rw [digits, Nat.ofDigitChars_cons, Nat.mul_zero, Nat.zero_add] at whole
      exact whole
    have gathered : gather greatestNatural (digitValue c) (more ++ rest) = (n, rest) := by
      rw [gather_digits others (value ▸ fits) stop, value]
    rw [digits, List.cons_append, numeral, if_neg proper, if_pos first]
    simp only [gathered, stop, Bool.false_eq_true, if_false, fractionNext_of_followsValue h]
    rfl

/-- What starts with a digit is a number. -/
theorem found_digit {c : Char} (digit : c.isDigit = true) {cs rest : List Char} {n : Numeral}
    (read : numeral false (c :: cs) = .ok (n, rest)) : found c cs = .ok (.numeral n, rest) := by
  have other {d : Char} (h : d.isDigit = false) : c ≠ d := by
    rintro rfl
    exact Bool.false_ne_true (h.symm.trans digit)
  rw [found, if_neg (other rfl), if_neg (other rfl), if_neg (other rfl), if_neg (other rfl),
    if_pos digit]
  simp only [read]

/-- A natural number of 64 bits is read back. -/
theorem recovers_natural {n : Nat} (fits : n ≤ greatestNatural) :
    Reader.natural.Recovers (Nat.toDigits 10 n) n := by
  intro rest h
  have read := numeral_toDigits fits h
  cases digits : Nat.toDigits 10 n with
  | nil => exact absurd digits Nat.toDigits_ne_nil
  | cons c more =>
    have digit : c.isDigit = true :=
      Nat.isDigit_of_mem_toDigits (by decide) (by decide) (digits ▸ List.mem_cons_self ..)
    have start : skipBlanks (c :: more ++ rest) = c :: (more ++ rest) := by
      obtain ⟨d, others, same, visible, -⟩ := Document.startsValue_digits n
      obtain ⟨rfl, rfl⟩ := List.cons.inj (digits.symm.trans same)
      exact skipBlanks_cons visible _
    rw [digits, List.cons_append] at read
    simp only [Reader.natural, Reader.scalar]
    rw [start]
    simp only [found_digit digit read]

end Pushdown.Json
