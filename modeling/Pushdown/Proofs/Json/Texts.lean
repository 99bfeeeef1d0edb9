import Pushdown.Json.Document
import Pushdown.Json.Literal

/-!
# Texts read back

A text is written between quotes, with an escape for every character that may not stand there
itself. The reader undoes this a character at a time (`textAfter_escaped`), whatever comes next.
-/

namespace Pushdown.Json

theorem hexValue?_hexDigit : ∀ d < 16, hexValue? (hexDigit d) = some d := by decide

/-- A control character is written by its number. -/
theorem escape_number {c : Char} (control : c < ' ') (rest : List Char) :
    escape ('u' :: '0' :: '0' :: hexDigit (c.toNat / 16) :: hexDigit (c.toNat % 16) :: rest) =
      .ok (c, rest) := by
  have small : c.toNat < 32 := control
  have number : hexFour? '0' '0' (hexDigit (c.toNat / 16)) (hexDigit (c.toNat % 16)) =
      some c.toNat := by
    have zero : hexValue? '0' = some 0 := rfl
    have high := hexValue?_hexDigit (c.toNat / 16) (by omega)
    have low := hexValue?_hexDigit (c.toNat % 16) (by omega)
    have sum : ((0 * 16 + 0) * 16 + c.toNat / 16) * 16 + c.toNat % 16 = c.toNat := by omega
    simp only [hexFour?, zero, high, low, Option.bind_eq_bind, Option.bind_some, sum]
    rfl
  have trailing : isTrailing c.toNat = false := by simp [isTrailing]; omega
  have leading : isLeading c.toNat = false := by simp [isLeading]; omega
  show numberedEscape _ = _
  rw [numberedEscape, hexDigits, number]
  simp only [trailing, leading, Bool.false_eq_true, if_false, Char.ofNat_toNat]

/-- What an escape stands for is read from it. -/
theorem textAfter_escape {c : Char} {cs rest : List Char} (h : escape cs = .ok (c, rest))
    (before : List Char) : textAfter before ('\\' :: cs) = textAfter (c :: before) rest := by
  rw [textAfter.eq_3]
  split
  · next refused => cases h.symm.trans refused
  · next read =>
    cases h.symm.trans read
    rfl

theorem escape_letter {c letter : Char} (h : letterEscape? letter = some c) (rest : List Char) :
    escape (letter :: rest) = .ok (c, rest) := by
  rw [escape]
  simp only [h]

/-- A character is read back from how it is written. -/
theorem textAfter_escaped (before : List Char) (c : Char) (rest : List Char) :
    textAfter before (escaped c ++ rest) = textAfter (c :: before) rest := by
  have by_letter {c letter : Char} (h : letterEscape? letter = some c) :
      textAfter before (['\\', letter] ++ rest) = textAfter (c :: before) rest :=
    textAfter_escape (escape_letter h rest) before
  unfold escaped
  split
  · next h => subst h; exact by_letter rfl
  split
  · next h => subst h; exact by_letter rfl
  split
  · next h => subst h; exact by_letter rfl
  split
  · next h => subst h; exact by_letter rfl
  split
  · next h => subst h; exact by_letter rfl
  split
  · next h => subst h; exact by_letter rfl
  split
  · next h => subst h; exact by_letter rfl
  split
  · next control => exact textAfter_escape (escape_number control rest) before
  · next not_quote not_backslash _ _ _ _ _ visible =>
    rw [List.singleton_append, textAfter.eq_4 before c rest not_quote not_backslash, if_neg visible]

/-- A text is read back from between its quotes. -/
theorem text_escaped (s : String) (rest : List Char) :
    text (s.toList.flatMap escaped ++ '"' :: rest) = .ok (s, rest) := by
  have after (cs before : List Char) : textAfter before (cs.flatMap escaped ++ '"' :: rest) =
      .ok (String.ofList (before.reverse ++ cs), rest) := by
    induction cs generalizing before with
    | nil => rw [List.flatMap_nil, List.nil_append, textAfter.eq_2, List.append_nil]
    | cons c cs ih =>
      rw [List.flatMap_cons, List.append_assoc, textAfter_escaped, ih, List.reverse_cons,
        List.append_assoc, List.singleton_append]
  rw [text, after, List.reverse_nil, List.nil_append, String.ofList_toList]

end Pushdown.Json
