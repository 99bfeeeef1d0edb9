import Pushdown.Definition.Cursor
import Pushdown.Definition.Report
import Pushdown.Symbol

/-!
# The line format of definitions

A definition is a sequence of lines: the states, the input alphabet, the stack alphabet, the
initial state, the initial stack symbol, then one transition a line, which may end in a
comment. Lines that are blank or hold only a comment may stand anywhere. `Layout.read` finds
the tokens of a text by their places, or reports where the text departs from the format;
what the tokens mean is none of its business.

A reader of a part of the format is a function from a cursor to a `Reading`: what was found,
if anything, and the positions at which a token (or the end of the text) was demanded and not
found. Failures are noted also on the way to success, for they tell how far another reading of
the text came: a list of tokens ends where the next token fails, and a line that is no
transition is given back to the lines after the transitions. The report is of the farthest
failure of all. That a separator of lines is missing is never noted.

In the alphabets and in the symbols of a transition `#` is a token like any other. A comment
on a transition's line starts where its last token has ended.
-/

namespace Pushdown.Definition

/-- A token and the line it stands on. -/
structure Token where
  text : String
  line : Nat
deriving DecidableEq

/-- The symbol that a token is, if it is a single character. -/
def Token.symbol? (t : Token) : Option Symbol :=
  match t.text.toList with
  | [s] => some s
  | _ => none

/-- The five tokens of a transition. -/
structure TransitionLine where
  source : Token
  input : Token
  top : Token
  target : Token
  push : Token
deriving DecidableEq

/-- The tokens of a definition, by their places. -/
structure Layout where
  states : List Token
  inputSymbols : List Token
  stackSymbols : List Token
  initialState : Token
  initialSymbol : Token
  transitions : List TransitionLine
deriving DecidableEq

/-! ## Readings -/

/-- What a reader found, and the failures it met. -/
structure Reading (α : Type) where
  result : Option α
  failures : List Failure

namespace Reading

variable {α β : Type}

/-- A reading that found something without trying anything else. -/
def found (a : α) : Reading α := ⟨some a, []⟩

/-- A reading that found nothing and demanded nothing. -/
def missing : Reading α := ⟨none, []⟩

/-- A reading that demanded something in vain. -/
def failed (c : Cursor) (expected : Expected) : Reading α := ⟨none, [⟨c.offset, expected⟩]⟩

/-- Goes on from what was found. -/
def andThen (r : Reading α) (next : α → Reading β) : Reading β :=
  match r.result with
  | none => ⟨none, r.failures⟩
  | some a =>
    let s := next a
    ⟨s.result, r.failures ++ s.failures⟩

instance : Monad Reading where
  pure := found
  bind := andThen

theorem result_bind (r : Reading α) (next : α → Reading β) :
    (r >>= next).result = r.result.bind fun a => (next a).result := by
  show (andThen r next).result = _
  unfold andThen
  split <;> simp_all

theorem result_pure (a : α) : (pure a : Reading α).result = some a := rfl

end Reading

namespace Layout

/-- Which first characters a token has where something is expected: a name does not start
like a comment. -/
def admits : Expected → Char → Bool
  | .name => (· != '#')
  | _ => fun _ => true

/-- The token that starts at a cursor. -/
def token? (expected : Expected) (c : Cursor) : Option (Token × Cursor) :=
  match c.rest.takeWhile isGlyph with
  | [] => none
  | first :: more =>
    if admits expected first then
      some (⟨String.ofList (first :: more), c.line⟩, c.passOver isGlyph)
    else none

theorem token?_length_lt {expected : Expected} {c d : Cursor} {t : Token}
    (h : token? expected c = some (t, d)) : d.rest.length < c.rest.length := by
  unfold token? at h
  split at h
  · simp at h
  · rename_i first more run
    split at h <;> simp only [Option.some.injEq, Prod.mk.injEq, reduceCtorEq] at h
    obtain ⟨-, rfl⟩ := h
    have split_rest : c.rest.takeWhile isGlyph ++ c.rest.dropWhile isGlyph = c.rest :=
      List.takeWhile_append_dropWhile
    have := congrArg List.length split_rest
    simp only [List.length_append, run, List.length_cons] at this
    simp only [Cursor.passOver]
    omega

/-- One token. -/
def token (expected : Expected) (c : Cursor) : Reading (Token × Cursor) :=
  match token? expected c.skipBlanks with
  | some found => .found found
  | none => .failed c.skipBlanks expected

/-- As many tokens as there are on the line, after those found before. -/
def moreTokens (expected : Expected) (before : List Token) (c : Cursor) :
    Reading (List Token × Cursor) :=
  match _h : token? expected c.skipBlanks with
  | some (t, d) => moreTokens expected (t :: before) d
  | none => ⟨some (before.reverse, c), [⟨c.skipBlanks.offset, expected⟩]⟩
termination_by c.rest.length
decreasing_by
  have := token?_length_lt _h
  have := Cursor.skipBlanks_length_le c
  omega

/-- One token or more. -/
def tokens (expected : Expected) (c : Cursor) : Reading (List Token × Cursor) := do
  let (t, c) ← token expected c
  moreTokens expected [t] c

/-- The end of a line, and the empty lines after it. -/
def separator (c : Cursor) : Reading Cursor :=
  match c.skipBlanks.newline? with
  | some d => .found d.skipEmptyLines
  | none => .missing

/-- The end of a line, then a line with a transition. -/
def transitionLine (c : Cursor) : Reading (TransitionLine × Cursor) := do
  let c ← separator c
  let (source, c) ← token .name c
  let (input, c) ← token .symbol c
  let (top, c) ← token .symbol c
  let (target, c) ← token .name c
  let (push, c) ← token .push c
  return (⟨source, input, top, target, push⟩, c.skipBlanks.skipComment)

theorem token_length_lt {expected : Expected} {c d : Cursor} {t : Token}
    (h : (token expected c).result = some (t, d)) : d.rest.length < c.rest.length := by
  unfold token at h
  split at h
  · rename_i found hf
    cases h
    have := token?_length_lt hf
    have := Cursor.skipBlanks_length_le c
    omega
  · cases h

theorem separator_length_lt {c d : Cursor} (h : (separator c).result = some d) :
    d.rest.length < c.rest.length := by
  unfold separator at h
  split at h
  · rename_i e he
    cases h
    have := Cursor.newline?_length_lt he
    have := Cursor.skipBlanks_length_le c
    have := Cursor.skipEmptyLines_length_le e
    omega
  · cases h

theorem transitionLine_length_lt {c d : Cursor} {l : TransitionLine}
    (h : (transitionLine c).result = some (l, d)) : d.rest.length < c.rest.length := by
  simp only [transitionLine, Reading.result_bind, Option.bind_eq_some_iff, Reading.result_pure,
    Option.some.injEq, Prod.mk.injEq] at h
  obtain ⟨c₀, h₀, ⟨t₁, c₁⟩, h₁, ⟨t₂, c₂⟩, h₂, ⟨t₃, c₃⟩, h₃, ⟨t₄, c₄⟩, h₄, ⟨t₅, c₅⟩, h₅, -, rfl⟩ := h
  have := separator_length_lt h₀
  have := token_length_lt h₁
  have := token_length_lt h₂
  have := token_length_lt h₃
  have := token_length_lt h₄
  have := token_length_lt h₅
  have := Cursor.skipBlanks_length_le c₅
  have := Cursor.skipComment_length_le c₅.skipBlanks
  simp only at *
  omega

/-- As many transition lines as there are. A line that is none is not read. -/
def transitionLines (c : Cursor) : Reading (List TransitionLine × Cursor) :=
  match _h : transitionLine c with
  -- The cursor stays where the line before ended; what was tried beyond it is only noted.
  | ⟨none, failures⟩ => ⟨some ([], c), failures⟩
  | ⟨some (l, d), failures⟩ =>
    let others := transitionLines d
    ⟨others.result.map fun (ls, e) => (l :: ls, e), failures ++ others.failures⟩
termination_by c.rest.length
decreasing_by exact transitionLine_length_lt (congrArg Reading.result _h)

/-- The empty lines at the end of a definition; the last one needs no newline of its own. -/
def trailer (c : Cursor) : Cursor :=
  match _h : c.skipBlanks.newline? with
  | some d => trailer d.skipBlanks.skipComment
  | none => c
termination_by c.rest.length
decreasing_by
  have := Cursor.newline?_length_lt _h
  have := Cursor.skipBlanks_length_le c
  have := Cursor.skipBlanks_length_le d
  have := Cursor.skipComment_length_le d.skipBlanks
  omega

/-- The end of the text. -/
def endOfInput (c : Cursor) : Reading Unit :=
  if c.skipBlanks.rest.isEmpty then .found () else .failed c.skipBlanks .endOfInput

/-- A whole definition. -/
def definition (c : Cursor) : Reading Layout := do
  let (states, c) ← tokens .name c.skipEmptyLines
  let c ← separator c
  let (inputSymbols, c) ← tokens .symbol c
  let c ← separator c
  let (stackSymbols, c) ← tokens .symbol c
  let c ← separator c
  let (initialState, c) ← token .name c
  let c ← separator c
  let (initialSymbol, c) ← token .symbol c
  let (transitions, c) ← transitionLines c
  endOfInput (trailer c)
  return { states, inputSymbols, stackSymbols, initialState, initialSymbol, transitions }

/-- The tokens of a text by their places, or a report of where the text departs from the format. -/
def read (text : String) : Except Report Layout :=
  let reading := definition (.start text.toList)
  match reading.result with
  | some layout => .ok layout
  -- Whatever fails has failed to find some token before, so there is a failure to report.
  | none =>
    .error (.ofFailure text.toList ((Failure.farthest reading.failures).getD ⟨0, .endOfInput⟩))

end Layout

end Pushdown.Definition
