import Pushdown.Error

/-!
# The result of a run

A run ends with a verdict, and has counted the configurations that it took. It is accepted or
rejected, or it failed and there is no answer.
-/

namespace Pushdown

/-- The way a search ended. -/
inductive Verdict where
  | accepted
  | rejected
  | failed (error : Error)
deriving DecidableEq

/-- The result of a run. -/
structure Execution where
  verdict : Verdict
  /-- How many configurations were taken, the last one included. -/
  transitions : Nat
deriving DecidableEq

/-- The answer of an execution, if it has one. -/
def Execution.answer (e : Execution) : Except Error Bool :=
  match e.verdict with
  | .accepted => .ok true
  | .rejected => .ok false
  | .failed error => .error error

end Pushdown
