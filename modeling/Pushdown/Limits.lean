/-!
# Limits of a run

A search may go on for ever, so every run is given the number of configurations at which it
is given up. Limits that are read from a text or from the command line are numbers of one
machine word, below `UInt64.size`; here any number will do. What holds under all limits holds
under those, but that there are limits of some kind does not say that a word can hold them:
where it matters, statements say what there is below `UInt64.size`.
-/

namespace Pushdown

/-- What a run may use. -/
structure Limits where
  /-- The run fails once it has taken this many configurations. -/
  maxTransitions : Nat
deriving DecidableEq

namespace Limits

/-- The limit where none is given. -/
def standard : Limits := ⟨10000000⟩

instance : Inhabited Limits := ⟨standard⟩

end Limits

end Pushdown
