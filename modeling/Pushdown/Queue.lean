/-!
# First-in, first-out queues

A queue is two lists: the front, oldest first, and the back, newest first. Its meaning is the one
list `Queue.toList`, oldest first; every operation is stated through that view, and nothing else
about the two halves is ever used.
-/

namespace Pushdown

/-- A first-in, first-out queue. -/
structure Queue (α : Type) where
  /-- The oldest elements, oldest first. -/
  front : List α
  /-- The newest elements, newest first. -/
  back : List α

namespace Queue

variable {α : Type}

/-- The elements, oldest first. -/
def toList (q : Queue α) : List α := q.front ++ q.back.reverse

/-- The queue of a list, oldest first. -/
def ofList (items : List α) : Queue α := ⟨items, []⟩

/-- Adds an element at the end. -/
def push (q : Queue α) (a : α) : Queue α := { q with back := a :: q.back }

/-- Adds the elements of a list at the end, in order. -/
def pushAll (q : Queue α) (items : List α) : Queue α := items.foldl push q

/-- Takes the oldest element. -/
def pop? (q : Queue α) : Option (α × Queue α) :=
  match q.front with
  | a :: front => some (a, { q with front })
  | [] =>
    match q.back.reverse with
    | a :: front => some (a, ⟨front, []⟩)
    | [] => none

@[simp] theorem toList_ofList (items : List α) : (ofList items).toList = items := by
  simp [ofList, toList]

@[simp] theorem toList_push (q : Queue α) (a : α) : (q.push a).toList = q.toList ++ [a] := by
  simp [push, toList]

@[simp] theorem toList_pushAll (q : Queue α) (items : List α) :
    (q.pushAll items).toList = q.toList ++ items := by
  induction items generalizing q with
  | nil => simp [pushAll]
  | cons a rest ih =>
    have := ih (q.push a)
    simp_all [pushAll]

/-- Taking from a queue takes the head of its list. -/
theorem toList_of_pop? {q q' : Queue α} {a : α} (h : q.pop? = some (a, q')) :
    q.toList = a :: q'.toList := by
  obtain ⟨front, back⟩ := q
  cases front with
  | cons b front =>
    simp only [pop?, Option.some.injEq, Prod.mk.injEq] at h
    obtain ⟨rfl, rfl⟩ := h
    simp [toList]
  | nil =>
    simp only [pop?] at h
    split at h
    · rename_i b front hb
      simp only [Option.some.injEq, Prod.mk.injEq] at h
      obtain ⟨rfl, rfl⟩ := h
      simp [toList, hb]
    · simp at h

/-- Nothing can be taken exactly when nothing is there. -/
theorem pop?_eq_none_iff {q : Queue α} : q.pop? = none ↔ q.toList = [] := by
  obtain ⟨front, back⟩ := q
  cases front with
  | cons b front => simp [pop?, toList]
  | nil =>
    simp only [pop?, toList, List.nil_append]
    split <;> simp_all

end Queue

end Pushdown
