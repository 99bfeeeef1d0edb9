import Pushdown.Proofs.Transition.ByKey

/-!
# What additions make of a table

A table is filled by additions, whose keys come in any order (`Table.addAll`). None of them
replaces, loses or moves what is there:

> `outcomes_addAll`: what a table offers under a key grows by what is added under it, in order;
> `entries_addAll`: read as a whole, a table is what was added, sorted by key;
> `addAll_eq_iff`: how the keys took turns leaves no trace, so tables are the same if under every
> key the same was added;
> `contents_after_additions`: all this, with what a table says of its size; and a map from keys to
> growing lists answers the same after the same additions, and is equal to another when the tables
> are.

The second and the third follow from the first, since tables in the order of their keys are told
apart by what they offer (`eq_of_outcomes_eq`) and sorting does not move the entries of one key past
each other (`filter_mergeSort`).
-/

namespace Pushdown.Transition

/-- What a list of entries has under a key, first to last. -/
def addedUnder (key : Key) (added : List Entry) : List Outcome :=
  added.filterMap fun e => if e.key = key then some e.outcome else none

/-- `Table.MayPrecede` as a test, to sort by: whether the key of an entry is not after another's. -/
def notAfter (e f : Entry) : Bool := !f.key.before e.key

namespace Table

/-- The table after some additions, first to last. -/
def addAll (t : Table) (added : List Entry) : Table :=
  added.foldl (fun t e => t.add e.key e.outcome) t

variable {t : Table} {added : List Entry}

/-! ## Under one key -/

theorem ordered_addAll (h : t.Ordered) (added : List Entry) : (t.addAll added).Ordered := by
  induction added generalizing t with
  | nil => exact h
  | cons e added ih => exact ih (ordered_add h e.key e.outcome)

/-- Additions put their outcomes last under their keys, one after the other. -/
theorem outcomes_addAll (h : t.Ordered) (key : Key) (added : List Entry) :
    (t.addAll added).outcomes key = t.outcomes key ++ addedUnder key added := by
  induction added generalizing t with
  | nil => exact (List.append_nil _).symm
  | cons e added ih =>
    have later := ih (ordered_add h e.key e.outcome)
    rw [outcomes_add h, List.append_assoc] at later
    refine later.trans (congrArg (t.outcomes key ++ ·) ?_)
    by_cases same : e.key = key
    · simp [addedUnder, same]
    · simp [addedUnder, same]

theorem outcomes_addAll_empty (key : Key) (added : List Entry) :
    (empty.addAll added).outcomes key = addedUnder key added :=
  outcomes_addAll ordered_empty key added

theorem size_addAll (t : Table) (added : List Entry) :
    (t.addAll added).size = t.size + added.length := by
  induction added generalizing t with
  | nil => rfl
  | cons e added ih =>
    calc ((t.add e.key e.outcome).addAll added).size
        = (t.add e.key e.outcome).size + added.length := ih _
      _ = t.size + (e :: added).length := by
          rw [size_add, List.length_cons, Nat.add_right_comm, Nat.add_assoc]

theorem isEmpty_iff : t.isEmpty = true ↔ t.size = 0 := by
  rw [isEmpty, List.isEmpty_iff, size, List.length_eq_zero_iff]

/-! ## As a whole -/

theorem notAfter_iff {e f : Entry} : notAfter e f = true ↔ MayPrecede e f := by
  simp [notAfter, MayPrecede]

theorem notAfter_total (e f : Entry) : (notAfter e f || notAfter f e) = true := by
  rw [Bool.or_eq_true, notAfter_iff, notAfter_iff]
  by_cases h : f.key.before e.key = true
  · exact .inr (Key.before_asymm h)
  · exact .inl h

theorem notAfter_trans (e f g : Entry) (h : notAfter e f = true) (h' : notAfter f g = true) :
    notAfter e g = true := by
  rw [notAfter_iff] at *
  intro g_before
  -- as `g` is before `e`, so is `f`, be it before `g` itself or under the key of `g`
  by_cases f_before : f.key.before g.key = true
  · exact h (Key.before_trans f_before g_before)
  · exact h (Key.eq_of_not_before f_before h' ▸ g_before)

theorem pairwise_mergeSort (added : List Entry) :
    (added.mergeSort notAfter).Pairwise MayPrecede :=
  (List.pairwise_mergeSort notAfter_trans notAfter_total added).imp notAfter_iff.1

/-- Sorting by key does not move the entries of one key past each other. -/
theorem filter_mergeSort (key : Key) (added : List Entry) :
    (added.mergeSort notAfter).filter (·.key == key) = added.filter (·.key == key) := by
  have alike : (added.filter (·.key == key)).Pairwise fun e f => notAfter e f = true := by
    refine List.pairwise_of_forall_mem_list fun e he f hf => notAfter_iff.2 fun f_before => ?_
    have e_key : e.key = key := eq_of_beq (List.mem_filter.1 he).2
    have f_key : f.key = key := eq_of_beq (List.mem_filter.1 hf).2
    rw [e_key, f_key] at f_before
    exact Key.before_irrefl key f_before
  have kept := (List.sublist_mergeSort notAfter_trans notAfter_total alike
    List.filter_sublist).filter (·.key == key)
  rw [List.filter_filter] at kept
  simp only [Bool.and_self] at kept
  have lengths := ((List.mergeSort_perm added notAfter).filter (·.key == key)).length_eq
  exact (kept.eq_of_length lengths.symm).symm

/-- What a list of entries offers when it is taken for a table. -/
theorem outcomes_mk (key : Key) (added : List Entry) :
    outcomes ⟨added⟩ key = addedUnder key added := by
  induction added with
  | nil => rfl
  | cons e added ih =>
    rw [outcomes_cons, ih, addedUnder, addedUnder, List.filterMap_cons]
    by_cases same : e.key = key
    · rw [if_pos same, if_pos same]
    · rw [if_neg same, if_neg same]

theorem outcomes_mergeSort (key : Key) (added : List Entry) :
    outcomes ⟨added.mergeSort notAfter⟩ key = addedUnder key added := by
  rw [← outcomes_mk, outcomes, outcomes, filter_mergeSort]

/-- A table made by additions alone is what was added, sorted by key. -/
theorem entries_addAll (added : List Entry) :
    (empty.addAll added).entries = added.mergeSort notAfter := by
  have sorted : empty.addAll added = ⟨added.mergeSort notAfter⟩ := by
    refine eq_of_outcomes_eq (ordered_addAll ordered_empty added) (pairwise_mergeSort added)
      fun key => ?_
    rw [outcomes_addAll_empty, outcomes_mergeSort]
  rw [sorted]

/-- Tables made by additions alone are the same if under every key the same was added. -/
theorem addAll_eq_iff {other : List Entry} :
    empty.addAll added = empty.addAll other ↔
      ∀ key, addedUnder key added = addedUnder key other := by
  constructor
  · intro same key
    rw [← outcomes_addAll_empty, ← outcomes_addAll_empty, same]
  · intro same
    refine eq_of_outcomes_eq (ordered_addAll ordered_empty added) (ordered_addAll ordered_empty other)
      fun key => ?_
    rw [outcomes_addAll_empty, outcomes_addAll_empty, same]

end Table

/-! ## As a map -/

namespace ByKey

/-- The map after some additions, first to last. -/
def addAll (m : ByKey) (added : List Entry) : ByKey :=
  added.foldl (fun m e => m.add e.key e.outcome) m

theorem table_addAll (m : ByKey) (added : List Entry) :
    (m.addAll added).table = m.table.addAll added := by
  induction added generalizing m with
  | nil => rfl
  | cons e added ih =>
    calc ((m.add e.key e.outcome).addAll added).table
        = (m.add e.key e.outcome).table.addAll added := ih _
      _ = (m.table.add e.key e.outcome).addAll added := by rw [table_add]

theorem Filled.addAll {m : ByKey} (h : m.Filled) (added : List Entry) : (m.addAll added).Filled := by
  induction added generalizing m with
  | nil => exact h
  | cons e added ih => exact ih (h.add e.key e.outcome)

theorem table_addAll_empty (added : List Entry) :
    (addAll ∅ added).table = Table.empty.addAll added :=
  table_addAll ∅ added

/-- A map and a table that were filled by the same additions give the same answers. -/
theorem agrees_addAll (added : List Entry) :
    (addAll ∅ added).Agrees (Table.empty.addAll added) := by
  rw [← table_addAll_empty]
  exact (filled_empty.addAll added).agrees

theorem addAll_eq_iff {added other : List Entry} :
    addAll ∅ added = addAll ∅ other ↔ Table.empty.addAll added = Table.empty.addAll other := by
  rw [← table_addAll_empty, ← table_addAll_empty]
  exact ⟨congrArg table, eq_of_table_eq (filled_empty.addAll added) (filled_empty.addAll other)⟩

end ByKey

/-! ## The law of a table -/

namespace Table

/-- After any additions to the empty table, there is under each key what was added under it, in
order; the whole is what was added, sorted by key, with entries of one key in the order in which
they were added; it has one entry for each addition; something is offered under a key exactly when
there are outcomes under it, and the table is empty exactly when nothing was added. The map that the
same additions fill agrees with the table. Other additions lead to the same table, and to the same
map, exactly when they add the same under every key. -/
theorem contents_after_additions (added : List Entry) :
    let t := empty.addAll added
    let m := ByKey.addAll ∅ added
    (∀ key, t.outcomes key = addedUnder key added) ∧
    t.entries = added.mergeSort notAfter ∧
    t.size = added.length ∧
    (∀ key, t.offers key = true ↔ t.outcomes key ≠ []) ∧
    (t.isEmpty = true ↔ added = []) ∧
    m.Agrees t ∧
    ∀ other, (t = empty.addAll other ↔ ∀ key, addedUnder key added = addedUnder key other) ∧
      (m = ByKey.addAll ∅ other ↔ t = empty.addAll other) := by
  intro t m
  have size : t.size = added.length := (size_addAll empty added).trans (Nat.zero_add _)
  have isEmpty : t.isEmpty = true ↔ added = [] := by
    rw [isEmpty_iff, size, List.length_eq_zero_iff]
  exact ⟨fun key => outcomes_addAll_empty key added, entries_addAll added, size,
    fun _ => offers_iff, isEmpty, ByKey.agrees_addAll added,
    fun _ => ⟨addAll_eq_iff, ByKey.addAll_eq_iff⟩⟩

/-- A later key that is smaller comes first, and under one key nothing changes places. -/
example : (empty.addAll [⟨⟨'b', 'A'⟩, ⟨⟨0⟩, []⟩⟩, ⟨⟨'a', 'Z'⟩, ⟨⟨1⟩, ['A']⟩⟩,
      ⟨⟨'a', 'Z'⟩, ⟨⟨0⟩, []⟩⟩]).entries =
    [⟨⟨'a', 'Z'⟩, ⟨⟨1⟩, ['A']⟩⟩, ⟨⟨'a', 'Z'⟩, ⟨⟨0⟩, []⟩⟩, ⟨⟨'b', 'A'⟩, ⟨⟨0⟩, []⟩⟩] := by
  decide

end Table

end Pushdown.Transition
