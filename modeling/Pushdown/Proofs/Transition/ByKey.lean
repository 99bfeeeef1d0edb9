import Pushdown.Proofs.Transition.Table
import Mathlib.Algebra.GroupWithZero.Nat
import Std.Data.ExtTreeMap.Lemmas

/-!
# Tables as sorted maps

What a state offers may also be kept as a map from keys to lists of outcomes, where an addition
looks up its key and puts the outcome at the end of the list found there (`ByKey.add`). A table is
such a map written out, key after key (`ByKey.table`), and the two are worked on alike:

> `table_add`: an addition to a map makes of its table what an addition to the table makes;
> `Filled.agrees`: a map and its table give the same answers;
> `eq_of_table_eq`: maps that differ have tables that differ.

A map could hold an empty list under a key, of which a table knows nothing, so for the last two
none may be empty (`ByKey.Filled`). Additions keep it so, as `filled_empty` and `Filled.add` say.
-/

namespace Pushdown.Transition

/-! ## Keys in their order -/

instance : LT Key := ⟨fun k l => k.before l = true⟩

instance : DecidableLT Key := fun k l => inferInstanceAs (Decidable (k.before l = true))

instance : Ord Key := ⟨fun k l => compareOfLessAndEq k l⟩

namespace Key

theorem lt_iff (k l : Key) : k < l ↔ ¬ l < k ∧ k ≠ l := by
  constructor
  · intro lt
    exact ⟨before_asymm lt, fun same => before_irrefl l (same ▸ lt)⟩
  · intro h
    obtain ⟨not_after, other⟩ := h
    exact Decidable.not_not.1 fun not_before => other (eq_of_not_before not_before not_after)

instance : Std.TransOrd Key :=
  Std.TransOrd.compareOfLessAndEq_of_lt_trans_of_lt_iff before_trans lt_iff

theorem compare_def (k l : Key) :
    compare k l = if k < l then .lt else if k = l then .eq else .gt := rfl

theorem before_of_compare_eq_lt {k l : Key} (h : compare k l = .lt) : k.before l = true := by
  rw [compare_def] at h
  split at h
  · assumption
  · split at h
    · cases h
    · cases h

instance : Std.LawfulEqOrd Key where
  eq_of_compare {k l} h := by
    rw [compare_def] at h
    split at h
    · cases h
    · split at h
      · assumption
      · cases h

end Key

/-! ## Maps from keys to outcomes -/

/-- What a state offers, by key. -/
abbrev ByKey := Std.ExtTreeMap Key (List Outcome)

namespace ByKey

/-- One more outcome under a key, after those that are there. -/
def add (m : ByKey) (key : Key) (o : Outcome) : ByKey :=
  m.alter key fun found => some (found.getD [] ++ [o])

/-- The entries of a map, key after key. -/
def entries (m : ByKey) : List Entry := m.toList.flatMap fun under => under.2.map (Entry.mk under.1)

/-- A map written out. -/
def table (m : ByKey) : Table := ⟨m.entries⟩

variable {m m' : ByKey}

theorem getElem?_add (m : ByKey) (key l : Key) (o : Outcome) :
    (m.add key o)[l]? = if key = l then some (m[key]?.getD [] ++ [o]) else m[l]? := by
  rw [add, Std.ExtTreeMap.getElem?_alter]
  by_cases h : key = l
  · rw [if_pos h, if_pos (Std.compare_eq_iff_eq.2 h)]
  · rw [if_neg h, if_neg fun same => h (Std.compare_eq_iff_eq.1 same)]

theorem ordered_table (m : ByKey) : m.table.Ordered := by
  refine List.pairwise_flatMap.2 ⟨fun under _ => ?_, ?_⟩
  · refine List.pairwise_map.2 (List.pairwise_of_forall_mem_list fun o _ o' _ => ?_)
    exact Key.before_irrefl under.1
  · refine m.ordered_keys_toList.imp fun {under later} lt e he f hf => ?_
    obtain ⟨o, -, rfl⟩ := List.mem_map.1 he
    obtain ⟨o', -, rfl⟩ := List.mem_map.1 hf
    exact Key.before_asymm (Key.before_of_compare_eq_lt lt)

/-- The outcomes under a key among entries that all have one key. -/
theorem outcomes_map_mk (k key : Key) (os : List Outcome) :
    ((os.map (Entry.mk k)).filter (·.key == key)).map (·.outcome) = if k = key then os else [] := by
  rw [List.filter_map, List.map_map]
  by_cases h : k = key
  · simp [h, Function.comp_def]
  · simp [h, Function.comp_def]

/-- A key that is found stands at one place of the list, with only other keys around it. -/
theorem exists_toList_eq {key : Key} {os : List Outcome} (found : m[key]? = some os) :
    ∃ before after, m.toList = before ++ (key, os) :: after ∧
      (∀ under ∈ before, under.1 ≠ key) ∧ ∀ under ∈ after, under.1 ≠ key := by
  obtain ⟨before, after, list⟩ :=
    List.append_of_mem (Std.ExtTreeMap.mem_toList_iff_getElem?_eq_some.2 found)
  have ordered := m.ordered_keys_toList
  rw [list, List.pairwise_append, List.pairwise_cons] at ordered
  obtain ⟨-, ⟨above, -⟩, below⟩ := ordered
  refine ⟨before, after, list, fun under mem same => ?_, fun under mem same => ?_⟩
  · have lt : under.1.before key = true :=
      Key.before_of_compare_eq_lt (below under mem (key, os) (List.mem_cons_self ..))
    exact Key.before_irrefl key (same ▸ lt)
  · have lt : key.before under.1 = true := Key.before_of_compare_eq_lt (above under mem)
    exact Key.before_irrefl key (same ▸ lt)

theorem outcomes_table (m : ByKey) (key : Key) : m.table.outcomes key = m[key]?.getD [] := by
  have by_list : m.table.outcomes key =
      m.toList.flatMap fun under => if under.1 = key then under.2 else [] := by
    simp only [Table.outcomes, table, entries, List.filter_flatMap, List.map_flatMap,
      outcomes_map_mk]
  have nothing (unders : List (Key × List Outcome)) (h : ∀ under ∈ unders, under.1 ≠ key) :
      unders.flatMap (fun under => if under.1 = key then under.2 else []) = [] :=
    List.flatMap_eq_nil_iff.2 fun under mem => if_neg (h under mem)
  rw [by_list]
  cases found : m[key]? with
  | none =>
    refine nothing _ fun under mem same => ?_
    have there := Std.ExtTreeMap.mem_toList_iff_getElem?_eq_some.1 mem
    rw [same, found] at there
    cases there
  | some os =>
    obtain ⟨before, after, list, others, others'⟩ := exists_toList_eq found
    rw [list, List.flatMap_append, List.flatMap_cons, nothing before others, nothing after others',
      if_pos rfl, List.nil_append, List.append_nil, Option.getD_some]

/-- An addition to a map is an addition to its table. -/
theorem table_add (m : ByKey) (key : Key) (o : Outcome) :
    (m.add key o).table = m.table.add key o := by
  refine Table.eq_of_outcomes_eq (ordered_table _) (Table.ordered_add (ordered_table m) key o)
    fun l => ?_
  rw [Table.outcomes_add (ordered_table m), outcomes_table, outcomes_table, getElem?_add]
  by_cases same : key = l
  · rw [if_pos same, if_pos same, same, Option.getD_some]
  · rw [if_neg same, if_neg same, List.append_nil]

/-! ## Maps without empty lists -/

/-- Whether something is offered under every key of a map. -/
def Filled (m : ByKey) : Prop := ∀ (key : Key) (os : List Outcome), m[key]? = some os → os ≠ []

theorem filled_empty : Filled ∅ := by
  intro key os found
  rw [Std.ExtTreeMap.getElem?_empty] at found
  cases found

theorem Filled.add (h : m.Filled) (key : Key) (o : Outcome) : (m.add key o).Filled := by
  intro l os found
  rw [getElem?_add] at found
  split at found
  · cases found
    exact List.append_ne_nil_of_right_ne_nil _ (List.cons_ne_nil _ _)
  · exact h l os found

/-- What is found in such a map can be told from what its table offers. -/
theorem Filled.getElem?_eq (h : m.Filled) (key : Key) :
    m[key]? = if m.table.outcomes key = [] then none else some (m.table.outcomes key) := by
  rw [outcomes_table]
  cases found : m[key]? with
  | none => rfl
  | some os => exact (if_neg (h key os found)).symm

theorem eq_of_table_eq (h : m.Filled) (h' : m'.Filled) (same : m.table = m'.table) : m = m' := by
  refine Std.ExtTreeMap.ext_getElem? fun key => ?_
  rw [h.getElem?_eq, h'.getElem?_eq, same]

/-- Whether what is asked of a table can be answered from a map. -/
structure Agrees (m : ByKey) (t : Table) : Prop where
  /-- The table lists what the map has, key after key. -/
  entries_eq : t.entries = m.entries
  /-- What the table offers under a key is what is found there, if anything is. -/
  outcomes_eq : ∀ key, t.outcomes key = m[key]?.getD []
  /-- Something is offered under a key when a list that is not empty is found there. -/
  offers_eq : ∀ key, t.offers key = m[key]?.any (!·.isEmpty)
  /-- The size is that of all lists together. -/
  size_eq : t.size = (m.toList.map (·.2.length)).sum
  /-- The table is empty when the map has no keys. -/
  isEmpty_eq : t.isEmpty = m.isEmpty

theorem Filled.agrees (h : m.Filled) : m.Agrees m.table where
  entries_eq := rfl
  outcomes_eq := outcomes_table m
  offers_eq := by
    intro key
    rw [Bool.eq_iff_iff, Table.offers_iff, outcomes_table]
    cases m[key]? with
    | none => simp
    | some os => simp
  size_eq := by simp [Table.size, table, entries, List.length_flatMap]
  isEmpty_eq := by
    rw [Bool.eq_iff_iff, Std.ExtTreeMap.isEmpty_iff, Table.isEmpty, List.isEmpty_iff]
    constructor
    · intro none
      exact eq_of_table_eq h filled_empty (congrArg Table.mk none)
    · intro none
      rw [none]
      rfl

end ByKey

end Pushdown.Transition
