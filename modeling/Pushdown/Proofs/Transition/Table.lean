import Pushdown.Transition.Table

/-!
# The order of a transition table

A table made by additions keeps its entries in the order of their keys (`Table.Ordered`), which is
what makes an added outcome the last one under its key:

> `outcomes_add`: under the key of the addition there is one outcome more, at the end; under every
> other key nothing has changed.

Without the order an entry could be put before an older one of the same key, so the invariant is
not a nicety. `ordered_empty` and `ordered_add` establish and keep it. It also makes a table no more
than what it offers, for nothing is left to the order in which keys were first used:

> `eq_of_outcomes_eq`: ordered tables that offer the same under every key are the same.
-/

namespace Pushdown.Transition

namespace Key

theorem before_iff {k l : Key} :
    k.before l = true ↔ k.input < l.input ∨ (k.input = l.input ∧ k.top < l.top) := by
  simp [before]

theorem before_trans {k l m : Key} (h₁ : k.before l = true) (h₂ : l.before m = true) :
    k.before m = true := by
  rw [before_iff] at *
  rcases h₁ with h₁ | ⟨e₁, h₁⟩
  · rcases h₂ with h₂ | ⟨e₂, -⟩
    · exact Or.inl (Char.lt_trans h₁ h₂)
    · exact Or.inl (e₂ ▸ h₁)
  · rcases h₂ with h₂ | ⟨e₂, h₂⟩
    · exact Or.inl (e₁ ▸ h₂)
    · exact Or.inr ⟨e₁.trans e₂, Char.lt_trans h₁ h₂⟩

theorem before_irrefl (k : Key) : ¬ k.before k = true := by
  rw [before_iff]
  rintro (h | ⟨-, h⟩)
  · exact Char.lt_irrefl _ h
  · exact Char.lt_irrefl _ h

/-- Of two keys, one comes first unless they are the same. -/
theorem eq_of_not_before {k l : Key} (h₁ : ¬ k.before l = true) (h₂ : ¬ l.before k = true) :
    k = l := by
  rw [before_iff, not_or, not_and, Char.not_lt] at h₁ h₂
  have input : k.input = l.input := Char.le_antisymm h₂.1 h₁.1
  have top : k.top = l.top :=
    Char.le_antisymm (Char.not_lt.1 (h₂.2 input.symm)) (Char.not_lt.1 (h₁.2 input))
  cases k
  cases l
  cases input
  cases top
  rfl

theorem before_asymm {k l : Key} (h : k.before l = true) : ¬ l.before k = true :=
  fun h' => before_irrefl k (before_trans h h')

end Key

namespace Table

/-- Whether an entry may stand before another one. -/
def MayPrecede (e f : Entry) : Prop := ¬ f.key.before e.key = true

/-- Entries stand in the order of their keys. -/
def Ordered (t : Table) : Prop := t.entries.Pairwise MayPrecede

theorem ordered_empty : empty.Ordered := List.Pairwise.nil

theorem pairwise_insertEntry {e : Entry} {entries : List Entry}
    (h : entries.Pairwise MayPrecede) : (insertEntry e entries).Pairwise MayPrecede := by
  induction entries with
  | nil => simp [insertEntry]
  | cons f rest ih =>
    obtain ⟨below, rest_ordered⟩ := List.pairwise_cons.1 h
    unfold insertEntry
    split
    next e_before =>
      refine List.pairwise_cons.2 ⟨fun g hg => ?_, h⟩
      rcases List.mem_cons.1 hg with rfl | hg
      · exact Key.before_asymm e_before
      · exact fun g_before => below g hg (Key.before_trans g_before e_before)
    next not_before =>
      refine List.pairwise_cons.2 ⟨fun g hg => ?_, ih rest_ordered⟩
      rcases mem_insertEntry.1 hg with rfl | hg
      · exact not_before
      · exact below g hg

theorem ordered_add {t : Table} (h : t.Ordered) (key : Key) (o : Outcome) :
    (t.add key o).Ordered :=
  pairwise_insertEntry h

/-- The entries with one key, after an insertion into an ordered list. -/
theorem filter_insertEntry {e : Entry} {entries : List Entry} {key : Key}
    (h : entries.Pairwise MayPrecede) :
    (insertEntry e entries).filter (·.key == key) =
      entries.filter (·.key == key) ++ if e.key = key then [e] else [] := by
  induction entries with
  | nil =>
    by_cases hk : e.key = key
    · simp [insertEntry, hk]
    · simp [insertEntry, hk]
  | cons f rest ih =>
    obtain ⟨below, rest_ordered⟩ := List.pairwise_cons.1 h
    unfold insertEntry
    split
    next e_before =>
      by_cases hk : e.key = key
      · -- nothing from `f` on has the key of `e`, since `e` comes before `f`
        have none_left : (f :: rest).filter (·.key == key) = [] := by
          refine List.filter_eq_nil_iff.2 fun g hg same => ?_
          have g_key : g.key = e.key := (eq_of_beq same).trans hk.symm
          rcases List.mem_cons.1 hg with rfl | hg
          · exact Key.before_irrefl _ (g_key ▸ e_before)
          · exact below g hg (g_key ▸ e_before)
        rw [List.filter_cons_of_pos (by simpa using hk), none_left, if_pos hk]
        rfl
      · rw [List.filter_cons_of_neg (by simpa using hk), if_neg hk, List.append_nil]
    next not_before =>
      by_cases hf : f.key = key
      · simp [hf, ih rest_ordered]
      · simp [hf, ih rest_ordered]

/-- An addition puts its outcome last under its key and leaves the other keys alone. -/
theorem outcomes_add {t : Table} (h : t.Ordered) (key l : Key) (o : Outcome) :
    (t.add key o).outcomes l = t.outcomes l ++ if key = l then [o] else [] := by
  unfold outcomes add
  rw [filter_insertEntry h, List.map_append]
  congr 1
  split
  · rfl
  · rfl

theorem mem_outcomes {t : Table} {key : Key} {o : Outcome} :
    o ∈ t.outcomes key ↔ (⟨key, o⟩ : Entry) ∈ t.entries := by
  simp only [outcomes, List.mem_map, List.mem_filter, beq_iff_eq]
  constructor
  · intro h
    obtain ⟨e, ⟨he, rfl⟩, rfl⟩ := h
    exact he
  · intro h
    exact ⟨_, ⟨h, rfl⟩, rfl⟩

/-- What a list of entries offers under a key, entry by entry. -/
theorem outcomes_cons (e : Entry) (entries : List Entry) (key : Key) :
    outcomes ⟨e :: entries⟩ key =
      if e.key = key then e.outcome :: outcomes ⟨entries⟩ key else outcomes ⟨entries⟩ key := by
  unfold outcomes
  by_cases h : e.key = key
  · rw [if_pos h, List.filter_cons_of_pos (by simpa using h), List.map_cons]
  · rw [if_neg h, List.filter_cons_of_neg (by simpa using h)]

/-- The first entry of a table has the first of all keys under which something is offered. -/
theorem not_before_head {e : Entry} {entries : List Entry}
    (h : (e :: entries).Pairwise MayPrecede) {key : Key} {o : Outcome}
    (offered : o ∈ outcomes ⟨e :: entries⟩ key) : ¬ key.before e.key = true := by
  rcases List.mem_cons.1 (mem_outcomes.1 offered) with rfl | later
  · exact Key.before_irrefl key
  · exact (List.pairwise_cons.1 h).1 _ later

/-- Ordered tables are told apart by what they offer. -/
theorem eq_of_outcomes_eq {t u : Table} (ht : t.Ordered) (hu : u.Ordered)
    (same : ∀ key, t.outcomes key = u.outcomes key) : t = u := by
  obtain ⟨es⟩ := t
  obtain ⟨fs⟩ := u
  induction es generalizing fs with
  | nil =>
    cases fs with
    | nil => rfl
    | cons f fs =>
      have first := same f.key
      rw [outcomes_cons, if_pos rfl] at first
      cases first
  | cons e es ih =>
    cases fs with
    | nil =>
      have first := same e.key
      rw [outcomes_cons, if_pos rfl] at first
      cases first
    | cons f fs =>
      have e_offered : e.outcome ∈ outcomes ⟨f :: fs⟩ e.key := by
        rw [← same, outcomes_cons, if_pos rfl]
        exact List.mem_cons_self ..
      have f_offered : f.outcome ∈ outcomes ⟨e :: es⟩ f.key := by
        rw [same, outcomes_cons, if_pos rfl]
        exact List.mem_cons_self ..
      have keys : e.key = f.key :=
        Key.eq_of_not_before (not_before_head hu e_offered) (not_before_head ht f_offered)
      have heads : e = f := by
        have first := same e.key
        rw [outcomes_cons, outcomes_cons, if_pos rfl, if_pos keys.symm] at first
        cases e
        cases f
        cases keys
        cases (List.cons.inj first).1
        rfl
      subst heads
      have rest : (⟨es⟩ : Table) = ⟨fs⟩ := by
        refine ih (List.pairwise_cons.1 ht).2 fs (List.pairwise_cons.1 hu).2 fun key => ?_
        have under := same key
        rw [outcomes_cons, outcomes_cons] at under
        by_cases h : e.key = key
        · rw [if_pos h, if_pos h] at under
          exact (List.cons.inj under).2
        · rwa [if_neg h, if_neg h] at under
      rw [Table.mk.inj rest]

end Table

end Pushdown.Transition
