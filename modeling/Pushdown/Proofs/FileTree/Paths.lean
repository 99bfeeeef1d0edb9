import Pushdown.Definition.Files

/-!
# Paths of entries

The path of an entry of a directory is the path of the directory with the name of the entry after
it. If the names of the entries are names that a file system allows (`AreEntries`), that path leads
to the entry:

> `follow_concat`: from a directory that some names lead to, one more name leads to its entry;
> `resolve_entryPath`: what the path of an entry leads to from the top of a tree is what the entry
> is taken for when the directory is read.

The paths of the entries of a directory are ordered as their names are (`entryPath_lt`).
-/

namespace Pushdown.FileTree

/-! ## Names -/

/-- Whether a file system allows a name for an entry of a directory. -/
structure IsName (name : String) : Prop where
  not_empty : name ≠ ""
  not_here : name ≠ "."
  not_above : name ≠ ".."
  no_slash : '/' ∉ name.toList
  no_nul : '\x00' ∉ name.toList
  short : name.utf8ByteSize ≤ nameLimit

/-- Whether these may be the entries of a directory. -/
structure AreEntries (entries : List (String × FileTree)) : Prop where
  named : ∀ e ∈ entries, IsName e.1
  distinct : (entries.map Prod.fst).Nodup

theorem names_slash (front back : String) :
    names (front ++ "/" ++ back) = names front ++ names back := by
  have chars : (front ++ "/" ++ back).toList = front.toList ++ '/' :: back.toList := by
    simp only [String.toList_append, List.append_assoc]
    rfl
  rw [names, chars, List.splitOn, List.splitOnP_append_cons (p := fun c => c == '/') _ _ rfl,
    List.map_append]
  rfl

theorem IsName.names_eq {name : String} (h : IsName name) : names name = [name] := by
  rw [names, List.splitOn_eq_singleton h.no_slash, List.map_singleton, String.ofList_toList]

theorem names_empty : names "" = [""] := by decide

/-- An entry is found by its name. -/
theorem AreEntries.lookup_eq {entries : List (String × FileTree)} (h : AreEntries entries)
    {name : String} {entry : FileTree} (mem : (name, entry) ∈ entries) :
    entries.lookup name = some entry := by
  obtain ⟨before, after, rfl⟩ := List.append_of_mem mem
  refine List.lookup_eq_some_iff.2 ⟨before, after, rfl, fun e he => bne_iff_ne.2 fun same => ?_⟩
  have distinct := h.distinct
  rw [List.map_append, List.nodup_append] at distinct
  exact distinct.2.2 e.1 (List.mem_map_of_mem he) name (List.mem_cons_self ..) same.symm

/-! ## Following names -/

/-- One more name leads to an entry of the directory that has been reached. -/
theorem follow_concat {above : List FileTree} {here : FileTree} {ns : List String}
    {entries : List (String × FileTree)} (arrived : follow above here ns = .ok (.directory entries))
    {name : String} (h : IsName name) {entry : FileTree}
    (found : entries.lookup name = some entry) :
    follow above here (ns ++ [name]) = .ok entry := by
  fun_induction follow above here ns with
  | case1 above here =>
    cases arrived
    have proper : ¬ (name = "" ∨ name = ".") := fun or => or.elim h.not_empty h.not_here
    have short : ¬ nameLimit < name.utf8ByteSize := Nat.not_lt.2 h.short
    simp [follow, proper, h.not_above, short, found]
  | case2 => cases arrived
  | case3 above next ns entries' stays ih => simpa [follow, stays] using ih arrived
  | case4 ns entries' _ ih => simpa [follow] using ih arrived
  | case5 ns entries' parent above _ ih => simpa [follow] using ih arrived
  | case6 => cases arrived
  | case7 => cases arrived
  | case8 above next ns entries' leaves down short there looked ih =>
    simpa [follow, leaves, down, short, looked] using ih arrived

/-- An empty name stays where it is. -/
theorem follow_of_concat_empty {above : List FileTree} {here place : FileTree} {ns : List String}
    (arrived : follow above here (ns ++ [""]) = .ok place) : follow above here ns = .ok place := by
  fun_induction follow above here ns with
  | case1 above here =>
    cases here with
    | file content => cases arrived
    | directory entries => exact arrived
  | case2 => cases arrived
  | case3 above next ns entries stays ih => exact ih (by simpa [follow, stays] using arrived)
  | case4 ns entries _ ih => exact ih (by simpa [follow] using arrived)
  | case5 ns entries parent above _ ih => exact ih (by simpa [follow] using arrived)
  | case6 above next ns entries leaves down long => simp [follow, leaves, down, long] at arrived
  | case7 above next ns entries leaves down short looked =>
    simp [follow, leaves, down, short, looked] at arrived
  | case8 above next ns entries leaves down short there looked ih =>
    exact ih (by simpa [follow, leaves, down, short, looked] using arrived)

/-! ## Paths -/

/-- Where a path leads that leads somewhere. -/
theorem reach_eq_ok_iff {path : String} {place : Except AccessFault FileTree} {found : FileTree} :
    reach path place = .ok found ↔
      path ≠ "" ∧ '\x00' ∉ path.toList ∧ path.utf8ByteSize ≤ pathLimit ∧ place = .ok found := by
  unfold reach
  by_cases empty : path = ""
  · simp [empty]
  by_cases nul : '\x00' ∈ path.toList
  · simp [empty, nul]
  by_cases long : path.utf8ByteSize > pathLimit
  · simp [empty, nul, long, Nat.not_le.2 long]
  · simp [empty, nul, long, Nat.not_lt.1 long]

end Pushdown.FileTree

namespace Pushdown.Definition

open FileTree (IsName AreEntries)

theorem exists_of_endsWith_slash {directory : String} (h : directory.endsWith "/" = true) :
    ∃ front, directory = front ++ "/" := by
  rw [String.endsWith_eq_endsWith_toSlice, String.Slice.endsWith_string_iff,
    String.copy_toSlice] at h
  obtain ⟨front, same⟩ := h
  refine ⟨String.ofList front, String.toList_inj.1 ?_⟩
  rw [String.toList_append, String.toList_ofList, same]

/-- The paths of the entries of a directory start alike. -/
theorem exists_entryPath_eq (directory : String) :
    ∃ front, front ≠ "" ∧ ∀ name, entryPath directory name = front ++ name := by
  unfold entryPath
  split
  · next slash =>
    obtain ⟨front, rfl⟩ := exists_of_endsWith_slash slash
    exact ⟨front ++ "/", by simp, fun _ => rfl⟩
  · exact ⟨directory ++ "/", by simp, fun _ => rfl⟩

/-- The paths of the entries of a directory are ordered like the names. -/
theorem entryPath_lt (directory : String) {name name' : String} (h : name < name') :
    entryPath directory name < entryPath directory name' := by
  obtain ⟨front, -, path⟩ := exists_entryPath_eq directory
  -- Texts are compared like the lists of their characters.
  change (entryPath directory name).toList < (entryPath directory name').toList
  rw [path, path, String.toList_append, String.toList_append]
  exact List.append_left_lt h

/-- What the path of an entry leads to from the top of a tree. -/
theorem resolve_entryPath {tree : FileTree} {directory : String}
    {entries : List (String × FileTree)} (found : tree.resolve directory = .ok (.directory entries))
    (proper : AreEntries entries) {name : String} {entry : FileTree}
    (mem : (name, entry) ∈ entries) :
    tree.resolve (entryPath directory name) = reachEntry directory name entry := by
  obtain ⟨-, -, -, arrived⟩ := FileTree.reach_eq_ok_iff.1 found
  have named : IsName name := proper.named _ mem
  have there := proper.lookup_eq mem
  suffices follow : tree.follow [] (FileTree.names (entryPath directory name)) = .ok entry by
    rw [FileTree.resolve, follow, reachEntry]
  unfold entryPath
  split
  · next slash =>
    obtain ⟨front, rfl⟩ := exists_of_endsWith_slash slash
    have split : FileTree.names (front ++ "/") = FileTree.names front ++ [""] := by
      have := FileTree.names_slash front ""
      rwa [String.append_empty, FileTree.names_empty] at this
    rw [split] at arrived
    rw [FileTree.names_slash, named.names_eq]
    exact FileTree.follow_concat (FileTree.follow_of_concat_empty arrived) named there
  · rw [FileTree.names_slash, named.names_eq]
    exact FileTree.follow_concat arrived named there

end Pushdown.Definition
