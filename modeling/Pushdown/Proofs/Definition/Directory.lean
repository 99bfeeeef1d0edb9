import Pushdown.Proofs.FileTree.Paths

/-!
# Loading directories

What `Definition.loadDirectory` makes of the entries of a directory. Entries that a file system
allows (`FileTree.AreEntries`) have different names, so there is only one order that they can be
sorted into (`sorted_entries`, `mergeSort_entries`), and the path of each leads back to it.

> `loadDirectory_exhaustive`: the results stand in the order of their paths, one for each entry that
> is taken for a definition file (`YieldsResult`), and each is what its path loads by itself. The
> order in which the entries are listed changes nothing, and another directory that shares an entry
> has the same result for it.

An entry is meant to be taken for a definition file if its name has the extension and it is no
directory. But whether an entry is a directory cannot be seen where its path is too long to be
looked up; there a directory with such a name is taken for a file (`loadDirectory_takes_directory`).
-/

namespace Pushdown.Definition

open FileTree (IsName AreEntries)

/-! ## Extensions -/

/-- The extension of a name is what stands after its last dot, if something stands before. -/
theorem extension?_eq_some_iff {name extension : String} :
    extension? name = some extension ↔
      '.' ∉ extension.toList ∧ ∃ stem, stem ≠ "" ∧ name = stem ++ "." ++ extension := by
  unfold extension?
  constructor
  · intro h
    dsimp only at h
    split at h
    next c before dropped =>
      cases h
      have parts := List.takeWhile_append_dropWhile (p := (· != '.')) (l := name.toList.reverse)
      refine ⟨?_, String.ofList (c :: before).reverse, ?_, ?_⟩
      · rw [String.toList_ofList, List.mem_reverse]
        exact fun mem => absurd (List.all_eq_true.1 List.all_takeWhile '.' mem) (by decide)
      · intro empty
        have := congrArg String.toList empty
        simp at this
      · rw [dropped] at parts
        rw [← String.toList_inj, ← List.reverse_inj]
        simpa using parts.symm
    next => cases h
  · rintro ⟨dotless, stem, proper, rfl⟩
    have reversed : (stem ++ "." ++ extension).toList.reverse
        = extension.toList.reverse ++ '.' :: stem.toList.reverse := by
      simp [String.toList_append]
    have dotless : ∀ c ∈ extension.toList.reverse, (c != '.') = true := fun c mem =>
      bne_iff_ne.2 fun same => dotless (same ▸ List.mem_reverse.1 mem)
    obtain ⟨c, before, stemmed⟩ : ∃ c before, stem.toList.reverse = c :: before :=
      List.exists_cons_of_ne_nil (by simpa using proper)
    simp only [reversed, stemmed, List.dropWhile_append_of_pos dotless,
      List.takeWhile_append_of_pos dotless]
    simp

/-! ## Entries that yield results -/

/-- Whether an entry of a directory yields a result: its name is a stem with `.pda` after it, and
it is no directory, or its path is too long to see that it is one. -/
def YieldsResult (directory : String) (e : String × FileTree) : Prop :=
  (∃ stem, stem ≠ "" ∧ e.1 = stem ++ ".pda") ∧
    (e.2.isDirectory = true → FileTree.pathLimit < (entryPath directory e.1).utf8ByteSize)

/-- The path of an entry is looked up unless it is too long. -/
theorem reachEntry_eq {tree found : FileTree} {directory : String}
    (arrived : tree.resolve directory = .ok found) {name : String} (named : IsName name)
    (entry : FileTree) :
    reachEntry directory name entry =
      if FileTree.pathLimit < (entryPath directory name).utf8ByteSize then .error .nameTooLong
      else .ok entry := by
  obtain ⟨front, proper, path⟩ := exists_entryPath_eq directory
  obtain ⟨-, noNul, -, -⟩ := FileTree.reach_eq_ok_iff.1 arrived
  have noNul : '\x00' ∉ (entryPath directory name).toList := by
    unfold entryPath
    split <;> simp [String.toList_append, noNul, named.no_nul]
  have nonempty : entryPath directory name ≠ "" := by simp [path, proper]
  simp [reachEntry, FileTree.reach, nonempty, noNul]

theorem isDefinitionFile_iff {tree found : FileTree} {directory : String}
    (arrived : tree.resolve directory = .ok found) {e : String × FileTree} (named : IsName e.1) :
    isDefinitionFile directory e.1 e.2 = true ↔ YieldsResult directory e := by
  have dotless : '.' ∉ "pda".toList := by decide
  rw [isDefinitionFile, Bool.and_eq_true, beq_iff_eq, extension?_eq_some_iff,
    reachEntry_eq arrived named, YieldsResult]
  simp only [dotless, not_false_eq_true, true_and, String.append_assoc]
  refine and_congr Iff.rfl ?_
  by_cases long : FileTree.pathLimit < (entryPath directory e.1).utf8ByteSize <;> simp [long]

/-! ## The order of the entries -/

theorem entryBefore_iff {e f : String × FileTree} : entryBefore e f = true ↔ e.1 ≤ f.1 := by
  rw [entryBefore, Bool.not_eq_true', decide_eq_false_iff_not, String.not_lt]

theorem entryBefore_trans (e f g : String × FileTree) (h : entryBefore e f = true)
    (h' : entryBefore f g = true) : entryBefore e g = true :=
  entryBefore_iff.2 (String.le_trans (entryBefore_iff.1 h) (entryBefore_iff.1 h'))

theorem entryBefore_total (e f : String × FileTree) :
    (entryBefore e f || entryBefore f e) = true := by
  rw [Bool.or_eq_true, entryBefore_iff, entryBefore_iff]
  exact String.le_total e.1 f.1

/-- Sorted entries stand in the order of their names. -/
theorem sorted_entries {entries : List (String × FileTree)} (proper : AreEntries entries) :
    (entries.mergeSort entryBefore).Pairwise fun e f => e.1 < f.1 := by
  have ordered := List.pairwise_mergeSort entryBefore_trans entryBefore_total entries
  have distinct : (entries.mergeSort entryBefore).Pairwise fun e f => e.1 ≠ f.1 :=
    List.pairwise_map.1 (((List.mergeSort_perm entries _).map Prod.fst).nodup_iff.2 proper.distinct)
  exact (ordered.and distinct).imp fun h => String.not_le.1 fun back =>
    h.2 (String.le_antisymm (entryBefore_iff.1 h.1) back)

/-- However the entries of a directory are listed, they are sorted into one order. -/
theorem mergeSort_entries {entries entries' : List (String × FileTree)}
    (proper : AreEntries entries) (same : entries'.Perm entries) :
    entries'.mergeSort entryBefore = entries.mergeSort entryBefore := by
  have proper' : AreEntries entries' :=
    ⟨fun e mem => proper.named e (same.mem_iff.1 mem),
      (same.map Prod.fst).nodup_iff.2 proper.distinct⟩
  have perm : (entries'.mergeSort entryBefore).Perm (entries.mergeSort entryBefore) :=
    (List.mergeSort_perm ..).trans (same.trans (List.mergeSort_perm ..).symm)
  exact perm.eq_of_pairwise (fun e f _ _ lt gt => absurd gt (String.lt_asymm lt))
    (sorted_entries proper') (sorted_entries proper)

/-! ## The results -/

theorem entryPath_injective (directory : String) {name name' : String}
    (same : entryPath directory name = entryPath directory name') : name = name' := by
  obtain ⟨front, -, path⟩ := exists_entryPath_eq directory
  rw [path, path] at same
  exact (String.append_right_inj front).1 same

/-- An entry is loaded as its path is by itself. -/
theorem loadEntry_eq_loadFile {tree : FileTree} {directory : String}
    {entries : List (String × FileTree)}
    (arrived : tree.resolve directory = .ok (.directory entries)) (proper : AreEntries entries)
    {e : String × FileTree} (mem : e ∈ entries) :
    ((loadEntry directory e.1 e.2).log, (loadEntry directory e.1 e.2).result) =
      loadFile tree (entryPath directory e.1) := by
  rw [loadFile, FileTree.readText, resolve_entryPath arrived proper mem]
  rfl

theorem mem_loadEntries {directory : String} {entries : List (String × FileTree)}
    {r : LoadedFile} : r ∈ loadEntries directory entries ↔
      ∃ e ∈ entries, isDefinitionFile directory e.1 e.2 = true ∧
        r = loadEntry directory e.1 e.2 := by
  simp only [loadEntries, List.mem_map, List.mem_filter, List.mem_mergeSort, and_assoc, eq_comm]

/-- Whether a result with the path of an entry is among the results depends on that entry only. -/
theorem mem_loadEntries_iff {directory : String} {entries : List (String × FileTree)}
    (proper : AreEntries entries) {e : String × FileTree} (mem : e ∈ entries) {r : LoadedFile}
    (path : r.path = entryPath directory e.1) :
    r ∈ loadEntries directory entries ↔
      isDefinitionFile directory e.1 e.2 = true ∧ r = loadEntry directory e.1 e.2 := by
  rw [mem_loadEntries]
  constructor
  · rintro ⟨f, mem', taken, rfl⟩
    have name : f.1 = e.1 := entryPath_injective directory path
    have entry : some f.2 = some e.2 := by
      rw [← proper.lookup_eq mem', ← proper.lookup_eq mem, name]
    cases Prod.ext name (Option.some.inj entry)
    exact ⟨taken, rfl⟩
  · rintro ⟨taken, rfl⟩
    exact ⟨e, mem, taken, rfl⟩

/-- The results for the entries of a directory lose, duplicate and mix up nothing. -/
structure IsExhaustive (tree : FileTree) (directory : String)
    (entries : List (String × FileTree)) (results : List LoadedFile) : Prop where
  /-- They stand in the order of their paths. -/
  ordered : (results.map (·.path)).Pairwise (· < ·)
  /-- There is one for each entry that yields a result, and there are no others. -/
  one_each : ∃ taken : List (String × FileTree), taken.Nodup ∧
    (∀ e, e ∈ taken ↔ e ∈ entries ∧ YieldsResult directory e) ∧
    results.map (·.path) = taken.map fun e => entryPath directory e.1
  /-- Each is what its path loads by itself. -/
  alone : ∀ r ∈ results, (r.log, r.result) = loadFile tree r.path
  /-- They are the same however the entries are listed. -/
  any_order : ∀ tree' entries', tree'.resolve directory = .ok (.directory entries') →
    entries'.Perm entries → loadDirectory tree' directory = .ok results
  /-- Where other entries come, go or change, an entry that is left as it is has the same result. -/
  isolated : ∀ tree' entries' results', tree'.resolve directory = .ok (.directory entries') →
    AreEntries entries' → loadDirectory tree' directory = .ok results' →
    ∀ e ∈ entries, e ∈ entries' → ∀ r, r.path = entryPath directory e.1 →
      (r ∈ results ↔ r ∈ results')

theorem loadDirectory_eq {tree : FileTree} {directory : String}
    {entries : List (String × FileTree)}
    (arrived : tree.resolve directory = .ok (.directory entries)) :
    loadDirectory tree directory = .ok (loadEntries directory entries) := by
  rw [loadDirectory, arrived]

/-- Loading a directory has one result for each definition file in it, in the order of their paths,
and none of them depends on the other entries or on the order in which they are listed. -/
theorem loadDirectory_exhaustive {tree : FileTree} {directory : String}
    {entries : List (String × FileTree)}
    (arrived : tree.resolve directory = .ok (.directory entries)) (proper : AreEntries entries) :
    ∃ results, loadDirectory tree directory = .ok results ∧
      IsExhaustive tree directory entries results := by
  refine ⟨_, loadDirectory_eq arrived, ?ordered, ?one_each, ?alone, ?any_order, ?isolated⟩
  case ordered =>
    simp only [loadEntries, List.map_map, List.pairwise_map]
    exact ((sorted_entries proper).filter _).imp fun h => entryPath_lt directory h
  case one_each =>
    refine ⟨(entries.mergeSort entryBefore).filter fun e => isDefinitionFile directory e.1 e.2,
      ?_, fun e => ?_, ?_⟩
    · refine ((sorted_entries proper).filter _).imp ?_
      rintro e f before rfl
      exact String.lt_irrefl _ before
    · rw [List.mem_filter, List.mem_mergeSort]
      exact and_congr_right fun mem => isDefinitionFile_iff arrived (proper.named e mem)
    · rw [loadEntries, List.map_map]
      rfl
  case alone =>
    intro r mem
    obtain ⟨e, there, -, rfl⟩ := mem_loadEntries.1 mem
    exact loadEntry_eq_loadFile arrived proper there
  case any_order =>
    intro tree' entries' arrived' same
    rw [loadDirectory_eq arrived', loadEntries, loadEntries, mergeSort_entries proper same]
  case isolated =>
    intro tree' entries' results' arrived' proper' loaded e mem mem' r path
    rw [loadDirectory_eq arrived', Except.ok.injEq] at loaded
    rw [← loaded, mem_loadEntries_iff proper mem path, mem_loadEntries_iff proper' mem' path]

/-- A directory with a definition file, another file and a directory that is named like a definition
file. -/
def nestedEntries : List (String × FileTree) :=
  [("nested.pda", .empty), ("notes.txt", .file "q".toUTF8), ("anbn.pda", .file "q".toUTF8)]

theorem loadDirectory_exhaustive_nested :
    (FileTree.directory nestedEntries).resolve "." = .ok (.directory nestedEntries) ∧
      AreEntries nestedEntries ∧
      ∃ results, loadDirectory (.directory nestedEntries) "." = .ok results ∧
        IsExhaustive (.directory nestedEntries) "." nestedEntries results := by
  have arrived : (FileTree.directory nestedEntries).resolve "." =
      .ok (.directory nestedEntries) := by
    have names : FileTree.names "." = ["."] := by decide
    have byteSize : ".".utf8ByteSize = 1 := by decide
    simp [FileTree.resolve, FileTree.reach, names, FileTree.follow, byteSize, FileTree.pathLimit]
  have proper : AreEntries nestedEntries := by
    refine ⟨fun e mem => ?_, by decide⟩
    have names : e.1 ∈ ["nested.pda", "notes.txt", "anbn.pda"] := List.mem_map_of_mem mem
    simp only [List.mem_cons, List.not_mem_nil, or_false] at names
    rcases names with h | h | h <;> rw [h] <;> constructor <;> decide
  exact ⟨arrived, proper, loadDirectory_exhaustive arrived proper⟩

/-! ## Paths that are too long -/

/-- A path that stays in the directory where it starts. -/
def stayingPath : Nat → String
  | 0 => ""
  | n + 1 => "." ++ "/" ++ stayingPath n

theorem names_stayingPath (n : Nat) :
    FileTree.names (stayingPath n) = List.replicate n "." ++ [""] := by
  induction n with
  | zero => exact FileTree.names_empty
  | succ n ih =>
    have here : FileTree.names "." = ["."] := by decide
    rw [stayingPath, FileTree.names_slash, here, ih]
    rfl

theorem utf8ByteSize_stayingPath (n : Nat) : (stayingPath n).utf8ByteSize = 2 * n := by
  induction n with
  | zero => rfl
  | succ n ih =>
    have here : ("." ++ "/").utf8ByteSize = 2 := by decide
    rw [stayingPath, String.utf8ByteSize_append, ih, here]
    omega

theorem nul_notMem_stayingPath (n : Nat) : '\x00' ∉ (stayingPath n).toList := by
  induction n with
  | zero => decide
  | succ n ih => simpa [stayingPath, String.toList_append] using ih

theorem endsWith_stayingPath (n : Nat) : (stayingPath (n + 1)).endsWith "/" = true := by
  rw [String.endsWith_eq_endsWith_toSlice, String.Slice.endsWith_string_iff, String.copy_toSlice]
  induction n with
  | zero => exact ⟨['.'], by decide⟩
  | succ n ih =>
    rw [stayingPath, String.toList_append]
    exact ih.trans (List.suffix_append ..)

theorem follow_stayingPath (entries : List (String × FileTree)) (n : Nat) :
    FileTree.follow [] (.directory entries) (List.replicate n "." ++ [""]) =
      .ok (.directory entries) := by
  induction n with
  | zero => rfl
  | succ n ih => simpa [List.replicate_succ, FileTree.follow] using ih

/-- A path of at most 4095 bytes that stays where it starts leads there. -/
theorem resolve_stayingPath (entries : List (String × FileTree)) {n : Nat} (pos : 0 < n)
    (short : 2 * n ≤ FileTree.pathLimit) :
    (FileTree.directory entries).resolve (stayingPath n) = .ok (.directory entries) := by
  refine FileTree.reach_eq_ok_iff.2 ⟨fun empty => ?_, nul_notMem_stayingPath n, ?_, ?_⟩
  · have := utf8ByteSize_stayingPath n
    rw [empty, String.utf8ByteSize_empty] at this
    omega
  · rw [utf8ByteSize_stayingPath]
    exact short
  · rw [names_stayingPath, follow_stayingPath]

/-- Where the path of a directory with the name of a definition file is too long, the directory is
taken for a file that cannot be read. -/
theorem loadDirectory_takes_directory :
    AreEntries [("nn.pda", FileTree.empty)] ∧
      (FileTree.directory [("nn.pda", .empty)]).resolve (stayingPath 2045) =
        .ok (.directory [("nn.pda", .empty)]) ∧
      ∃ r, loadDirectory (.directory [("nn.pda", .empty)]) (stayingPath 2045) = .ok [r] ∧
        r.result =
          .error (.file (.unreadableFile (stayingPath 2045 ++ "nn.pda") .nameTooLong)) := by
  have named : IsName "nn.pda" := by constructor <;> decide
  have proper : AreEntries [("nn.pda", FileTree.empty)] :=
    ⟨by simpa using named, by simp⟩
  have arrived := resolve_stayingPath [("nn.pda", .empty)] (n := 2045) (by decide) (by decide)
  have path : entryPath (stayingPath 2045) "nn.pda" = stayingPath 2045 ++ "nn.pda" := by
    rw [entryPath, if_pos (endsWith_stayingPath 2044)]
  have long : FileTree.pathLimit < (entryPath (stayingPath 2045) "nn.pda").utf8ByteSize := by
    have size : "nn.pda".utf8ByteSize = 6 := by decide
    rw [path, String.utf8ByteSize_append, utf8ByteSize_stayingPath, size]
    decide
  have yields : isDefinitionFile (stayingPath 2045) "nn.pda" .empty = true :=
    (isDefinitionFile_iff arrived (e := ("nn.pda", .empty)) named).2
      ⟨⟨"nn", by decide, by decide⟩, fun _ => long⟩
  refine ⟨proper, arrived, loadEntry (stayingPath 2045) "nn.pda" .empty, ?_, ?_⟩
  · simp [loadDirectory_eq arrived, loadEntries, yields]
  · rw [← path, loadEntry, reachEntry_eq arrived named, if_pos long]
    rfl

end Pushdown.Definition
