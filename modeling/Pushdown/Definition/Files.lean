import Pushdown.Definition.Load
import Pushdown.FileTree

/-!
# Loading definition files

`Definition.loadFile` loads the definition that a path leads to. `Definition.loadDirectory`
loads all definition files that stand directly in a directory, each on its own, in the order
of their names: a file that cannot be loaded takes nothing away from the others. A
definition file is a file whose name has something before its last dot and `pda` after it.
Whatever has such a name is also tried if its path is too long to tell what it is.
-/

namespace Pushdown.Definition

/-- What comes after the last dot of a name, if something comes before it. -/
def extension? (name : String) : Option String :=
  let reversed := name.toList.reverse
  -- From the last dot backwards; something must stand before the dot.
  match reversed.dropWhile (· != '.') with
  | '.' :: _ :: _ => some (String.ofList (reversed.takeWhile (· != '.')).reverse)
  | _ => none

/-- Loads the definition of a file that has been read, or could not be. -/
def loadRead (path : String) : Except AccessFault String → List LogEvent × Except Error Automaton
  | .error fault => ([], .error (.file (.unreadableFile path fault)))
  | .ok text =>
    let (log, loaded) := loadLogged text
    (.loadingDefinition path :: log, loaded)

/-- Loads the definition that a path leads to. -/
def loadFile (tree : FileTree) (path : String) : List LogEvent × Except Error Automaton :=
  loadRead path (tree.readText path)

/-- The path of an entry of a directory. -/
def entryPath (directory name : String) : String :=
  if directory.endsWith "/" then directory ++ name else directory ++ "/" ++ name

/-- What came of one file of a directory. -/
structure LoadedFile where
  path : String
  log : List LogEvent
  result : Except Error Automaton

/-- What the path of an entry of a directory leads to: the entry, unless the path is too long. -/
def reachEntry (directory name : String) (entry : FileTree) : Except AccessFault FileTree :=
  FileTree.reach (entryPath directory name) (.ok entry)

/-- Whether an entry of a directory is taken for a definition file: by its name, and unless it
is seen to be a directory. Where its path leads nowhere, that cannot be seen. -/
def isDefinitionFile (directory name : String) (entry : FileTree) : Bool :=
  extension? name == some "pda" &&
    match reachEntry directory name entry with
    | .error _ => true
    | .ok place => !place.isDirectory

/-- Loads a file among the entries of a directory. -/
def loadEntry (directory name : String) (entry : FileTree) : LoadedFile :=
  let path := entryPath directory name
  let (log, result) := loadRead path (FileTree.textOf (reachEntry directory name entry))
  { path, log, result }

/-- Whether an entry does not come after another. -/
def entryBefore (e f : String × FileTree) : Bool := !decide (f.1 < e.1)

/-- Loads the definition files among the entries of a directory, listed in any order. -/
def loadEntries (directory : String) (entries : List (String × FileTree)) : List LoadedFile :=
  let sorted := entries.mergeSort entryBefore
  (sorted.filter fun (name, entry) => isDefinitionFile directory name entry).map
    fun (name, entry) => loadEntry directory name entry

/-- Loads the definition files of the directory that a path leads to, if it leads to one. -/
def loadDirectory (tree : FileTree) (path : String) : Except Error (List LoadedFile) :=
  match tree.resolve path with
  | .error _ => .error (.file (.missingDirectory path))
  | .ok (.file _) => .error (.file (.unreadableDirectory path .notDirectory))
  | .ok (.directory entries) => .ok (loadEntries path entries)

end Pushdown.Definition
