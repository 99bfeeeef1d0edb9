import Pushdown.Error

/-!
# File trees

A file tree is what a relative path is looked up in: a directory of files and further
directories. A path is a sequence of names with slashes between them. `FileTree.resolve`
follows it name by name: an empty name and `.` stay in the directory that has been reached,
`..` goes back to the one above it, and every name needs a directory to be looked up in. So
a path that goes on after a file leads nowhere, even if only a slash follows.

What is above the top of a tree is unknown; it is taken to be an empty directory. Names are
texts, and all entries of a directory can be listed: a file system may also have names that
are not UTF-8, and entries that fail to be listed, and of such nothing is said here.
-/

namespace Pushdown

/-- What a name of a file system stands for. -/
inductive FileTree where
  | file (content : ByteArray)
  | directory (entries : List (String × FileTree))

namespace FileTree

instance : Inhabited FileTree := ⟨.directory []⟩

/-- The tree without files. -/
def empty : FileTree := .directory []

/-- Whether this is a directory. -/
def isDirectory : FileTree → Bool
  | file _ => false
  | directory _ => true

/-- How many bytes a name may have. -/
def nameLimit : Nat := 255

/-- How many bytes a path may have. -/
def pathLimit : Nat := 4095

/-- Follows names from a place. The places above it come along, the nearest first. -/
def follow (above : List FileTree) (here : FileTree) :
    (names : List String) → Except AccessFault FileTree
  | [] => .ok here
  | name :: names =>
    match here with
    | file _ => .error .notDirectory
    | directory entries =>
      if name = "" || name = "." then follow above here names
      else if name = ".." then
        match above with
        -- Nothing is known above the top.
        | [] => follow [] empty names
        | parent :: above => follow above parent names
      else if name.utf8ByteSize > nameLimit then .error .nameTooLong
      else
        match entries.lookup name with
        | none => .error .notFound
        | some next => follow (here :: above) next names

/-- The names of a path. -/
def names (path : String) : List String := (path.toList.splitOn '/').map String.ofList

/-- What a path leads to, when its names lead to a place. A path that is empty, is too long or
has a NUL in it leads nowhere, whatever its names are. -/
def reach (path : String) (place : Except AccessFault FileTree) : Except AccessFault FileTree :=
  if path.isEmpty then .error .notFound
  else if path.toList.contains '\x00' then .error .nulInPath
  else if path.utf8ByteSize > pathLimit then .error .nameTooLong
  else place

/-- What a path leads to, from the top of a tree. -/
def resolve (tree : FileTree) (path : String) : Except AccessFault FileTree :=
  reach path (tree.follow [] (names path))

/-- The text of a file. -/
def text : FileTree → Except AccessFault String
  | directory _ => .error .isDirectory
  | file content =>
    match String.fromUTF8? content with
    | some text => .ok text
    | none => .error .notText

/-- The text of what a path has led to. -/
def textOf (found : Except AccessFault FileTree) : Except AccessFault String :=
  match found with
  | .error fault => .error fault
  | .ok place => place.text

/-- The text of the file that a path leads to. -/
def readText (tree : FileTree) (path : String) : Except AccessFault String :=
  textOf (tree.resolve path)

/-! ## Making trees -/

/-- Changes what a name stands for among the entries of a directory. A name that is new
stands for an empty directory before. -/
def alter (change : FileTree → FileTree) (name : String) :
    List (String × FileTree) → List (String × FileTree)
  | [] => [(name, change empty)]
  | (other, tree) :: rest =>
    if other = name then (other, change tree) :: rest else (other, tree) :: alter change name rest

/-- Changes what stands at the end of some names, making the directories on the way. -/
def alterAt (change : FileTree → FileTree) : (names : List String) → FileTree → FileTree
  | [], tree => change tree
  | name :: names, directory entries => directory (alter (alterAt change names) name entries)
  | name :: names, file _ => directory (alter (alterAt change names) name [])

/-- The names of a path that lead on. -/
def properNames (path : String) : List String := (names path).filter fun n => n != "" && n != "."

/-- Puts a file at a path, in place of what stands there. -/
def addFile (tree : FileTree) (path : String) (content : ByteArray) : FileTree :=
  alterAt (fun _ => file content) (properNames path) tree

/-- Makes a directory at a path, unless there is one. -/
def addDirectory (tree : FileTree) (path : String) : FileTree :=
  alterAt (fun found => if found.isDirectory then found else empty) (properNames path) tree

end FileTree

end Pushdown
