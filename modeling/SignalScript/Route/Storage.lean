import SignalScript.Diagnostic

/-!
# Where files come from

The program asks for files by path. It does not matter to it whether they lie in a file system or
in a tree held in memory: a storage says whether a path exists and what the file there holds. Paths
are texts with slashes between names; they are joined and shown as written.

A tree in memory is given by its files and directories. A path is followed name by name, starting
in the root of the tree; `..` leads back, and beyond the root there is nothing but directories.

## Main definitions

* `Path.join` — the path of a file looked up in a directory
* `Storage` — access to files within a monad
* `FileTree`, `FileTree.ofPaths` — a tree in memory
* `FileTree.locate` — where a path leads
* `FileTree.storage` — the storage of a tree
-/

namespace SignalScript

/-- The path of a file looked up in a directory; a path from the root stands for itself. -/
def Path.join (directory file : Text) : Text :=
  match file with
  | '/' :: _ => file
  | _ =>
    if directory.isEmpty || directory.getLast? = some '/' then directory ++ file
    else directory ++ '/' :: file

/-- Access to files. -/
structure Storage (m : Type → Type) where
  /-- Something lies at the path. -/
  isPresent : Text → m Bool
  /-- The bytes of the file at the path. -/
  read : Text → m (Except ReadError (List UInt8))

/-- A tree of files. Places are lists of names, from the root on. -/
structure FileTree where
  files : List (List Text × List UInt8)
  /-- Directories that need not hold a file. -/
  directories : List (List Text)

namespace FileTree

/-- The names of a path that lead somewhere. -/
def names (path : Text) : List Text :=
  (Text.pieces '/' path).filter fun name => name ≠ [] && name ≠ ['.']

/-- The tree with files and directories at given paths. -/
def ofPaths (files : List (Text × List UInt8)) (directories : List Text) : FileTree :=
  ⟨files.map fun (path, bytes) => (names path, bytes), directories.map names⟩

/-- The bytes of the file at a place. -/
def file? (tree : FileTree) (place : List Text) : Option (List UInt8) := tree.files.lookup place

/-- There is a directory at a place: the root, a directory of the tree, or one that a file or
directory lies in. -/
def isDirectory (tree : FileTree) (place : List Text) : Bool :=
  place.isEmpty || tree.directories.any (place.isPrefixOf ·) ||
    tree.files.any fun (path, _) => place.isPrefixOf path && place ≠ path

/-- Where a path leads. -/
inductive Location
  | inside (place : List Text)
  /-- A directory outside the tree. -/
  | outside
  deriving DecidableEq, Repr

/-- Follows one name of a path. -/
def step (tree : FileTree) (location : Location) (name : Text) : Except ReadError Location :=
  match location with
  | .outside =>
    if name = [] ∨ name = ['.'] ∨ name = ['.', '.'] then .ok .outside else .error .notFound
  | .inside place =>
    if (tree.file? place).isSome then .error .notDirectory
    else if name = [] ∨ name = ['.'] then .ok location
    else if name = ['.', '.'] then
      if place.isEmpty then .ok .outside else .ok (.inside place.dropLast)
    else
      let next := place ++ [name]
      if (tree.file? next).isSome || tree.isDirectory next then .ok (.inside next)
      else .error .notFound

/-- Where a path leads; the empty path leads nowhere. -/
def locate (tree : FileTree) (path : Text) : Except ReadError Location :=
  match path with
  | [] => .error .notFound
  | '/' :: rest => (Text.pieces '/' rest).foldlM tree.step .outside
  | _ => (Text.pieces '/' path).foldlM tree.step (.inside [])

/-- The bytes of the file that a path leads to. -/
def read (tree : FileTree) (path : Text) : Except ReadError (List UInt8) :=
  match tree.locate path with
  | .error error => .error error
  | .ok .outside => .error .isDirectory
  | .ok (.inside place) =>
    match tree.file? place with
    | some bytes => .ok bytes
    | none => .error .isDirectory

/-- The storage of a tree. -/
def storage (tree : FileTree) : Storage Id where
  isPresent path := (tree.locate path).isOk
  read path := tree.read path

end FileTree

end SignalScript
