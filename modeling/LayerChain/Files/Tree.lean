import LayerChain.Files.Basic
import LayerChain.Files.Path

/-!
# File systems as values

A `FileTree` holds files and directories below a current directory, as a value: a file system for
tests, for rehearsals, and for reasoning about what the program does to files.

A place in the tree is the list of names that leads to it from the current directory. A place that
consists of `..` alone is an ancestor of the current directory; the ancestors are directories of
which nothing else is known.
-/

namespace LayerChain

/-- What is in a place. -/
inductive FileNode where
  | file (content : Content)
  | directory
deriving DecidableEq

/-- Files and directories by their places; of several nodes in one place the first counts. -/
structure FileTree where
  nodes : List (List String × FileNode)

namespace FileTree

/-- A current directory without files. -/
def empty : FileTree := ⟨[]⟩

/-- Whether a place is the current directory or an ancestor of it. -/
def isAncestor (place : List String) : Bool := place.all (· == "..")

/-- What is in a place, if anything is. -/
def node? (tree : FileTree) (place : List String) : Option FileNode :=
  if isAncestor place then some .directory
  else (tree.nodes.find? fun n => n.1 == place).map Prod.snd

/-- The tree with a node in a place. -/
def put (tree : FileTree) (place : List String) (node : FileNode) : FileTree :=
  ⟨(place, node) :: tree.nodes.filter fun n => n.1 != place⟩

/-- The place that a name leads to from a directory. -/
def descend (place : List String) (name : String) : List String :=
  if Path.isSelf name then place
  else if name = ".." ∧ !isAncestor place then place.dropLast
  else place ++ [name]

/-- The place that names lead to. Each of them must start from a directory. -/
def walk (tree : FileTree) (place : List String) : List String → Except FileFault (List String)
  | [] => .ok place
  | name :: rest =>
    match tree.node? place with
    | some .directory =>
      if Path.isTooLong name then .error .nameTooLong else tree.walk (descend place name) rest
    | some (.file _) => .error .notDirectory
    | none => .error .notFound

/-- The names of a path, if it can lead anywhere: only paths below the current directory do. -/
def namesOf (path : String) : Except FileFault (List String) :=
  if '\x00' ∈ path.toList then .error .nulInPath
  else if Path.maxPath < path.utf8ByteSize then .error .nameTooLong
  else if path = "" ∨ path.toList.head? = some '/' then .error .notFound
  else .ok (Path.names path)

/-! ## Looking -/

/-- What is at a path. -/
def find (tree : FileTree) (path : String) : Except FileFault FileNode := do
  let place ← tree.walk [] (← namesOf path)
  match tree.node? place with
  | some node => return node
  | none => throw .notFound

/-- The content of the file at a path. -/
def read (tree : FileTree) (path : String) : Except FileFault Content := do
  match ← tree.find path with
  | .file content => return content
  | .directory => throw .isDirectory

/-- Whether there is something at a path. -/
def pathExists (tree : FileTree) (path : String) : Bool := (tree.find path).isOk

/-- Whether there is a directory at a path. -/
def isDirectory (tree : FileTree) (path : String) : Bool :=
  match tree.find path with
  | .ok .directory => true
  | _ => false

/-! ## Changing -/

/-- The directory that the last name of a path stands in, which must be there, and that name.
Slashes after it do not count. -/
def entry (tree : FileTree) (path : String) : Except FileFault (List String × String) := do
  let names ← namesOf path
  let named := (names.reverse.dropWhile (· == "")).reverse
  let directory ← tree.walk [] (named.dropLast ++ ["."])
  return (directory, named.getLastD "")

/-- The tree with a text in the file at a path. -/
def write (tree : FileTree) (path text : String) : Except FileFault FileTree := do
  let (directory, name) ← tree.entry path
  -- a slash at the end asks for a directory
  if path.toList.getLast? = some '/' then throw .isDirectory
  let place ← tree.walk directory [name]
  match tree.node? place with
  | some .directory => throw .isDirectory
  | _ => return tree.put place (.file (Content.ofString text))

/-- The tree with a new directory at a path. -/
def makeDirectory (tree : FileTree) (path : String) : Except FileFault FileTree := do
  let (directory, name) ← tree.entry path
  let place ← tree.walk directory [name]
  match tree.node? place with
  | some _ => throw .alreadyExists
  | none => return tree.put place .directory

/-- Goes on with the changed tree, if there is one. -/
def commit (tree : FileTree) (changed : Except FileFault FileTree) :
    Except FileFault Unit × FileTree :=
  match changed with
  | .ok after => (.ok (), after)
  | .error fault => (.error fault, tree)

instance : FileSystem (StateM FileTree) where
  read path := fun tree => (tree.read path, tree)
  write path text := fun tree => tree.commit (tree.write path text)
  pathExists path := fun tree => (tree.pathExists path, tree)
  isDirectory path := fun tree => (tree.isDirectory path, tree)
  makeDirectory path := fun tree => tree.commit (tree.makeDirectory path)

end FileTree

end LayerChain
