import JitTrace.Files.View

/-!
# Trees of files

A file system held in memory: a working directory with the directories and files
below it. Of the directories around it nothing is known but that they are there
and what has been written to them, and below the root there is only the null
device, which is always empty.
-/

namespace JitTrace

/-- The directories and files that are known, by the names that lead to them from
the working directory. Names that start with `..` lead to the directories around
it, and names that start with a slash lead there from the root. -/
structure FileTree where
  directories : List (List String) := []
  files : List (List String × List UInt8) := []

/-- Where a path leads. -/
inductive Place where
  | directory (names : List String)
  | file (names : List String)
deriving DecidableEq, Repr

namespace FileTree

/-- The longest name that a file can have, in bytes. -/
def longestName : Nat := 255

/-- The longest path that is looked up, in bytes. -/
def longestPath : Nat := 4095

/-- The root of the file system. -/
def root : List String := ["/"]

/-- The file that forgets what is written to it. -/
def nullDevice : List String := ["/", "dev", "null"]

/-- Whether names lead to the working directory or to one around it. -/
def isAround (names : List String) : Bool :=
  names.all (· == "..")

/-- The names that lead to the parent of a directory. The root is its own. -/
def parent (names : List String) : List String :=
  if names == root then root
  else if isAround names then names ++ [".."]
  else names.dropLast

/-- Whether names lead to a directory. -/
def hasDirectory (tree : FileTree) (names : List String) : Bool :=
  isAround names || names == root || names == nullDevice.dropLast ||
    tree.directories.contains names

/-- The content of a file. -/
def content? (tree : FileTree) (names : List String) : Option (List UInt8) :=
  if names == nullDevice then some []
  else (tree.files.find? fun file => file.1 == names).map (·.2)

/-- Go on from a place by one name. -/
def enter (tree : FileTree) (place : Place) (name : String) : Except IoFault Place :=
  match place with
  | .file _ => .error .notDirectory
  | .directory names =>
    if name == "." then .ok (.directory names)
    else if name == ".." then .ok (.directory (parent names))
    else if longestName < name.utf8ByteSize then .error .nameTooLong
    else
      let inside := names ++ [name]
      if tree.hasDirectory inside then .ok (.directory inside)
      else if (tree.content? inside).isSome then .ok (.file inside)
      else .error .notFound

/-- The place that a path starts from. -/
def start (path : String) : Place :=
  .directory (if Path.isAbsolute path then root else [])

/-- Refuse what is no path at all. -/
def checkPath (path : String) : Except IoFault Unit :=
  if path.toList.contains '\x00' then .error .nulInName
  else if path.isEmpty then .error .notFound
  else if longestPath < path.utf8ByteSize then .error .nameTooLong
  else .ok ()

/-- Where a path leads. -/
def locate (tree : FileTree) (path : String) : Except IoFault Place := do
  checkPath path
  let place ← (Path.names path).foldlM tree.enter (start path)
  match place with
  | .file _ =>
    if path.toList.getLast? == some '/' then throw .notDirectory else return place
  | _ => return place

/-- Read a file. -/
def read (tree : FileTree) (path : String) : Except IoFault (List UInt8) :=
  match tree.locate path with
  | .error fault => .error fault
  | .ok (.file names) => .ok ((tree.content? names).getD [])
  | .ok _ => .error .isDirectory

/-- The tree as a view. -/
def view (tree : FileTree) : FileView where
  read := tree.read

/-- Store a file, replacing one of the same names. -/
def put (tree : FileTree) (names : List String) (content : List UInt8) : FileTree :=
  if names == nullDevice then tree
  else { tree with files := (names, content) :: tree.files.filter fun file => file.1 != names }

/-- The names of the file that writing to a path creates or replaces. The
directory must be there, and nothing new is created below the root. -/
def target (tree : FileTree) (path : String) : Except IoFault (List String) :=
  match tree.locate path with
  | .ok (.file names) => .ok names
  | .ok _ => .error .isDirectory
  | .error .notFound => do
    checkPath path
    let (front, name) := Path.splitLast path
    if name.isEmpty then throw .notFound
    let front ← (Path.names (String.ofList front)).foldlM tree.enter (start path)
    match front with
    | .directory ("/" :: _) => throw .permissionDenied
    | .directory names => return names ++ [String.ofList name]
    | .file _ => throw .notDirectory
  | .error fault => .error fault

/-- Write a file. -/
def write (tree : FileTree) (path : String) (content : List UInt8) : Except IoFault FileTree :=
  (tree.target path).map fun names => tree.put names content

/-- Follow names from the working directory down, whatever is there. -/
def follow (names : List String) : List String :=
  names.foldl
    (fun inside name =>
      if name == "." then inside
      else if name == ".." then parent inside
      else inside ++ [name]) []

/-- The directories on the way along names, the last one included. -/
def leadingNames (names : List String) : List (List String) :=
  (List.range (names.length + 1)).map fun count => follow (names.take count)

/-- Make a directory and those that lead to it. -/
def addDirectory (tree : FileTree) (path : String) : FileTree :=
  { tree with directories := leadingNames (Path.names path) ++ tree.directories }

/-- Add a file and the directories that lead to it. -/
def addFile (tree : FileTree) (path : String) (content : List UInt8) : FileTree :=
  let names := Path.names path
  let tree := { tree with directories := leadingNames names.dropLast ++ tree.directories }
  tree.put (follow names) content

end FileTree

end JitTrace
