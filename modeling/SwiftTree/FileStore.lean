/-!
# Files

A file store is a working directory with its files, each named by the components of its path. A
path is followed component by component: an empty component and a single dot stay where they are,
two dots go back to the directory above, and only a directory can be followed further. Of what lies
outside the working directory only the files in the store are known; their components begin with a
slash, or with two dots for each directory above.
-/

namespace SwiftTree

/-- What a file holds: a text, or bytes that encode none. -/
inductive Content
  | text (text : String)
  | binary (bytes : List UInt8)
  deriving DecidableEq, Repr

/-- A working directory with its files, and directories that may have none. -/
structure FileStore where
  files : List (List String × Content)
  directories : List (List String) := []
  deriving DecidableEq, Repr

/-- What is found at a path. -/
inductive FileEntry
  | file (components : List String) (content : Content)
  | directory (components : List String)
  deriving DecidableEq, Repr

def pathComponents (path : String) : List String :=
  (path.toList.splitOn '/').map String.ofList

/-- The directory in which a path starts. -/
def pathStart (path : String) : List String :=
  if path.toList.head? = some '/' then ["/"] else []

def parentDirectory (directory : List String) : List String :=
  if directory = ["/"] then directory
  else if directory.all (· == "..") then directory ++ [".."]
  else directory.dropLast

/-- Where one component of a path leads from a directory. -/
def stepInto (directory : List String) (component : String) : List String :=
  if component.isEmpty || component == "." then directory
  else if component == ".." then parentDirectory directory
  else directory ++ [component]

/-- The components that name what a path leads to. -/
def place (path : String) : List String :=
  (pathComponents path).foldl stepInto (pathStart path)

/-- The path of the directory in which a path ends. Components that lead nowhere do not count. -/
def directoryOf (path : String) : String :=
  let stays (component : String) : Bool := component.isEmpty || component == "."
  match (pathComponents path).reverse.dropWhile stays with
  | [] => "."
  | _ :: above =>
    match above.dropWhile stays with
    | [] => if pathStart path = [] then "." else "/"
    | above => "/".intercalate above.reverse

namespace FileStore

/-- A store with files and directories named by paths. -/
def ofFiles (files : List (String × Content)) (directories : List String := []) : FileStore :=
  ⟨files.map fun (path, content) => (place path, content), directories.map place⟩

/-- The file or directory with some components. The working directory itself has none. -/
def get? (store : FileStore) (components : List String) : Option FileEntry :=
  match store.files.lookup components with
  | some content => some (.file components content)
  | none =>
    if components.isEmpty || store.directories.contains components ||
        store.files.any fun (file, _) => components.isPrefixOf file then
      some (.directory components)
    else none

/-- Follows the components of a path from a directory. -/
def follow? (store : FileStore) (directory : List String) : List String → Option FileEntry
  | [] => store.get? directory
  | component :: rest =>
    match store.get? directory with
    | some (.directory _) => store.follow? (stepInto directory component) rest
    | _ => none

def find? (store : FileStore) (path : String) : Option FileEntry :=
  if path.isEmpty then none else store.follow? (pathStart path) (pathComponents path)

def read? (store : FileStore) (path : String) : Option Content :=
  match store.find? path with
  | some (.file _ content) => some content
  | _ => none

/-- The store with a text in the file with some components. -/
def rewritten (store : FileStore) (target : List String) (text : String) : FileStore :=
  { store with files := store.files.map fun (file, content) =>
      (file, if file = target then .text text else content) }

/-- Whether one list of components comes before another or equals it. -/
def componentsLe : List String → List String → Bool
  | [], _ => true
  | _ :: _, [] => false
  | a :: as, b :: bs => a < b || (a == b && componentsLe as bs)

/-- The files in a directory and the directories below it, in the order of their components. Each is
given by its components below the directory. -/
def filesBelow (store : FileStore) (directory : List String) : List (List String) :=
  let below := store.files.filterMap fun (file, _) =>
    if directory.isPrefixOf file && directory.length < file.length then
      some (file.drop directory.length)
    else none
  below.mergeSort componentsLe

end FileStore

end SwiftTree
