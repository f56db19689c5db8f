import DependencyFiles.Repo.Checkout

/-!
# Directory entries

What a listing says about one file, directory or submodule.
-/

namespace DependencyFiles

/-- What a directory entry is. -/
inductive Entry.Kind where
  | file
  | directory
  | submodule
  deriving DecidableEq, Repr, Inhabited

/-- One line of a directory listing. -/
structure Entry where
  /-- The last segment of the path, empty for the root. -/
  name : String
  path : TreePath
  kind : Entry.Kind
  /-- Where a submodule points. -/
  submodule : Option RepoRef
  deriving DecidableEq

namespace Entry

/-- The entry of a path, named after its last segment. -/
def named (path : TreePath) (kind : Kind) (submodule : Option RepoRef) : Entry :=
  ⟨path.name?.getD "", path, kind, submodule⟩

/-- The entry of a file. -/
def ofFile (path : TreePath) : Entry := named path .file none

/-- The entry of a directory. -/
def ofDirectory (path : TreePath) : Entry := named path .directory none

/-- The entry of a submodule. -/
def ofSubmodule (path : TreePath) (target : RepoRef) : Entry := named path .submodule (some target)

/-- Whether the entry is a file. -/
def isFile (e : Entry) : Bool := e.kind == .file

/-- Whether the entry is a directory. -/
def isDirectory (e : Entry) : Bool := e.kind == .directory

/-- Whether the entry is a submodule. -/
def isSubmodule (e : Entry) : Bool := e.kind == .submodule

/-- The one entry of a listing of something that is no directory: the entry of the listed path. -/
def single? (entries : List Entry) (path : TreePath) : Option Entry :=
  match entries with
  | [entry] => if entry.path = path then some entry else none
  | _ => none

end Entry

end DependencyFiles
