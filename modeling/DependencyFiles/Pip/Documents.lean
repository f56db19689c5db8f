import DependencyFiles.Ecosystem.Reference
import DependencyFiles.Json.Reader
import DependencyFiles.Text.Basic
import DependencyFiles.Toml.DateTable
import DependencyFiles.Toml.Reader

/-!
# References in structured documents

`Pipfile` and `pyproject.toml` declare packages in tables by name, where a package with a
path is a local one; their lock files record them as objects or tables. Tables and objects
are read in ascending order of names, and a malformed document has no references.
-/

namespace DependencyFiles.Pip

open Toml (Value)

/-- A reference to a local package. -/
def dependency (origin name path : String) : Reference := ⟨.pathDependency name, path, origin⟩

/-- The entry of a table that may be missing. -/
def at? (key : String) (value : Option Value) : Option Value := value.bind (·.valueAt? key)

/-- The entries of a table that may be missing, in ascending order of keys. -/
def sortedEntries (value : Option Value) : List (String × Value) :=
  Keyed.sorted ((value.bind (·.entries?)).getD [])

/-- The value of a TOML text, whose tables may spell dates. -/
def document? (content : String) : Option Value := (Toml.read? content).bind Toml.settle?

/-- The local packages in a table of packages. -/
def tableDependencies (origin : String) (table : Option Value) : List Reference :=
  (sortedEntries table).filterMap fun (name, specification) =>
    (at? "path" (some specification)).bind (·.string?) |>.map (dependency origin name)

/-- The local packages of a `Pipfile`. -/
def pipfileReferences (content origin : String) : List Reference :=
  match document? content with
  | none => []
  | document =>
    tableDependencies origin (at? "packages" document) ++
      tableDependencies origin (at? "dev-packages" document)

/-- The local packages of a `pyproject.toml`: those of Poetry, then the sources of uv. -/
def pyprojectReferences (content origin : String) : List Reference :=
  match document? content with
  | none => []
  | document =>
    let tool := at? "tool" document
    let poetry := at? "poetry" tool
    tableDependencies origin (at? "dependencies" poetry) ++
      tableDependencies origin (at? "dev-dependencies" poetry) ++
      (sortedEntries (at? "group" poetry)).flatMap (fun (_, group) =>
        tableDependencies origin (at? "dependencies" (some group))) ++
      tableDependencies origin (at? "sources" (at? "uv" tool))

/-- The local packages in a section of a `Pipfile.lock`. -/
def sectionDependencies (origin : String) (entries : Option Json) : List Reference :=
  ((entries.bind (·.members?)).getD []).filterMap fun (name, entry) =>
    ((entry.member? "path").bind (·.string?)).map (dependency origin name)

/-- The local packages of a `Pipfile.lock`. -/
def pipfileLockReferences (content origin : String) : List Reference :=
  match Json.read? content with
  | none => []
  | some document =>
    sectionDependencies origin (document.member? "default") ++
      sectionDependencies origin (document.member? "develop")

/-- The local package of an entry of a `poetry.lock`; its directory names it when nothing else does. -/
def lockedDependency? (origin : String) (package : Value) : Option Reference := do
  let source ← package.valueAt? "source"
  let kind := (source.valueAt? "type").bind (·.string?)
  if kind ≠ some "directory" then none
  let path ← (← source.valueAt? "url").string?
  let name := ((package.valueAt? "name").bind (·.string?)).getD
    (String.ofList (Text.basename path.toList))
  some (dependency origin name path)

/-- The local packages of a `poetry.lock`. -/
def poetryLockReferences (content origin : String) : List Reference :=
  match (at? "package" (document? content)).bind (·.items?) with
  | none => []
  | some packages => packages.filterMap (lockedDependency? origin)

end DependencyFiles.Pip
