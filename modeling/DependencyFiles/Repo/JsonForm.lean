import DependencyFiles.Decode.Record
import DependencyFiles.Repo.Entry

/-!
# JSON forms of repository data

How paths, commits, entries, checkouts and sources are written in JSON and read back.
Paths are written as their text and cleaned when read.
-/

namespace DependencyFiles

/-- A path as JSON. -/
def TreePath.toJson (p : TreePath) : Json := .string p.toString

/-- A path from JSON. -/
def TreePath.ofJson (value : Json) : Except ShapeError TreePath := do
  return TreePath.ofString (← value.asText)

/-- A commit from JSON. -/
def CommitId.ofJson (value : Json) : Except ShapeError CommitId := do
  return ⟨← value.asText⟩

/-- A commit as JSON. -/
def CommitId.toJson (commit : CommitId) : Json := .string commit.id

namespace Entry.Kind

/-- The written name of a kind of entry. -/
def name : Entry.Kind → String
  | file => "file"
  | directory => "directory"
  | submodule => "submodule"

/-- The names of all kinds, in order. -/
def names : List String := [file.name, directory.name, submodule.name]

/-- The kind with a written name. -/
def ofName (text : String) : Except ShapeError Entry.Kind :=
  if text = file.name then .ok file
  else if text = directory.name then .ok directory
  else if text = submodule.name then .ok submodule
  else .error (.unknownVariant text names)

/-- A kind from JSON: its name, or an object whose only key is its name and whose value is null. -/
def ofJson : Json → Except ShapeError Entry.Kind
  | .string text => ofName text
  | .object [(text, value)] => do
    let kind ← ofName text
    match value with
    | .null => return kind
    | value => .error (.invalidType (Shape.ofJson value) "unit")
  | .object _ => .error (.invalidValue .map "map with a single key")
  | value => .error (.invalidType (Shape.ofJson value) "string or map")

/-- A kind as JSON. -/
def toJson (kind : Entry.Kind) : Json := .string kind.name

end Entry.Kind

namespace RepoRef

/-- Fields of a reference gathered so far. -/
structure Draft where
  repo : Option String := none
  reference : Option String := none

/-- The JSON form of a reference. -/
def format : RecordFormat Draft RepoRef where
  name := "SubmoduleTarget"
  fields := ["repo", "reference"]
  start := {}
  read field value draft :=
    match field with
    | "repo" => do return { draft with repo := ← value.asText }
    | "reference" => do return { draft with reference := ← value.asText }
    | _ => .ok draft
  finish missing draft := do
    return ⟨← required missing "repo" draft.repo, ← required missing "reference" draft.reference⟩

/-- A reference as JSON. -/
def toJson (target : RepoRef) : Json :=
  .object [("reference", .string target.reference), ("repo", .string target.repo)]

end RepoRef

namespace Entry

/-- Fields of an entry gathered so far. -/
structure Draft where
  name : Option String := none
  path : Option TreePath := none
  kind : Option Kind := none
  /-- What is written for the submodule, which may be nothing. -/
  submodule : Option (Option RepoRef) := none

/-- The JSON form of an entry; an object may leave the submodule out. -/
def format : RecordFormat Draft Entry where
  name := "DirectoryEntry"
  fields := ["name", "path", "kind", "submodule"]
  start := {}
  read field value draft :=
    match field with
    | "name" => do return { draft with name := ← value.asText }
    | "path" => do return { draft with path := ← TreePath.ofJson value }
    | "kind" => do return { draft with kind := ← Kind.ofJson value }
    | "submodule" => do
      let target ← value.asOptional RepoRef.format.decode
      return { draft with submodule := some target }
    | _ => .ok draft
  finish missing draft := do
    let name ← required missing "name" draft.name
    let path ← required missing "path" draft.path
    let kind ← required missing "kind" draft.kind
    let submodule ←
      match draft.submodule, missing "submodule" with
      | some submodule, _ => .ok submodule
      | none, .missingField _ => .ok none
      | none, fault => .error fault
    return ⟨name, path, kind, submodule⟩

/-- An entry as JSON. -/
def toJson (entry : Entry) : Json :=
  .object [("kind", entry.kind.toJson), ("name", .string entry.name), ("path", entry.path.toJson),
    ("submodule", (entry.submodule.map RepoRef.toJson).getD .null)]

end Entry

namespace Checkout

/-- Fields of a checkout gathered so far. -/
structure Draft where
  provider : Option String := none
  repo : Option String := none
  commit : Option CommitId := none

/-- The JSON form of a checkout. -/
def format : RecordFormat Draft Checkout where
  name := "SourceContext"
  fields := ["provider", "repo", "commit"]
  start := {}
  read field value draft :=
    match field with
    | "provider" => do return { draft with provider := ← value.asText }
    | "repo" => do return { draft with repo := ← value.asText }
    | "commit" => do return { draft with commit := ← CommitId.ofJson value }
    | _ => .ok draft
  finish missing draft := do
    return ⟨← required missing "provider" draft.provider, ← required missing "repo" draft.repo,
      ← required missing "commit" draft.commit⟩

/-- A checkout as JSON. -/
def toJson (checkout : Checkout) : Json :=
  .object [("commit", checkout.commit.toJson), ("provider", .string checkout.provider),
    ("repo", .string checkout.repo)]

end Checkout

namespace Source

/-- Fields of a source gathered so far. -/
structure Draft where
  provider : Option String := none
  repo : Option String := none
  reference : Option String := none
  directory : TreePath := TreePath.root

/-- The JSON form of a source; its reference and its directory may be left out. -/
def format : RecordFormat Draft Source where
  name := "SourceDescriptor"
  fields := ["provider", "repo", "reference", "directory"]
  start := {}
  read field value draft :=
    match field with
    | "provider" => do return { draft with provider := ← value.asText }
    | "repo" => do return { draft with repo := ← value.asText }
    | "reference" => do return { draft with reference := ← value.asOptional Json.asText }
    | "directory" => do return { draft with directory := ← TreePath.ofJson value }
    | _ => .ok draft
  finish missing draft := do
    return ⟨← required missing "provider" draft.provider, ← required missing "repo" draft.repo,
      draft.reference, draft.directory⟩

/-- A source as JSON. -/
def toJson (source : Source) : Json :=
  .object [("directory", source.directory.toJson), ("provider", .string source.provider),
    ("reference", (source.reference.map Json.string).getD .null), ("repo", .string source.repo)]

end Source

end DependencyFiles
