import DependencyFiles.Ecosystem.Basic
import DependencyFiles.Pip.Documents
import DependencyFiles.Pip.Requirements

/-!
# Python projects

Requirement files, Pipenv and Poetry, told apart by the names of their files.
-/

namespace DependencyFiles

namespace Pip

/-- The last segment of a file's path. -/
def fileName (origin : String) : String := String.ofList (Text.basename origin.toList)

/-- The references in a file, read according to its name. -/
def references (content origin : String) : Except ScanError (List Reference) :=
  match fileName origin with
  | "Pipfile" => .ok (pipfileReferences content origin)
  | "pyproject.toml" => .ok (pyprojectReferences content origin)
  | "setup.py" => .ok []
  | "setup.cfg" => .ok []
  | _ => requirementReferences content origin

/-- The local packages that a lock file records. -/
def lockedReferences (content origin : String) : List Reference :=
  match fileName origin with
  | "Pipfile.lock" => pipfileLockReferences content origin
  | "poetry.lock" => poetryLockReferences content origin
  | _ => []

/-- What a lock file says; manifests keep their say beside it. -/
def scanLockfile (content origin : String) : Except ScanError LockScan :=
  unlessConflict content origin { references := lockedReferences content origin }

/-- The lock file of a manifest. -/
def lockfileOf : String → Option String
  | "Pipfile" => some "Pipfile.lock"
  | "pyproject.toml" => some "poetry.lock"
  | _ => none

/-- The names of package specifications. -/
def specifications : List String := ["setup.py", "setup.cfg", "pyproject.toml"]

end Pip

/-- The conventions of pip, Pipenv and Poetry. -/
def Ecosystem.pip : Ecosystem where
  id := "pip"
  manifests := ["requirements.txt", "Pipfile", "pyproject.toml"]
  lockfileOf := Pip.lockfileOf
  references := Pip.references
  scanLockfile := Pip.scanLockfile
  isSpecification := Pip.specifications.contains
  marker := "PKG-INFO"

/-- Lists of dependencies in requirement syntax, each with a lock file and one name for
specifications, none of which is taken along with a manifest. -/
def Ecosystem.plain : Ecosystem where
  id := "plain"
  manifests := ["deps.txt"]
  lockfileOf := fun manifest => some (manifest ++ ".lock")
  references := Pip.references
  isSpecification := fun fileName => fileName == "spec.txt"
  isBesideManifest := fun _ => false
  marker := "MARKER"

end DependencyFiles
