import DependencyFiles.Ecosystem.MergeConflict

/-!
# Package ecosystems

An ecosystem knows the names of its manifests, lock files and package specifications and
finds the references in them. It only reads texts: it asks no provider and runs no code.
-/

namespace DependencyFiles

/-- The conventions of one package ecosystem. -/
structure Ecosystem where
  id : String
  /-- The names that a primary manifest may have, preferred ones first. -/
  manifests : List String
  /-- The lock file that goes with a primary manifest. -/
  lockfileOf : (manifest : String) → Option String
  /-- Whether the text of a manifest shows that its lock file must exist. -/
  needsLockfile : (content : String) → Bool := fun _ => false
  /-- The references in a file. -/
  references : (content origin : String) → Except ScanError (List Reference)
  /-- What a lock file says. -/
  scanLockfile : (content origin : String) → Except ScanError LockScan :=
    fun content origin => unlessConflict content origin {}
  /-- Whether a file name is that of a package specification. -/
  isSpecification : String → Bool
  /-- Whether a file name is that of a specification that belongs to a manifest beside it. -/
  isBesideManifest : String → Bool := isSpecification
  /-- The file that shows a package where no specification is found. -/
  marker : String

end DependencyFiles
