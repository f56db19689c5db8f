/-!
# References found in dependency files

A manifest or lock file refers to other manifests, to local directories that hold a
package, and to small supporting files. A reference keeps the path as it is written and
the file that it stands in.
-/

namespace DependencyFiles

/-- What a reference asks for. -/
inductive Reference.Kind where
  /-- A file that must exist and is searched for references itself. -/
  | childManifest
  /-- A directory that should hold the specification of the named package. -/
  | pathDependency (name : String)
  /-- A file that is taken along when it exists. -/
  | supportFile
  deriving DecidableEq, Repr

/-- A reference from one file to another file or directory. -/
structure Reference where
  kind : Reference.Kind
  /-- The path as written, relative to the directory of the file it stands in. -/
  path : String
  /-- The file that the reference stands in. -/
  origin : String
  deriving DecidableEq, Repr

/-- Whether the reference asks for a local package. -/
def Reference.isPathDependency (reference : Reference) : Bool :=
  match reference.kind with
  | .pathDependency _ => true
  | _ => false

/-- Why the references of a file cannot be told. -/
inductive ScanError where
  /-- A reference is declared by an expression whose value is not known. -/
  | unresolvable (origin expression : String)
  | mergeConflict (origin : String)
  deriving DecidableEq, Repr

/-- The wording of an error. -/
def ScanError.message : ScanError → String
  | unresolvable origin expression =>
    "Unsupported reference in " ++ origin ++ ": could not resolve `" ++ expression ++ "` to a path"
  | mergeConflict origin => "Unresolved merge conflict markers in " ++ origin

/-- What a lock file says. -/
structure LockScan where
  references : List Reference := []
  /-- Whether path dependencies come from the lock file alone. -/
  authoritative : Bool := false
  deriving DecidableEq, Repr

end DependencyFiles
