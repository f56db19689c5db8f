import DependencyFiles.Repo.JsonForm
import DependencyFiles.Text.Utf8

/-!
# Collected files

A collected file knows its content, where it was read and why it belongs to the result.
-/

namespace DependencyFiles

/-- Why a file was collected. -/
inductive DependencyFile.Role where
  /-- The primary manifest. -/
  | manifest
  | lockfile
  /-- A file that another file includes. -/
  | childManifest
  /-- What describes a package: a specification or a marker. -/
  | specification
  /-- A file that is taken along when it exists. -/
  | support
  deriving DecidableEq, Repr

/-- A file of the result. -/
structure DependencyFile where
  /-- The path from the requested directory. -/
  path : String
  content : Bytes
  checkout : Checkout
  /-- The path in the repository of the checkout. -/
  repoPath : TreePath
  role : DependencyFile.Role
  deriving DecidableEq

/-- The written name of a role. -/
def DependencyFile.Role.name : DependencyFile.Role → String
  | manifest => "manifest"
  | lockfile => "lockfile"
  | childManifest => "child_manifest"
  | specification => "specification"
  | support => "support"

namespace DependencyFile

/-- The last segment of the path in the repository. -/
def fileName (file : DependencyFile) : String := file.repoPath.name?.getD file.path

/-- The content as text, with replacement characters for what is not UTF-8. -/
def text (file : DependencyFile) : String := Text.decodeLossy file.content

/-- Where the content was read: the checkout and the path in it. -/
def key (file : DependencyFile) : Checkout × TreePath := (file.checkout, file.repoPath)

/-- A file as JSON. -/
def toJson (file : DependencyFile) : Json :=
  .object [("content", .array (file.content.map fun b => .integer b.toNat)),
    ("context", file.checkout.toJson), ("path", .string file.path),
    ("repo_path", file.repoPath.toJson), ("role", .string file.role.name)]

end DependencyFile

end DependencyFiles
