import DependencyFiles.Repo.Entry
import DependencyFiles.Text.Utf8

/-!
# Providers of repository contents

A provider answers four questions about repositories: which commit a reference names,
what a directory lists, what a file holds and where a submodule points. Answers may fail
and may change the provider's own state.
-/

namespace DependencyFiles

/-- Why a provider gives no answer. Only `notFound` says something about the repository. -/
inductive ProviderError where
  | notFound (resource : String)
  | unauthorized (message : String)
  | rateLimited (retryAfter : Option Nat)
  | transient (message : String)
  | other (message : String)
  deriving DecidableEq, Repr

namespace ProviderError

/-- The wording of an error. -/
def message : ProviderError → String
  | notFound resource => "Not found: " ++ resource
  | unauthorized text => "Authentication failed: " ++ text
  | rateLimited none => "Rate limit exceeded"
  | rateLimited (some seconds) => "Rate limit exceeded, retry after " ++ toString seconds ++ "s"
  | transient text => "Transient failure: " ++ text
  | other text => "Content client error: " ++ text

/-- Whether the error says that the thing asked for does not exist. -/
def isNotFound : ProviderError → Bool
  | notFound _ => true
  | _ => false

end ProviderError

/-- The answer to a question put to a provider. -/
abbrev Answer (α : Type) := Except ProviderError α

/-- A question put to a provider with state `σ`. -/
abbrev Query (σ α : Type) := σ → Answer α × σ

/-- Read-only access to the repositories of one hosting service. -/
structure Provider (σ : Type) where
  name : String
  /-- The commit that a reference of a repository names. -/
  resolve : (repo reference : String) → Query σ CommitId
  /-- The entries of a directory; of a file or a submodule, the one entry of the path itself. -/
  list : (repo : String) → CommitId → TreePath → Query σ (List Entry)
  /-- The content of a file. -/
  read : (repo : String) → CommitId → TreePath → Query σ Bytes
  /-- Where a submodule points. -/
  target : Entry → Query σ RepoRef

/-- The target that an entry carries with it, which most providers answer with. -/
def Entry.target? (entry : Entry) : Answer RepoRef :=
  match entry.submodule with
  | some target => .ok target
  | none => .error (.other (entry.path.toString ++ " is not a submodule"))

end DependencyFiles
