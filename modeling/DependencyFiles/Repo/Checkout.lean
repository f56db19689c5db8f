import DependencyFiles.Repo.TreePath

/-!
# Repositories and their commits

A checkout is a repository at one commit. A source is what a caller asks for: a directory
of a repository at a reference that may be left open.
-/

namespace DependencyFiles

/-- The identity of a commit, which only its provider interprets. -/
structure CommitId where
  id : String
  deriving DecidableEq, Repr, Inhabited

instance : ToString CommitId := ⟨CommitId.id⟩

/-- A repository of some provider at one commit. -/
structure Checkout where
  provider : String
  repo : String
  commit : CommitId
  deriving DecidableEq, Repr, Inhabited

instance : ToString Checkout := ⟨fun c => c.provider ++ ":" ++ c.repo ++ "@" ++ c.commit.id⟩

/-- A branch, tag or commit of a repository, by name. -/
structure RepoRef where
  repo : String
  reference : String
  deriving DecidableEq, Repr, Inhabited

/-- The directory that a caller wants the dependency files of. -/
structure Source where
  provider : String
  repo : String
  /-- The branch, tag or commit; the settings name one when it is missing. -/
  reference : Option String := none
  directory : TreePath := TreePath.root
  deriving DecidableEq

end DependencyFiles
