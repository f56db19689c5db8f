import DependencyFiles.Provider.Basic

/-!
# Providers with answers replaced

A provider may be wrapped so that some listings or submodule targets get other answers; of
several for one path the last one counts. The wrapped provider is still asked for listings,
and its answer is thrown away.
-/

namespace DependencyFiles.Provider

variable {σ : Type}

/-- Answer listings of some paths of some repositories, at any commit, with other entries. -/
def withListings (provider : Provider σ) (listings : List ((String × TreePath) × List Entry)) :
    Provider σ :=
  { provider with
    list := fun repo commit path state =>
      let (answer, state) := provider.list repo commit path state
      (((listings.reverse.lookup (repo, path)).map Except.ok).getD answer, state) }

/-- Answer with other targets for the submodules at some paths. -/
def withTargets (provider : Provider σ) (targets : List (TreePath × Answer RepoRef)) : Provider σ :=
  { provider with
    target := fun entry state =>
      match targets.reverse.lookup entry.path with
      | some answer => (answer, state)
      | none => provider.target entry state }

end DependencyFiles.Provider
