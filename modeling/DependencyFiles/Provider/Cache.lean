import DependencyFiles.Provider.Basic
import DependencyFiles.Text.Quoted

/-!
# Asking a provider only once

Answers to references, listings and reads are kept, failures included, and every later
question of the same kind with the same key gets the kept answer. Submodule targets are
asked for anew each time.
-/

namespace DependencyFiles

/-- The answers kept for one kind of question, oldest first. -/
abbrev Kept (κ α : Type) := List (κ × Answer α)

/-- The kept answer under a key, or a new answer that is kept from now on. -/
def Kept.ask {κ α σ : Type} [BEq κ] (kept : Kept κ α) (key : κ) (query : Query σ α) (inner : σ) :
    Answer α × Kept κ α × σ :=
  match List.lookup key kept with
  | some answer => (answer, kept, inner)
  | none =>
    let (answer, inner) := query inner
    (answer, kept ++ [(key, answer)], inner)

/-- A provider's state together with the answers it has given. -/
structure Cached (σ : Type) where
  inner : σ
  commits : Kept (String × String) CommitId := []
  listings : Kept (Checkout × TreePath) (List Entry) := []
  contents : Kept (Checkout × TreePath) Bytes := []

namespace Cached

variable {σ : Type}

/-- The commit that a reference names. -/
def resolve (provider : Provider σ) (repo reference : String) : Query (Cached σ) CommitId :=
  fun cached =>
    let (answer, commits, inner) :=
      cached.commits.ask (repo, reference) (provider.resolve repo reference) cached.inner
    (answer, { cached with commits, inner })

/-- The checkout of the commit that a reference names. -/
def openCheckout (provider : Provider σ) (repo reference : String) : Query (Cached σ) Checkout :=
  fun cached =>
    let (answer, cached) := resolve provider repo reference cached
    (answer.map fun commit => ⟨provider.name, repo, commit⟩, cached)

/-- The entries of a directory of a checkout. -/
def list (provider : Provider σ) (checkout : Checkout) (path : TreePath) :
    Query (Cached σ) (List Entry) :=
  fun cached =>
    let (answer, listings, inner) :=
      cached.listings.ask (checkout, path) (provider.list checkout.repo checkout.commit path)
        cached.inner
    (answer, { cached with listings, inner })

/-- The content of a file of a checkout. -/
def read (provider : Provider σ) (checkout : Checkout) (path : TreePath) :
    Query (Cached σ) Bytes :=
  fun cached =>
    let (answer, contents, inner) :=
      cached.contents.ask (checkout, path) (provider.read checkout.repo checkout.commit path)
        cached.inner
    (answer, { cached with contents, inner })

/-- Where a submodule points. -/
def target (provider : Provider σ) (entry : Entry) : Query (Cached σ) RepoRef :=
  fun cached =>
    let (answer, inner) := provider.target entry cached.inner
    (answer, { cached with inner })

/-- How many listings have been asked for. -/
def listingCount (cached : Cached σ) : Nat := cached.listings.length

/-- How many files have been asked for. -/
def readCount (cached : Cached σ) : Nat := cached.contents.length

/-- A one-line account of the cache. -/
def describe (provider : Provider σ) (cached : Cached σ) : String :=
  "CachingClient \x7b provider: " ++ Text.quote provider.name ++ ", listings: " ++
    toString cached.listingCount ++ ", reads: " ++ toString cached.readCount ++ " \x7d"

end Cached

end DependencyFiles
