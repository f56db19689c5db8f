import DependencyFiles.Collect.Failure
import DependencyFiles.Collect.Settings
import DependencyFiles.Ecosystem.Basic
import DependencyFiles.Provider.Cache

/-!
# Steps of a collection

A collection walks through the trees of one or more checkouts. Each checkout is mounted
somewhere in the tree of the root repository, and a place is a path in a mounted checkout.
Steps ask the provider through its cache, collect files, and note unreachable packages.
-/

namespace DependencyFiles

/-- A checkout and where its root sits in the tree of the root repository. -/
structure Mount where
  checkout : Checkout
  position : TreePath
  deriving DecidableEq

/-- A path in a mounted checkout. -/
structure Place where
  mount : Mount
  path : TreePath
  deriving DecidableEq

namespace Place

/-- Another path in the same checkout. -/
def moveTo (place : Place) (path : TreePath) : Place := { place with path }

/-- A path beneath the place. -/
def child (place : Place) (relative : String) : Place := place.moveTo (place.path.join relative)

/-- A path as written in the file at the place, which is relative to the file's directory. -/
def resolve (place : Place) (relative : String) : Place := place.moveTo (place.path.up.join relative)

/-- The path in the tree of the root repository. -/
def rootPath (place : Place) : TreePath := place.mount.position ++ place.path

/-- What identifies the place's content, wherever it is mounted. -/
def key (place : Place) : Checkout × TreePath := (place.mount.checkout, place.path)

/-- The file that is collected from a place, when the base directory is requested. -/
def toFile (place : Place) (base : TreePath) (role : DependencyFile.Role) (content : Bytes) :
    DependencyFile where
  path := place.rootPath.relativeTo base
  content := content
  checkout := place.mount.checkout
  repoPath := place.path
  role := role

end Place

/-- A reference that waits to be followed. -/
structure Lead where
  reference : Reference
  /-- The file that the reference stands in. -/
  origin : Place
  fromLockfile : Bool
  deriving DecidableEq

/-- What a search for specifications in a directory found out. -/
structure SearchOutcome where
  /-- How many levels down the shallowest specification is, when one was found. -/
  foundAt : Option Nat
  /-- How many levels down the search could go. -/
  budget : Nat
  deriving DecidableEq, Repr

/-- What a search with another budget finds, when the outcome settles it. -/
def SearchOutcome.answer? (outcome : SearchOutcome) (budget : Nat) : Option (Option Nat) :=
  match outcome.foundAt with
  | some depth => some (if depth ≤ budget then some depth else none)
  | none => if budget ≤ outcome.budget then some none else none

/-- How far a collection has come. -/
structure Progress (σ : Type) where
  cached : Cached σ
  /-- The files collected so far, in order. -/
  files : List DependencyFile := []
  /-- The outcomes of searches by directory, latest first. -/
  searched : List ((Checkout × TreePath) × SearchOutcome) := []
  unreachable : List Unreachable := []

/-- Why a step does not come to its end. -/
inductive Halt where
  | failed (failure : Failure)
  /-- A bound that no finite host needs was reached. -/
  | exhausted
  deriving DecidableEq

/-- A step of a collection. -/
abbrev Walk (σ α : Type) := EStateM Halt (Progress σ) α

/-- How much of everything a host has at most. -/
structure Extent where
  /-- Checkouts that references may lead to. -/
  checkouts : Nat
  /-- Files that can be read. -/
  files : Nat

/-- What stays the same during a collection. -/
structure Job (σ : Type) where
  provider : Provider σ
  ecosystem : Ecosystem
  settings : Settings
  extent : Extent
  /-- The requested directory, in the tree of the root repository. -/
  base : TreePath

namespace Walk

variable {σ α : Type}

/-- End the collection with a failure. -/
def fail (failure : Failure) : Walk σ α := throw (.failed failure)

/-- Put a question to the provider. -/
def ask (query : Query (Cached σ) α) : Walk σ (Answer α) := fun progress =>
  let (answer, cached) := query progress.cached
  .ok answer { progress with cached }

/-- Put a question to the provider and go on without answer only when there is nothing. -/
def ask? (query : Query (Cached σ) α) : Walk σ (Option α) := do
  match ← ask query with
  | .ok answer => return some answer
  | .error error => if error.isNotFound then return none else fail (.provider error)

/-- Put a question to the provider that must have an answer, or else end with a failure. -/
def askOr (query : Query (Cached σ) α) (failure : ProviderError → Failure) : Walk σ α := do
  match ← ask query with
  | .ok answer => return answer
  | .error error => fail (failure error)

/-- Whether the file at a place has been collected. -/
def isCollected (place : Place) : Walk σ Bool := do
  return (← get).files.any fun file => file.key = place.key

/-- Add a file to the result unless it is there already. -/
def collect (job : Job σ) (place : Place) (role : DependencyFile.Role) (content : Bytes) :
    Walk σ Unit := do
  if ← isCollected place then return
  modify fun progress =>
    { progress with files := progress.files ++ [place.toFile job.base role content] }

/-- Read the file at a place and collect it when it can be read. -/
def readCollecting (job : Job σ) (place : Place) (role : DependencyFile.Role) :
    Walk σ (Answer Bytes) := do
  match ← ask (Cached.read job.provider place.mount.checkout place.path) with
  | .ok content =>
    collect job place role content
    return .ok content
  | .error error => return .error error

/-- Read and collect a file that must exist. -/
def readRequired (job : Job σ) (place : Place) (role : DependencyFile.Role) : Walk σ String := do
  match ← readCollecting job place role with
  | .ok content => return Text.decodeLossy content
  | .error error => fail (.ofReading error place.rootPath.toString)

/-- Read and collect a file that may be missing. -/
def readOptional (job : Job σ) (place : Place) (role : DependencyFile.Role) :
    Walk σ (Option String) := do
  match ← readCollecting job place role with
  | .ok content => return some (Text.decodeLossy content)
  | .error error => if error.isNotFound then return none else fail (.provider error)

/-- The listing of a place, when there is one. -/
def list? (job : Job σ) (place : Place) : Walk σ (Option (List Entry)) :=
  ask? (Cached.list job.provider place.mount.checkout place.path)

/-- Whether the listing of its directory shows a file at the place. -/
def isListedFile (job : Job σ) (place : Place) : Walk σ Bool := do
  match ← list? job (place.moveTo place.path.up) with
  | some entries => return entries.any fun entry => entry.isFile && entry.path = place.path
  | none => return false

/-- The references in a file, as leads. -/
def scan (job : Job σ) (place : Place) (text : String) : Walk σ (List Lead) :=
  match job.ecosystem.references text (place.rootPath.relativeTo job.base) with
  | .ok references => return references.map (⟨·, place, false⟩)
  | .error error => fail (.ofScan error place.rootPath.toString)

/-- Note a package as unreachable, by the first reason that is given for its name. -/
def markUnreachable (name reason : String) : Walk σ Unit :=
  modify fun progress =>
    if progress.unreachable.any (·.name = name) then progress
    else { progress with unreachable := progress.unreachable ++ [⟨name, reason⟩] }

/-- Enter the repository that a submodule points to, when it can be found. -/
def enter? (job : Job σ) (mount : Mount) (entry : Entry) : Walk σ (Option Place) := do
  match ← ask? (Cached.target job.provider entry) with
  | none => return none
  | some target =>
    match ← ask? (Cached.openCheckout job.provider target.repo target.reference) with
    | none => return none
    | some checkout => return some ⟨⟨checkout, mount.position ++ entry.path⟩, .root⟩

end Walk

end DependencyFiles
