import DependencyFiles.Collect.Visit
import DependencyFiles.Ecosystem.Registry
import DependencyFiles.Provider.Forge

/-!
# Collecting dependency files

A collector fetches the dependency files of one directory: the primary manifest, its lock
file, the specifications beside it, and then everything that their references lead to.
Packages that cannot be reached do not end a collection, but it fails in the end, with all
that was collected.
-/

namespace DependencyFiles

namespace Walk

variable {σ : Type}

/-- The requested directory with its listing; a submodule stands for the root of its repository. -/
def openBase (job : Job σ) (root : Mount) : Walk σ (Place × List Entry) := do
  let place : Place := ⟨root, job.base⟩
  let listing (place : Place) : Walk σ (List Entry) :=
    askOr (Cached.list job.provider place.mount.checkout place.path)
      fun error => .ofListing error job.base.toString
  let entries ← listing place
  match Entry.single? entries place.path with
  | none => return (place, entries)
  | some entry =>
    if entry.isSubmodule && job.settings.followSubmodules then
      match ← enter? job root entry with
      | none => fail (.directoryNotFound job.base.toString)
      | some inner => return (inner, ← listing inner)
    else fail (.directoryNotFound job.base.toString)

/-- Whether a listing shows a file of the name. -/
def listsFile (entries : List Entry) (name : String) : Bool :=
  entries.any fun entry => entry.isFile && entry.name = name

/-- The name of the primary manifest: the first candidate that is listed. -/
def chooseManifest (job : Job σ) (directory : Place) (entries : List Entry) : Walk σ String :=
  match job.ecosystem.manifests.find? (listsFile entries) with
  | some name => return name
  | none =>
    fail (.fileNotFound (directory.child (job.ecosystem.manifests.head?.getD "")).rootPath.toString)

/-- Read and collect a file of a directory when the directory's listing shows it. -/
def readListed (job : Job σ) (directory : Place) (entries : List Entry) (name : String)
    (role : DependencyFile.Role) : Walk σ (Option String) :=
  if listsFile entries name then readOptional job (directory.child name) role else return none

/-- Collect the lock file of the manifest, when there is one; its references, and whether only
they count as references to packages. -/
def readLockfile (job : Job σ) (directory : Place) (entries : List Entry) (manifest text : String) :
    Walk σ (List Lead × Bool) := do
  match job.ecosystem.lockfileOf manifest with
  | none => return ([], false)
  | some name =>
    let place := directory.child name
    match ← readListed job directory entries name .lockfile with
    | none =>
      if job.settings.requireLockfile || job.ecosystem.needsLockfile text then
        fail (.fileNotFound place.rootPath.toString)
      else return ([], false)
    | some content =>
      match job.ecosystem.scanLockfile content (place.rootPath.relativeTo job.base) with
      | .error error => fail (.ofScan error place.rootPath.toString)
      | .ok result => return (result.references.map (⟨·, place, true⟩), result.authoritative)

/-- Collect the specifications beside the manifest, with their texts. -/
def readBeside (job : Job σ) : List Place → Walk σ (List (Place × String))
  | [] => return []
  | place :: rest => do
    if ← isCollected place then readBeside job rest
    else
      match ← readOptional job place .specification with
      | none => readBeside job rest
      | some text => return (place, text) :: (← readBeside job rest)

/-- The references in several files, one file after the other. -/
def scanAll (job : Job σ) : List (Place × String) → Walk σ (List Lead)
  | [] => return []
  | (place, text) :: rest => do
    let leads ← scan job place text
    return leads ++ (← scanAll job rest)

/-- What is known once the files that no reference is needed for have been collected. -/
structure Start where
  /-- The requested directory. -/
  directory : Place
  /-- Whether only the lock file's references to packages count. -/
  authoritative : Bool
  /-- What the collected files refer to. -/
  leads : List Lead

/-- Collect the files of the requested directory that no reference is needed for. -/
def start (job : Job σ) (root : Mount) : Walk σ Start := do
  let (directory, entries) ← openBase job root
  let manifest ← chooseManifest job directory entries
  let place := directory.child manifest
  let text ← readRequired job place .manifest
  let (locked, authoritative) ← readLockfile job directory entries manifest text
  let beside ← readBeside job <| (entries.filter fun entry =>
    entry.isFile && job.ecosystem.isBesideManifest entry.name).map fun entry => directory.moveTo entry.path
  let declared ← scan job place text
  let described ← scanAll job beside
  return ⟨directory, authoritative, declared ++ locked ++ described⟩

/-- Collect everything that can be reached from the requested directory. -/
def collectFrom (job : Job σ) (root : Mount) : Walk σ Unit := do
  let start ← start job root
  followAll (visit job start.directory start.authoritative) job.extent.files start.leads

/-- Hand out the collected files, unless some package could not be reached. -/
def handOut : Walk σ (List DependencyFile) := do
  let progress ← get
  if progress.unreachable.isEmpty then return progress.files
  else fail (.unreachable progress.unreachable progress.files)

/-- Collect the files of a source. -/
def collectSource (job : Job σ) (repo reference : String) : Walk σ (List DependencyFile) := do
  let checkout ← askOr (Cached.openCheckout job.provider repo reference) .provider
  collectFrom job ⟨checkout, .root⟩
  handOut

end Walk

/-- A way to collect the dependency files of sources, each from a fresh start. -/
structure Collector (σ : Type) where
  provider : Provider σ
  ecosystem : Ecosystem
  settings : Settings
  extent : Extent

namespace Collector

variable {σ : Type}

/-- The collector whose ecosystem is the standard one that the settings name. -/
def ofSettings (provider : Provider σ) (extent : Extent) (settings : Settings) :
    Except Failure (Collector σ) :=
  match Registry.standard.find? settings.ecosystem with
  | some ecosystem => .ok { provider, ecosystem, settings, extent }
  | none => .error (.unknownEcosystem settings.ecosystem)

/-- What stays the same while the dependency files of a source are collected. -/
def job (collector : Collector σ) (source : Source) : Job σ :=
  { provider := collector.provider, ecosystem := collector.ecosystem,
    settings := collector.settings, extent := collector.extent, base := source.directory }

/-- The reference of a source, or else the one that the settings name. -/
def reference (collector : Collector σ) (source : Source) : String :=
  source.reference.getD collector.settings.defaultRef

/-- Collect the dependency files of a source; the provider's state comes along. -/
def run (collector : Collector σ) (source : Source) (state : σ) :
    Except Halt (List DependencyFile) × σ :=
  match Walk.collectSource (collector.job source) source.repo (collector.reference source)
      { cached := { inner := state } } with
  | .ok files progress => (.ok files, progress.cached.inner)
  | .error halt progress => (.error halt, progress.cached.inner)

/-- A one-line account of the collector. -/
def describe (collector : Collector σ) : String :=
  "FetchSession \x7b provider: " ++ Text.quote collector.provider.name ++
    ", ecosystem: " ++ Text.quote collector.ecosystem.id ++
    ", config: " ++ collector.settings.describe ++ " \x7d"

end Collector

/-- How much a forge has: its repositories, and the nodes in them. -/
def Forge.extent (forge : Forge) : Extent :=
  ⟨forge.repositories.length, (forge.repositories.flatMap (·.nodes)).length⟩

end DependencyFiles
