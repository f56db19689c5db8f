import DependencyFiles.Provider.Basic

/-!
# A forge in memory

A repository is a map from paths to nodes at one commit. Directories need no node of their
own as long as something lies beneath them, and whatever lies beneath a submodule is hidden.
The forge answers from its repositories, fails where it is told to, and logs every request.
-/

namespace DependencyFiles

/-- What a repository holds at a path. -/
inductive Node where
  | file (content : Bytes)
  /-- A file that is listed and cannot be read. -/
  | unreadable
  | directory
  | submodule (target : RepoRef)
  deriving DecidableEq, Repr

/-- The entry that lists a node. -/
def Node.entry (path : TreePath) : Node → Entry
  | file _ => .ofFile path
  | unreadable => .ofFile path
  | directory => .ofDirectory path
  | submodule target => .ofSubmodule path target

/-- Whether the node is a submodule. -/
def Node.isSubmodule : Node → Bool
  | submodule _ => true
  | _ => false

/-- A repository at one commit; each path has at most one node. -/
structure Repository where
  name : String
  commit : CommitId
  /-- References that name the commit besides `HEAD` and the commit itself. -/
  references : List String := []
  nodes : List (TreePath × Node) := []

namespace Repository

/-- Put a node at a path, in place of the one there. -/
def put (repository : Repository) (path : TreePath) (node : Node) : Repository :=
  { repository with nodes := (path, node) :: repository.nodes.filter (·.1 ≠ path) }

/-- The node at a path. -/
def node? (repository : Repository) (path : TreePath) : Option Node := repository.nodes.lookup path

/-- Whether a reference names the commit of the repository. -/
def knows (repository : Repository) (reference : String) : Bool :=
  reference = "HEAD" || reference = repository.commit.id || repository.references.contains reference

/-- Whether a path lies beneath a submodule. -/
def isHidden (repository : Repository) (path : TreePath) : Bool :=
  repository.nodes.any fun (mount, node) => node.isSubmodule && mount != path && path.isWithin mount

/-- Whether a path without a node of another kind is a directory. -/
def isDirectory (repository : Repository) (path : TreePath) : Bool :=
  path.isRoot || repository.node? path = some .directory ||
    repository.nodes.any fun (inner, _) => inner != path && inner.isWithin path

/-- The paths of the direct children of a directory, in ascending order. -/
def children (repository : Repository) (path : TreePath) : List TreePath :=
  TreePath.sort <| (repository.nodes.filter fun (inner, _) => inner != path && inner.isWithin path).map
    fun (inner, _) => inner.take (path.segments.length + 1)

/-- The entry of a child: that of its node, or a directory when only its contents have nodes. -/
def childEntry (repository : Repository) (path : TreePath) : Entry :=
  match repository.node? path with
  | some node => node.entry path
  | none => .ofDirectory path

/-- The listing of a path. -/
def list (repository : Repository) (path : TreePath) : Answer (List Entry) :=
  if repository.isHidden path then .error (.notFound path.toString)
  else
    match repository.node? path with
    | some (.file content) => .ok [(Node.file content).entry path]
    | some .unreadable => .ok [Node.unreadable.entry path]
    | some (.submodule target) => .ok [(Node.submodule target).entry path]
    | _ =>
      if repository.isDirectory path then
        .ok ((repository.children path).map repository.childEntry)
      else .error (.notFound path.toString)

/-- The content of the file at a path. -/
def read (repository : Repository) (path : TreePath) : Answer Bytes :=
  if repository.isHidden path then .error (.notFound path.toString)
  else
    match repository.node? path with
    | some (.file content) => .ok content
    | _ => .error (.notFound path.toString)

end Repository

/-- A request that a forge has seen. -/
inductive Request where
  | resolve (repo reference : String)
  | list (repo : String) (commit : CommitId) (path : TreePath)
  | read (repo : String) (commit : CommitId) (path : TreePath)
  deriving DecidableEq

/-- A hosting service whose repositories are all at hand. -/
structure Forge where
  name : String
  repositories : List Repository := []
  /-- Paths that cannot be listed or read in any repository. -/
  failures : List (TreePath × ProviderError) := []

namespace Forge

/-- Add a repository, which takes the place of one with the same name. -/
def addRepository (forge : Forge) (repository : Repository) : Forge :=
  { forge with repositories := repository :: forge.repositories.filter (·.name ≠ repository.name) }

/-- Let every listing or reading of a path fail. -/
def addFailure (forge : Forge) (path : TreePath) (error : ProviderError) : Forge :=
  { forge with failures := (path, error) :: forge.failures.filter (·.1 ≠ path) }

/-- The repository of a name. -/
def repository? (forge : Forge) (repo : String) : Option Repository :=
  forge.repositories.find? (·.name = repo)

/-- The commit that a reference names. -/
def resolve (forge : Forge) (repo reference : String) : Answer CommitId :=
  match (forge.repository? repo).filter (·.knows reference) with
  | some repository => .ok repository.commit
  | none => .error (.notFound (repo ++ "@" ++ reference))

/-- What a repository at a commit answers about a path, unless the path is made to fail. -/
def inspect {α : Type} (forge : Forge) (repo : String) (commit : CommitId) (path : TreePath)
    (answer : Repository → Answer α) : Answer α :=
  match forge.failures.lookup path with
  | some error => .error error
  | none =>
    match (forge.repository? repo).filter (·.commit = commit) with
    | some repository => answer repository
    | none => .error (.notFound (repo ++ "@" ++ commit.id))

/-- The listing of a path. -/
def list (forge : Forge) (repo : String) (commit : CommitId) (path : TreePath) : Answer (List Entry) :=
  forge.inspect repo commit path (·.list path)

/-- The content of the file at a path. -/
def read (forge : Forge) (repo : String) (commit : CommitId) (path : TreePath) : Answer Bytes :=
  forge.inspect repo commit path (·.read path)

/-- The forge as a provider, whose state is the log of its requests. -/
def provider (forge : Forge) : Provider (List Request) where
  name := forge.name
  resolve repo reference log := (forge.resolve repo reference, log ++ [.resolve repo reference])
  list repo commit path log := (forge.list repo commit path, log ++ [.list repo commit path])
  read repo commit path log := (forge.read repo commit path, log ++ [.read repo commit path])
  target entry log := (entry.target?, log)

end Forge

namespace Request

/-- Whether the request resolves a reference of the repository. -/
def resolvesIn (repo : String) : Request → Bool
  | resolve r _ => r = repo
  | _ => false

/-- Whether the request lists the path of the repository, at whatever commit. -/
def listsAt (repo : String) (path : TreePath) : Request → Bool
  | list r _ p => r = repo ∧ p = path
  | _ => false

/-- Whether the request reads the path of the repository, at whatever commit. -/
def readsAt (repo : String) (path : TreePath) : Request → Bool
  | read r _ p => r = repo ∧ p = path
  | _ => false

end Request

end DependencyFiles
