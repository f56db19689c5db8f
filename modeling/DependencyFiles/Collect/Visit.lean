import DependencyFiles.Collect.Search

/-!
# Following references

A lead is followed to the file or directory that it asks for, and what is found there gives
new leads. Leads wait on a stack, so that everything a lead gives is followed before the
lead after it.
-/

namespace DependencyFiles.Walk

variable {σ : Type}

/-- Take the marker file of a directory in place of a specification. -/
def takeMarker (job : Job σ) (directory : Place) : Walk σ Bool := do
  let marker := directory.child job.ecosystem.marker
  if ← isCollected marker then return true
  if ← isListedFile job marker then
    return (← readOptional job marker .specification).isSome
  return false

/-- Look for the specifications of a package: why it is unreachable, when it is, and what the files
found refer to. -/
def findPackage (job : Job σ) (place : Place) : Walk σ (Option String × List Lead) := do
  match ← locate job place with
  | none => return (some "directory not found", [])
  | some directory =>
    let (depth, leads) ← search job job.settings.maxSearchDepth directory
    if depth.isSome then return (none, leads)
    if ← takeMarker job directory then return (none, leads)
    return (some "no specification file found", leads)

/-- Find the specifications of a package; a package without any is noted as unreachable. -/
def visitPackage (job : Job σ) (name : String) (place : Place) : Walk σ (List Lead) := do
  let (reason, leads) ← findPackage job place
  match reason with
  | none => return leads
  | some reason =>
    markUnreachable name reason
    return leads

/-- Follow a lead; the new leads are what the files found refer to. With an authoritative lock
file only its own references to packages count. -/
def visit (job : Job σ) (directory : Place) (authoritative : Bool) (lead : Lead) :
    Walk σ (List Lead) := do
  match lead.reference.kind with
  | .childManifest =>
    let place := lead.origin.resolve lead.reference.path
    if ← isCollected place then return []
    let text ← readRequired job place .childManifest
    scan job place text
  | .supportFile =>
    let place := directory.child lead.reference.path
    if ← isCollected place then return []
    if ← isListedFile job place then
      let _ ← readOptional job place .support
    return []
  | .pathDependency name =>
    if authoritative && !lead.fromLockfile then return []
    visitPackage job name (lead.origin.resolve lead.reference.path)

/-- Follow leads until one of them gives new leads; the leads that are then on the stack. -/
def advance (visit : Lead → Walk σ (List Lead)) : (stack : List Lead) → Walk σ (List Lead)
  | [] => return []
  | lead :: rest => do
    match ← visit lead with
    | [] => advance visit rest
    | found => return found ++ rest

/-- Follow all leads on a stack. At most `fuel` of them give new leads, as each that does
collects a file. -/
def followAll (visit : Lead → Walk σ (List Lead)) : (fuel : Nat) → (stack : List Lead) → Walk σ Unit
  | 0, stack => do
    match ← advance visit stack with
    | [] => return
    | _ => throw .exhausted
  | fuel + 1, stack => do
    match ← advance visit stack with
    | [] => return
    | stack => followAll visit fuel stack

end DependencyFiles.Walk
