import DependencyFiles.Collect.Walk

/-!
# Locating directories across submodules

A path may lead through submodules. A place that lists as a directory is found as it is. A
submodule leads to the root of its repository, and a place that is missing is looked for in
the submodule that the nearest listed directory above it shows.
-/

namespace DependencyFiles.Walk

variable {σ : Type}

/-- The place inside the submodule that the nearest listed ancestor shows around a missing place. -/
def throughSubmodule? (job : Job σ) (place : Place) : (ancestors : List TreePath) → Walk σ (Option Place)
  | [] => return none
  | ancestor :: rest => do
    match ← list? job (place.moveTo ancestor) with
    | none => throughSubmodule? job place rest
    | some entries =>
      match entries.find? fun entry => entry.isSubmodule && place.path.isWithin entry.path with
      | none => return none
      | some entry =>
        match ← enter? job place.mount entry with
        | none => return none
        | some root => return some (root.moveTo (place.path.drop entry.path.segments.length))

/-- The directory that a place leads to, crossing at most `fuel` submodules. -/
def locateWithin (job : Job σ) : (fuel : Nat) → Place → Walk σ (Option Place)
  | 0, _ => throw .exhausted
  | fuel + 1, place => do
    match ← list? job place with
    | some entries =>
      match Entry.single? entries place.path with
      | none => return some place
      | some entry =>
        if entry.isSubmodule && job.settings.followSubmodules then enter? job place.mount entry
        else return none
    | none =>
      if job.settings.followSubmodules then
        match ← throughSubmodule? job place place.path.ancestors with
        | none => return none
        | some inner => locateWithin job fuel inner
      else return none

/-- The directory that a place leads to. Each checkout is entered at most once for each length
of the path that is left. -/
def locate (job : Job σ) (place : Place) : Walk σ (Option Place) :=
  locateWithin job ((place.path.segments.length + 1) * (job.extent.checkouts + 1)) place

end DependencyFiles.Walk
