import DependencyFiles.Collect.Locate

/-!
# Searching directories for specifications

A directory's own specifications are collected, and only when it has none its directories
and submodules are searched one level down. Outcomes are kept by directory: a search goes
into a directory again only when it may go deeper than all searches before.
-/

namespace DependencyFiles.Walk

variable {σ : Type}

/-- The smaller of two depths, when there are two. -/
def shallower : Option Nat → Option Nat → Option Nat
  | some a, some b => some (min a b)
  | some a, none => some a
  | none, b => b

/-- Collect specifications and scan the new ones; whether any of them is among the collected files. -/
def readSpecifications (job : Job σ) : List Place → Walk σ (Bool × List Lead)
  | [] => return (false, [])
  | place :: rest => do
    if ← isCollected place then
      let (_, leads) ← readSpecifications job rest
      return (true, leads)
    else
      match ← readOptional job place .specification with
      | none => readSpecifications job rest
      | some text =>
        let leads ← scan job place text
        let (_, more) ← readSpecifications job rest
        return (true, leads ++ more)

/-- The directory that an entry leads to. -/
def entryPlace? (job : Job σ) (place : Place) (entry : Entry) : Walk σ (Option Place) :=
  if entry.isSubmodule then enter? job place.mount entry else return some (place.moveTo entry.path)

/-- Search the directories of some entries, one level further down. -/
def searchEntries (job : Job σ) (place : Place) (descend : Place → Walk σ (Option Nat × List Lead)) :
    List Entry → Walk σ (Option Nat × List Lead)
  | [] => return (none, [])
  | entry :: rest => do
    match ← entryPlace? job place entry with
    | none => searchEntries job place descend rest
    | some inner =>
      let (depth, leads) ← descend inner
      let (best, more) ← searchEntries job place descend rest
      return (shallower (depth.map (· + 1)) best, leads ++ more)

/-- Whether a search may go into an entry. -/
def isSearched (job : Job σ) (entry : Entry) : Bool :=
  entry.isDirectory || (entry.isSubmodule && job.settings.followSubmodules)

/-- Search a listed directory, where `descend` searches one level further down. -/
def searchListed (job : Job σ) (descend : Option (Place → Walk σ (Option Nat × List Lead)))
    (place : Place) (entries : List Entry) : Walk σ (Option Nat × List Lead) := do
  let specifications := (entries.filter fun entry =>
    entry.isFile && job.ecosystem.isSpecification entry.name).map fun entry => place.moveTo entry.path
  let (found, leads) ← readSpecifications job specifications
  if found then return (some 0, leads)
  match descend with
  | none => return (none, leads)
  | some descend =>
    let (depth, more) ← searchEntries job place descend (entries.filter (isSearched job))
    return (depth, leads ++ more)

/-- Search a directory unless an earlier outcome settles the search, and keep the outcome. -/
def searchKept (job : Job σ) (budget : Nat)
    (descend : Option (Place → Walk σ (Option Nat × List Lead))) (place : Place) :
    Walk σ (Option Nat × List Lead) := do
  match ((← get).searched.lookup place.key).bind (·.answer? budget) with
  | some depth => return (depth, [])
  | none =>
    match ← list? job place with
    | none => return (none, [])
    | some entries =>
      let (depth, leads) ← searchListed job descend place entries
      modify fun progress =>
        { progress with searched := (place.key, ⟨depth, budget⟩) :: progress.searched }
      return (depth, leads)

/-- Search a directory for specifications, going down at most as many levels as the budget says.
The result is how many levels down the shallowest one is, and what the new ones refer to. -/
def search (job : Job σ) : (budget : Nat) → Place → Walk σ (Option Nat × List Lead)
  | 0 => searchKept job 0 none
  | budget + 1 => searchKept job (budget + 1) (some (search job budget))

end DependencyFiles.Walk
