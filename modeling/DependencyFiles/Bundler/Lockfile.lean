import DependencyFiles.Ecosystem.MergeConflict
import DependencyFiles.Text.Blank

/-!
# Gemfile lock files

A lock file is made of sections: a header line without indentation and indented lines
below it. The remotes of `PATH` sections are all the local packages that were resolved, so
the lock file is authoritative. With a plugin source it names none.
-/

namespace DependencyFiles.Bundler

open Text

/-- Whether a line is the header of a section. -/
def isHeader (line : List Char) : Bool := !allBlank line && !startsBlank line

/-- Whether a line is the header of a section of plugin sources. -/
def isPluginHeader (line : List Char) : Bool :=
  isHeader line && trimEnd line == "PLUGIN SOURCE".toList

/-- The remote that an indented line names. -/
def remote? (line : List Char) : Option (List Char) :=
  (after? "remote:".toList (trim line)).map trim

/-- The remotes of path sections, in order; `inside` while such a section goes on. -/
def pathRemotes (inside : Bool) : List (List Char) → List (List Char)
  | [] => []
  | line :: rest =>
    if allBlank line then pathRemotes inside rest
    else if startsBlank line then
      if inside then (remote? line).toList ++ pathRemotes inside rest else pathRemotes inside rest
    else pathRemotes (trimEnd line == "PATH".toList) rest

/-- The first occurrence of each item. -/
def distinct : List (List Char) → List (List Char)
  | [] => []
  | item :: rest => item :: (distinct rest).filter (· != item)

/-- What a Gemfile lock file says. -/
def scanLockfile (content origin : String) : Except ScanError LockScan :=
  let rows := lines content.toList
  let remotes := if rows.any isPluginHeader then [] else distinct (pathRemotes false rows)
  unlessConflict content origin
    { references := remotes.map fun remote =>
        ⟨.pathDependency (String.ofList (basename remote)), String.ofList remote, origin⟩
      authoritative := true }

end DependencyFiles.Bundler
