import DependencyFiles.Ecosystem.Reference
import DependencyFiles.Text.Basic

/-!
# Merge conflicts

A file has an unresolved merge conflict when one of its lines starts with a conflict
marker. A line of equals signs between two sides of a conflict is no marker by itself.
-/

namespace DependencyFiles

/-- The starts of lines that give a conflict away. -/
def conflictMarkers : List (List Char) :=
  [List.replicate 7 '<', List.replicate 7 '|', List.replicate 7 '>']

/-- Whether a line starts with a conflict marker. -/
def isConflictLine (line : List Char) : Bool := conflictMarkers.any (·.isPrefixOf line)

/-- Whether a text has an unresolved merge conflict. -/
def hasMergeConflict (content : String) : Bool :=
  (Text.lines content.toList).any isConflictLine

/-- The result for a file without merge conflict, and an error for one with it. -/
def unlessConflict {α : Type} (content origin : String) (result : α) : Except ScanError α :=
  if hasMergeConflict content then .error (.mergeConflict origin) else .ok result

end DependencyFiles
