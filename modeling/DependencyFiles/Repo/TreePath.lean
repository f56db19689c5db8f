import DependencyFiles.Text.Basic

/-!
# Paths inside a repository tree

A path is the list of its segments from the root down. Reading a path from text follows
its pieces between slashes or backslashes one by one: a name goes down, two dots go up
and stop at the root, and an empty piece or a single dot stays where it is.
-/

namespace DependencyFiles

/-- A name that can stand between two slashes of a path. -/
def IsSegment (s : String) : Prop :=
  s ≠ "" ∧ s ≠ "." ∧ s ≠ ".." ∧ ∀ c ∈ s.toList, c ≠ '/' ∧ c ≠ '\\'

instance (s : String) : Decidable (IsSegment s) :=
  have : Decidable (∀ c ∈ s.toList, c ≠ '/' ∧ c ≠ '\\') := List.decidableBAll _ s.toList
  inferInstanceAs (Decidable (_ ∧ _ ∧ _ ∧ _))

/-- An absolute path inside a repository tree. -/
structure TreePath where
  segments : List String
  clean : ∀ s ∈ segments, IsSegment s
  deriving DecidableEq

namespace TreePath

/-- The root of the tree. -/
def root : TreePath := ⟨[], by simp⟩

instance : Inhabited TreePath := ⟨root⟩

/-- The first segments of a path, up to the given number. -/
def take (p : TreePath) (n : Nat) : TreePath :=
  ⟨p.segments.take n, fun s h => p.clean s (List.mem_of_mem_take h)⟩

/-- The directory that holds the path; the root is its own. -/
def up (p : TreePath) : TreePath :=
  ⟨p.segments.dropLast, fun s h => p.clean s (List.dropLast_subset _ h)⟩

/-- The path of a child. -/
def push (p : TreePath) (s : String) (h : IsSegment s) : TreePath :=
  ⟨p.segments ++ [s], by
    intro t ht
    rcases List.mem_append.1 ht with ht | ht
    · exact p.clean t ht
    · rw [List.mem_singleton.1 ht]; exact h⟩

/-- The path that leads on from here along another one. -/
def append (p q : TreePath) : TreePath :=
  ⟨p.segments ++ q.segments, fun s h => (List.mem_append.1 h).elim (p.clean s) (q.clean s)⟩

instance : Append TreePath := ⟨append⟩

/-- The path without its first segments, as many as given. -/
def drop (p : TreePath) (n : Nat) : TreePath :=
  ⟨p.segments.drop n, fun s h => p.clean s (List.mem_of_mem_drop h)⟩

/-- Follow one piece of a written path. -/
def follow (p : TreePath) (piece : List Char) : TreePath :=
  if piece = ['.', '.'] then p.up
  else if h : IsSegment (String.ofList piece) then p.push (String.ofList piece) h
  else p

/-- Whether a character separates the pieces of a written path. -/
def isSeparator (c : Char) : Bool := c == '/' || c == '\\'

/-- Follow a written path from here; a slash at its start does not lead back to the root. -/
def join (p : TreePath) (relative : String) : TreePath :=
  (Text.pieces isSeparator relative.toList).foldl follow p

/-- The path that a text names, seen from the root. -/
def ofString (text : String) : TreePath := root.join text

/-- The segments with slashes between them. -/
def joinSegments (segments : List String) : String :=
  String.ofList (Text.joinWith '/' (segments.map String.toList))

/-- The path as text: a slash, then the segments with slashes between them. -/
def toString (p : TreePath) : String :=
  String.ofList ('/' :: Text.joinWith '/' (p.segments.map String.toList))

instance : ToString TreePath := ⟨toString⟩

/-- Whether the path is the root. -/
def isRoot (p : TreePath) : Bool := p.segments.isEmpty

/-- The directory that holds the path; the root has none. -/
def parent? (p : TreePath) : Option TreePath := if p.isRoot then none else some p.up

/-- The last segment; the root has none. -/
def name? (p : TreePath) : Option String := p.segments.getLast?

/-- The directories above the path, nearest first, down to the root. -/
def ancestors (p : TreePath) : List TreePath :=
  (List.range p.segments.length).reverse.map p.take

/-- Whether the path is the other one or lies beneath it. -/
def isWithin (p q : TreePath) : Bool := q.segments.isPrefixOf p.segments

/-- The segments of a path beneath another one that holds it. -/
def segmentsBeneath? (p q : TreePath) : Option (List String) :=
  q.segments.isPrefixOf? p.segments

/-- The part of a path beneath another one that holds it, as text. -/
def beneath? (p q : TreePath) : Option String := (p.segmentsBeneath? q).map joinSegments

/-- How many segments two lists share at their start. -/
def sharedLength : List String → List String → Nat
  | a :: as, b :: bs => if a = b then sharedLength as bs + 1 else 0
  | _, _ => 0

/-- The path as seen from a base directory: up as far as needed, then down. -/
def relativeTo (p base : TreePath) : String :=
  let shared := sharedLength p.segments base.segments
  let steps := List.replicate (base.segments.length - shared) ".." ++ p.segments.drop shared
  if steps.isEmpty then "." else joinSegments steps

/-- Paths are ordered as texts, character by character. -/
instance : Ord TreePath := ⟨fun p q => compareOfLessAndEq p.toString q.toString⟩

/-- Enter a path into an ascending list without repeating it. -/
def insertSorted (p : TreePath) : List TreePath → List TreePath
  | [] => [p]
  | q :: rest =>
    match compare p q with
    | .lt => p :: q :: rest
    | .eq => q :: rest
    | .gt => q :: insertSorted p rest

/-- The paths in ascending order, each once. -/
def sort (paths : List TreePath) : List TreePath := paths.foldr insertSorted []

@[simp] theorem segments_root : root.segments = [] := rfl

@[simp] theorem segments_up (p : TreePath) : p.up.segments = p.segments.dropLast := rfl

@[simp] theorem segments_take (p : TreePath) (n : Nat) : (p.take n).segments = p.segments.take n := rfl

@[simp] theorem segments_push (p : TreePath) (s : String) (h : IsSegment s) :
    (p.push s h).segments = p.segments ++ [s] := rfl

@[simp] theorem segments_append (p q : TreePath) : (p ++ q).segments = p.segments ++ q.segments := rfl

@[simp] theorem segments_drop (p : TreePath) (n : Nat) : (p.drop n).segments = p.segments.drop n := rfl

/-- Paths with the same segments are the same. -/
theorem ext_segments {p q : TreePath} (h : p.segments = q.segments) : p = q := by
  cases p; cases q; simp_all

end TreePath

end DependencyFiles
