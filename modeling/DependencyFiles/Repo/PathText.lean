import DependencyFiles.Repo.TreePath

/-!
# Paths kept as texts

A path can be kept as its text alone: a slash, then the segments with slashes between them.
The operations here search, cut and clean that text. That they come to the same as the
operations on segments is a theorem about each of them.
-/

namespace DependencyFiles.PathText

open Text

/-- A text with a slash in place of every backslash. -/
def slashed (text : List Char) : List Char := text.map fun c => if c = '\\' then '/' else c

/-- Let a piece of a written path act on the segments passed so far. -/
def follow (segments : List (List Char)) (piece : List Char) : List (List Char) :=
  if piece = [] ∨ piece = ['.'] then segments
  else if piece = ['.', '.'] then segments.dropLast
  else segments ++ [piece]

/-- The text of the path with the given segments. -/
def ofSegments (segments : List (List Char)) : List Char := '/' :: joinWith '/' segments

/-- The clean form of a written path. -/
def clean (written : List Char) : List Char :=
  ofSegments ((pieces (· == '/') (slashed written)).foldl follow [])

/-- Whether the path is the root. -/
def isRoot (path : List Char) : Bool := path == ['/']

/-- Follow a written path: it is written behind the path, and the whole is cleaned. -/
def join (path relative : List Char) : List Char := clean (path ++ '/' :: relative)

/-- The text before the last slash; a slash when that is the only one. -/
def parent? (path : List Char) : Option (List Char) :=
  if isRoot path then none
  else
    match splitAtLast? '/' path with
    | some ([], _) => some ['/']
    | some (front, _) => some front
    | none => none

/-- The text behind the last slash. -/
def name? (path : List Char) : Option (List Char) :=
  if isRoot path then none
  else
    match splitAtLast? '/' path with
    | some (_, name) => some name
    | none => some path

/-- The pieces between slashes that are not empty. -/
def segments (path : List Char) : List (List Char) :=
  (pieces (· == '/') path).filter fun piece => !piece.isEmpty

/-- What stands around the last separator. -/
theorem eq_of_splitAtLast? {separator : Char} {text front back : List Char}
    (h : splitAtLast? separator text = some (front, back)) : text = front ++ separator :: back := by
  induction text generalizing front with
  | nil => cases h
  | cons c rest ih =>
    unfold splitAtLast? at h
    split at h
    · cases h
      rw [ih ‹_›]
      rfl
    · split at h
      · cases h
        rw [‹c = separator›]
        rfl
      · cases h

/-- The directory that holds a path has a shorter text. -/
theorem length_of_parent? {path up : List Char} (h : parent? path = some up) :
    up.length < path.length := by
  unfold parent? at h
  split at h
  · cases h
  · rename_i hroot
    split at h
    · rename_i back hsplit
      rw [eq_of_splitAtLast? hsplit] at hroot ⊢
      cases h
      cases back with
      | nil => exact absurd rfl hroot
      | cons c back => simp
    · rename_i hsplit
      rw [eq_of_splitAtLast? hsplit]
      cases h
      simp
    · cases h

/-- The directories above the path, each found as the one that holds the one before. -/
def ancestors (path : List Char) : List (List Char) :=
  match _h : parent? path with
  | none => []
  | some up => up :: ancestors up
termination_by path.length
decreasing_by exact length_of_parent? _h

/-- Whether the path is the other one, or goes on behind it with a slash. -/
def startsWith (path other : List Char) : Bool :=
  isRoot other || path == other || (after? other path).any fun rest => rest.head? == some '/'

/-- What stands behind the other path, without slashes at its start. -/
def beneath? (path other : List Char) : Option (List Char) :=
  if startsWith path other then
    some ((if isRoot other then path else path.drop other.length).dropWhile (· == '/'))
  else none

/-- The path as seen from a base directory, by as many segments as agree pair by pair. -/
def relativeTo (path base : List Char) : List Char :=
  let ours := segments path
  let theirs := segments base
  let shared := ((ours.zip theirs).takeWhile fun (a, b) => a == b).length
  let steps := List.replicate (theirs.length - shared) ['.', '.'] ++ ours.drop shared
  if steps.isEmpty then ['.'] else joinWith '/' steps

end DependencyFiles.PathText

namespace DependencyFiles.TreePath

/-- The segments of a path as characters. -/
def names (p : TreePath) : List (List Char) := p.segments.map String.toList

/-- The text of a path as characters. -/
def text (p : TreePath) : List Char := p.toString.toList

/-- The text of a path is that of its segments. -/
theorem text_eq (p : TreePath) : p.text = PathText.ofSegments p.names := String.toList_ofList

@[simp] theorem names_root : root.names = [] := rfl

@[simp] theorem text_root : root.text = ['/'] := rfl

/-- Paths with the same segments as characters are the same. -/
theorem ext_names {p q : TreePath} (h : p.names = q.names) : p = q :=
  ext_segments ((List.map_inj_right fun _ _ => String.toList_inj.1).1 h)

/-- No segment of a path is empty, and none holds a slash. -/
theorem clean_names (p : TreePath) : ∀ name ∈ p.names, name ≠ [] ∧ '/' ∉ name := by
  intro name hname
  obtain ⟨segment, hsegment, rfl⟩ := List.mem_map.1 hname
  obtain ⟨hsome, -, -, hchars⟩ := p.clean segment hsegment
  exact ⟨by simpa using hsome, fun hslash => (hchars '/' hslash).1 rfl⟩

end DependencyFiles.TreePath
