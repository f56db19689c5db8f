/-!
# Cutting text into pieces

Texts under examination are lists of characters. The functions here cut them into lines,
into pieces between separators and into the parts around a marker, all by structural
recursion on the text.
-/

namespace DependencyFiles.Text

/-- The lines of a text; a line ends at a line feed, which takes one carriage return before it along. -/
def lines : List Char → List (List Char)
  | [] => []
  | '\n' :: rest => [] :: lines rest
  | '\r' :: '\n' :: rest => [] :: lines rest
  | c :: rest =>
    match lines rest with
    | [] => [[c]]
    | line :: more => (c :: line) :: more

/-- The pieces between separators; there is one piece more than there are separators. -/
def pieces (isSeparator : Char → Bool) : List Char → List (List Char)
  | [] => [[]]
  | c :: rest =>
    if isSeparator c then [] :: pieces isSeparator rest
    else
      match pieces isSeparator rest with
      | [] => [[c]]
      | piece :: more => (c :: piece) :: more

/-- The texts written one after the other with a separator between neighbours. -/
def joinWith (separator : Char) : List (List Char) → List Char
  | [] => []
  | [piece] => piece
  | piece :: more => piece ++ separator :: joinWith separator more

/-- Whether the marker occurs somewhere in the text. -/
def occursIn (marker : List Char) : List Char → Bool
  | [] => marker.isEmpty
  | c :: rest => marker.isPrefixOf (c :: rest) || occursIn marker rest

/-- The part of the text before the first occurrence of the marker, or all of it. -/
def before (marker : List Char) : List Char → List Char
  | [] => []
  | c :: rest => if marker.isPrefixOf (c :: rest) then [] else c :: before marker rest

/-- What follows the marker, when the text starts with it. -/
def after? (marker text : List Char) : Option (List Char) :=
  marker.isPrefixOf? text

/-- Drop every character of the given class from the end of the text. -/
def dropEndWhile (p : Char → Bool) : List Char → List Char
  | [] => []
  | c :: rest =>
    match dropEndWhile p rest with
    | [] => if p c then [] else [c]
    | kept => c :: kept

/-- Drop every character of the given class from both ends of the text. -/
def dropAroundWhile (p : Char → Bool) (text : List Char) : List Char :=
  dropEndWhile p (text.dropWhile p)

/-- The parts of the text before and after the last separator. -/
def splitAtLast? (separator : Char) : List Char → Option (List Char × List Char)
  | [] => none
  | c :: rest =>
    match splitAtLast? separator rest with
    | some (left, right) => some (c :: left, right)
    | none => if c = separator then some ([], rest) else none

/-- The last segment of a slash-separated path that is neither empty nor a dot; the whole
path when there is none. -/
def basename (path : List Char) : List Char :=
  (((pieces (· == '/') path).filter fun piece => !piece.isEmpty && piece != ['.']).getLast?).getD path

/-- Joining the pieces with their separator gives the text back. -/
theorem joinWith_pieces (separator : Char) (text : List Char) :
    joinWith separator (pieces (· == separator) text) = text := by
  induction text with
  | nil => rfl
  | cons c rest ih =>
    have hne : pieces (· == separator) rest ≠ [] := by
      cases rest with
      | nil => simp [pieces]
      | cons d tail =>
        simp only [pieces]
        split
        · simp
        · split <;> simp
    simp only [pieces]
    by_cases hc : (c == separator) = true
    · rw [if_pos hc]
      have hcs : c = separator := by simpa using hc
      subst hcs
      cases hp : pieces (· == c) rest with
      | nil => exact absurd hp hne
      | cons piece more => rw [hp] at ih; simp [joinWith, ih]
    · rw [if_neg hc]
      cases hp : pieces (· == separator) rest with
      | nil => exact absurd hp hne
      | cons piece more =>
        rw [hp] at ih
        cases more with
        | nil => simpa [joinWith] using ih
        | cons next others => simpa [joinWith] using ih

end DependencyFiles.Text
