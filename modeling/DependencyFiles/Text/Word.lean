import DependencyFiles.Text.WordRanges

/-!
# Words and identifiers

Word characters follow Unicode; an identifier starts with an ASCII letter or an underscore
and goes on with word characters.
-/

namespace DependencyFiles.Text

/-- Whether one of the inclusive ranges holds the number. -/
def inRanges (ranges : List (Nat × Nat)) (n : Nat) : Bool :=
  ranges.any fun range => range.1 ≤ n && n ≤ range.2

/-- Whether a character may continue a word. -/
def isWord (c : Char) : Bool :=
  if c.val < 0x80 then c.isAlphanum || c == '_'
  else if c.val < 0x1000 then inRanges wordRangesLow c.toNat
  else if c.val < 0x10000 then inRanges wordRangesBasic c.toNat
  else inRanges wordRangesAstral c.toNat

/-- Whether a character may start an identifier. -/
def startsIdentifier (c : Char) : Bool := c.isAlpha || c == '_'

/-- Whether the whole text is one identifier. -/
def isIdentifier : List Char → Bool
  | [] => false
  | c :: rest => startsIdentifier c && rest.all isWord

end DependencyFiles.Text
