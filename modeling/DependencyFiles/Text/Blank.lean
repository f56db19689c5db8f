import DependencyFiles.Text.Basic

/-!
# Blanks

A blank is a character with the Unicode property White_Space. Trimming removes blanks
from an end of a text and never from its middle.
-/

namespace DependencyFiles.Text

/-- Whether a character is Unicode white space, line ends included. -/
def isBlank (c : Char) : Bool :=
  c == ' ' || ('\t' ≤ c && c ≤ '\r') || c == '\u0085' || c == '\u00a0' || c == '\u1680' ||
    ('\u2000' ≤ c && c ≤ '\u200a') || c == '\u2028' || c == '\u2029' || c == '\u202f' ||
    c == '\u205f' || c == '\u3000'

/-- Drop the blanks at the start. -/
def trimStart (text : List Char) : List Char := text.dropWhile isBlank

/-- Drop the blanks at the end. -/
def trimEnd (text : List Char) : List Char := dropEndWhile isBlank text

/-- Drop the blanks at both ends. -/
def trim (text : List Char) : List Char := dropAroundWhile isBlank text

/-- Whether the text holds nothing but blanks. -/
def allBlank (text : List Char) : Bool := text.all isBlank

/-- Whether the text starts with a blank. -/
def startsBlank (text : List Char) : Bool := text.head?.any isBlank

/-- ASCII white space is blank. -/
theorem isBlank_of_isWhitespace (c : Char) (h : c.isWhitespace = true) : isBlank c = true := by
  simp only [Char.isWhitespace, Bool.or_eq_true, decide_eq_true_eq] at h
  rcases h with ((h | h) | h) | h <;> subst h <;> decide

end DependencyFiles.Text
