import DependencyFiles.Text.UnshownRanges
import DependencyFiles.Text.Word

/-!
# Quoted texts

The quoted form of a text stands between double quotes. Quotes and backslashes take a
backslash, four control characters have a letter each, and every other character without
a shape is spelled by its number.
-/

namespace DependencyFiles.Text

/-- Whether a character is spelled by its number in quoted form. -/
def isUnshown (c : Char) : Bool :=
  if c.val < 0x80 then c.val < 0x20 || c.val == 0x7F
  else if c.val < 0x1000 then inRanges unshownRangesLow c.toNat
  else if c.val < 0x10000 then inRanges unshownRangesBasic c.toNat
  else inRanges unshownRangesAstral c.toNat

/-- The quoted form of one character. -/
def quoteChar (c : Char) : List Char :=
  match c with
  | '"' => ['\\', '"']
  | '\\' => ['\\', '\\']
  | '\n' => ['\\', 'n']
  | '\r' => ['\\', 'r']
  | '\t' => ['\\', 't']
  | '\x00' => ['\\', '0']
  | c => if isUnshown c then "\\u\x7b".toList ++ Nat.toDigits 16 c.toNat ++ ['}'] else [c]

/-- A text between double quotes, with its special characters spelled out. -/
def quote (text : String) : String :=
  String.ofList ('"' :: text.toList.flatMap quoteChar ++ ['"'])

end DependencyFiles.Text
