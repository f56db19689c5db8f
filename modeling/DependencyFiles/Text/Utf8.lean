/-!
# Reading UTF-8

A machine reads one byte at a time and knows how many continuation bytes are owed and
which range the next one must lie in. Bytes that cannot be part of a character are
reported once for each longest piece that starts like one, so a reader may refuse them
or put the replacement character in their place.
-/

namespace DependencyFiles

/-- The content of a file. -/
abbrev Bytes := List UInt8

namespace Text

/-- A character that has begun: its bits so far, the bytes still owed and the range of the next one. -/
structure Unfinished where
  value : Nat
  owed : Nat
  low : UInt8
  high : UInt8
  deriving DecidableEq, Repr

/-- What a byte yields between characters; `none` among the results marks invalid bytes. -/
def beginCharacter (b : UInt8) : List (Option Char) × Option Unfinished :=
  if b < 0x80 then ([some (Char.ofNat b.toNat)], none)
  else if b < 0xC2 then ([none], none)
  else if b < 0xE0 then ([], some ⟨b.toNat - 0xC0, 1, 0x80, 0xBF⟩)
  else if b == 0xE0 then ([], some ⟨0, 2, 0xA0, 0xBF⟩)
  else if b == 0xED then ([], some ⟨0xD, 2, 0x80, 0x9F⟩)
  else if b < 0xF0 then ([], some ⟨b.toNat - 0xE0, 2, 0x80, 0xBF⟩)
  else if b == 0xF0 then ([], some ⟨0, 3, 0x90, 0xBF⟩)
  else if b < 0xF4 then ([], some ⟨b.toNat - 0xF0, 3, 0x80, 0xBF⟩)
  else if b == 0xF4 then ([], some ⟨4, 3, 0x80, 0x8F⟩)
  else ([none], none)

/-- What a byte yields, be it within a character or between two. -/
def readByte (state : Option Unfinished) (b : UInt8) : List (Option Char) × Option Unfinished :=
  match state with
  | none => beginCharacter b
  | some u =>
    if u.low ≤ b ∧ b ≤ u.high then
      let value := u.value * 64 + (b.toNat - 0x80)
      if u.owed = 1 then ([some (Char.ofNat value)], none)
      else ([], some ⟨value, u.owed - 1, 0x80, 0xBF⟩)
    else
      let (found, next) := beginCharacter b
      (none :: found, next)

/-- The characters of a byte sequence that starts in the given state. -/
def decodeFrom (state : Option Unfinished) : Bytes → List (Option Char)
  | [] => if state.isSome then [none] else []
  | b :: rest => (readByte state b).1 ++ decodeFrom (readByte state b).2 rest

/-- The text in a byte sequence, or nothing when some bytes are not UTF-8. -/
def decode? (bytes : Bytes) : Option String :=
  ((decodeFrom none bytes).mapM id).map String.ofList

/-- The text in a byte sequence, with the replacement character for each invalid piece. -/
def decodeLossy (bytes : Bytes) : String :=
  String.ofList ((decodeFrom none bytes).map (·.getD '\ufffd'))

/-- The UTF-8 bytes of a text. -/
def encode (text : String) : Bytes :=
  text.toList.flatMap String.utf8EncodeChar

end Text

end DependencyFiles
