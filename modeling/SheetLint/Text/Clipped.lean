/-!
# Clipped texts

Where a message has only so much room for a name, the name is cut after that many bytes of its
encoding. The cut may go through a character, and then a mark shows that there was one.
-/

namespace SheetLint

namespace Text

/-- What stands for a character that was cut in two. -/
def brokenMark : Char := Char.ofNat 0xFFFD

/-- The characters that fit into a number of bytes, and the mark if the next fits in part. -/
def clippedChars : (bytes : Nat) → List Char → List Char
  | _, [] => []
  | 0, _ :: _ => []
  | n + 1, c :: cs =>
    if c.utf8Size ≤ n + 1 then c :: clippedChars (n + 1 - c.utf8Size) cs else [brokenMark]

/-- A text cut after a number of bytes. -/
def clipped (bytes : Nat) (s : String) : String :=
  String.ofList (clippedChars bytes s.toList)

end Text

end SheetLint
