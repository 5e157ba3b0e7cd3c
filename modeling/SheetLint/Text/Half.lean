/-!
# Halves of a pair

Some code points are no characters: two of them together stand for one character in an older
encoding. A text may hold such a half all the same, alone or beside its other half, and it stays one
then. No `Char` is a half, so code points that no character is assigned to stand for them.
-/

namespace SheetLint.Text.Half

/-- Whether a code point is a half. -/
def isHalf (n : Nat) : Bool := 0xD800 ≤ n && n < 0xE000

/-- How far the stand-ins are from the halves. -/
def shift : Nat := 0xC0000

/-- The character at a code point, a stand-in if it is a half. -/
def charAt (n : Nat) : Char := Char.ofNat (if isHalf n then n + shift else n)

/-- The half that a character stands for. -/
def half? (c : Char) : Option Nat :=
  let n := c.toNat - shift
  if isHalf n then some n else none

/-- The code point that a character stands for. -/
def point (c : Char) : Nat := (half? c).getD c.toNat

/-- The code points of a text. -/
def points (s : String) : List Nat := s.toList.map point

end SheetLint.Text.Half
