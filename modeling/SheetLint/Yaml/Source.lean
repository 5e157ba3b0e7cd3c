import SheetLint.Flaw

/-!
# Sources

A text is not read as a whole but piece by piece, as far as a reader has come. So something wrong in
a later piece, bytes that are no text or characters that may not stand there, does not show as long
as the reader has not come there: a source is the characters up to the first bad piece, and what is
met after them.
-/

namespace SheetLint.Yaml

/-- Characters to be read, and what comes after them: the end, or a flaw. -/
structure Source where
  chars : List Char
  ending : Option Flaw := none

namespace Source

/-- Whether a character may stand in a text. -/
def isAllowed (c : Char) : Bool :=
  let n := c.toNat
  n == 0x9 || n == 0xA || n == 0xD || (0x20 ≤ n && n ≤ 0x7E) || n == 0x85 ||
    (0xA0 ≤ n && n ≤ 0xD7FF) || (0xE000 ≤ n && n ≤ 0xFFFD) || 0x10000 ≤ n

/-- Writes every line end as a line feed. -/
def plainBreaks : List Char → List Char
  | [] => []
  | '\r' :: '\n' :: cs => '\n' :: plainBreaks cs
  | '\r' :: cs => '\n' :: plainBreaks cs
  | c :: cs => c :: plainBreaks cs

/-- Bytes are decoded in blocks of this many. -/
def blockSize : Nat := 8192

/-- Characters are read in pieces of this many, the first two at once. -/
def pieceSize : Nat := 4096

/-- Where the piece begins that the character at an index is in. -/
def pieceStart (index : Nat) : Nat :=
  if index < 2 * pieceSize then 0 else index / pieceSize * pieceSize

/-- The text of the first bytes, but for a character that is cut off at their end. -/
def decodeStart? (content : ByteArray) (size : Nat) : Option String :=
  [0, 1, 2, 3].findSome? fun cut => String.fromUTF8? (content.extract 0 (size - cut))

/-- The text of as many whole blocks as can be decoded. -/
def decodedBlocks (content : ByteArray) : (blocks : Nat) → String
  | 0 => ""
  | n + 1 =>
    match decodeStart? content ((n + 1) * blockSize) with
    | some s => s
    | none => decodedBlocks content n

/-- The source of characters, of which all that are read are decoded; `ending` is what comes after
them. -/
def ofChars (chars : List Char) (ending : Option Flaw) : Source :=
  match chars.findIdx? fun c => !isAllowed c with
  | none => { chars, ending }
  | some i => { chars := chars.take (pieceStart i), ending := some .malformed }

/-- The source of a text. -/
def ofText (s : String) : Source := ofChars (plainBreaks s.toList) none

/-- The source of raw bytes. -/
def ofBytes (content : ByteArray) : Source :=
  match String.fromUTF8? content with
  | some s => ofText s
  | none =>
    let decoded := plainBreaks (decodedBlocks content (content.size / blockSize)).toList
    ofChars (decoded.take (pieceStart decoded.length)) (some (.fault .undecodable))

end Source

end SheetLint.Yaml
