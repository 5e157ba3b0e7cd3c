import SheetLint.Text.Half
import SheetLint.Text.Invisible

/-!
# Quoted text

A text in a message stands between quotes: single ones, unless it holds a single quote and
no double one. The quote and the backslash are escaped, line feed, carriage return and tab
have a letter, and any other invisible character is written as its code point.
-/

namespace SheetLint.Text

/-- `n` in hexadecimal, at least `width` digits wide. -/
def hex (width n : Nat) : List Char :=
  let ds := Nat.toDigits 16 n
  List.replicate (width - ds.length) '0' ++ ds

/-- The escape of an invisible character: two, four or eight hexadecimal digits. -/
def codePoint (c : Char) : List Char :=
  let n := Half.point c
  if n < 0x100 then '\\' :: 'x' :: hex 2 n
  else if n < 0x10000 then '\\' :: 'u' :: hex 4 n
  else '\\' :: 'U' :: hex 8 n

/-- One character as it stands between the quotes `q`. -/
def escape (q c : Char) : List Char :=
  if c = '\\' then ['\\', '\\']
  else if c = q then ['\\', q]
  else if c = '\n' then ['\\', 'n']
  else if c = '\r' then ['\\', 'r']
  else if c = '\t' then ['\\', 't']
  else if isInvisible c then codePoint c
  else [c]

/-- The quote that a text is put between. -/
def quoteMark (cs : List Char) : Char :=
  if cs.contains '\x27' && !cs.contains '"' then '"' else '\x27'

/-- A text between quotes, with its special characters escaped. -/
def quoted (s : String) : String :=
  let cs := s.toList
  let q := quoteMark cs
  String.ofList (q :: cs.flatMap (escape q) ++ [q])

/-- Raw bytes in print: like a text after a mark, with everything outside of ASCII written as its
number. -/
def quotedBytes (bs : List UInt8) : String :=
  let cs := bs.map fun b => Char.ofNat b.toNat
  let q := quoteMark cs
  let one (c : Char) : List Char :=
    if 0x7F ≤ c.toNat then '\\' :: 'x' :: hex 2 c.toNat else escape q c
  String.ofList ('b' :: q :: cs.flatMap one ++ [q])

end SheetLint.Text
