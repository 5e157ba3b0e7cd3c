/-!
# Digits and blanks of all scripts

A number may be written with the decimal digits of any script, and any blanks may stand around it.
`Numeral.ascii` brings both to the common form, in which numbers are read. The digits are those of
version 14 of the character database.
-/

namespace SheetLint.Numeral

/-- The zeros of all scripts but the common one, in ascending order; the nine other digits follow
each. -/
def zeros : List Nat :=
  [0x660, 0x6F0, 0x7C0, 0x966, 0x9E6, 0xA66, 0xAE6, 0xB66, 0xBE6, 0xC66, 0xCE6, 0xD66, 0xDE6, 0xE50,
   0xED0, 0xF20, 0x1040, 0x1090, 0x17E0, 0x1810, 0x1946, 0x19D0, 0x1A80, 0x1A90, 0x1B50, 0x1BB0,
   0x1C40, 0x1C50, 0xA620, 0xA8D0, 0xA900, 0xA9D0, 0xA9F0, 0xAA50, 0xABF0, 0xFF10, 0x104A0, 0x10D30,
   0x11066, 0x110F0, 0x11136, 0x111D0, 0x112F0, 0x11450, 0x114D0, 0x11650, 0x116C0, 0x11730,
   0x118E0, 0x11950, 0x11C50, 0x11D50, 0x11DA0, 0x16A60, 0x16AC0, 0x16B50, 0x1D7CE, 0x1D7D8,
   0x1D7E2, 0x1D7EC, 0x1D7F6, 0x1E140, 0x1E2F0, 0x1E950, 0x1FBF0]

/-- The blanks outside of ASCII. -/
def blanks : List Nat :=
  [0x85, 0xA0, 0x1680, 0x2000, 0x2001, 0x2002, 0x2003, 0x2004, 0x2005, 0x2006, 0x2007, 0x2008,
   0x2009, 0x200A, 0x2028, 0x2029, 0x202F, 0x205F, 0x3000]

/-- The zero that a digit belongs to. -/
def zeroOf? (n : Nat) : Option Nat := zeros.find? fun z => z ≤ n && n < z + 10

/-- A digit or blank in its common form; anything else as it is. -/
def ascii (c : Char) : Char :=
  if c.toNat < 0x80 then c
  else if blanks.contains c.toNat then ' '
  else
    match zeroOf? c.toNat with
    | some z => Char.ofNat ('0'.toNat + (c.toNat - z))
    | none => c

/-- Whether a character in its common form is a blank. -/
def isBlank (c : Char) : Bool := c == ' ' || (0x9 ≤ c.toNat && c.toNat ≤ 0xD)

/-- A text in its common form, without the blanks around it. -/
def trimmed (cs : List Char) : List Char :=
  (((cs.map ascii).dropWhile isBlank).reverse.dropWhile isBlank).reverse

end SheetLint.Numeral
