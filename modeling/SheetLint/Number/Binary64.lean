/-!
# Double-precision numbers

A double-precision number is kept as an exact value: a sign, a whole mantissa and
a power of two. Reading a decimal rounds once, to the nearest number of 53
significant bits and to the even one of two equally near, so every later
comparison is a comparison of rationals and needs no hardware arithmetic.
-/

namespace SheetLint

/-- A double-precision number: `±mantissa · 2 ^ exponent`, an infinity or not a number. -/
inductive Binary64 where
  | finite (negative : Bool) (mantissa : Nat) (exponent : Int)
  | infinite (negative : Bool)
  | nan
  deriving DecidableEq, Repr, Inhabited

/-- A point of the number line with its two ends, or the value that is on no line. -/
inductive Magnitude where
  | below
  | finite (q : Rat)
  | above
  | undefined
  deriving DecidableEq

namespace Magnitude

/-- Numeric equality. What is undefined equals nothing. -/
def same (a b : Magnitude) : Bool :=
  decide (a = b) && !decide (a = undefined)

/-- The order of the line, `none` when one side is undefined. -/
def order : Magnitude → Magnitude → Option Ordering
  | undefined, _ => none
  | _, undefined => none
  | finite p, finite q => some (if p < q then .lt else if q < p then .gt else .eq)
  | below, below => some .eq
  | above, above => some .eq
  | below, _ => some .lt
  | _, below => some .gt
  | above, _ => some .gt
  | _, above => some .lt

end Magnitude

/-- The quotient `num / den` rounded to the nearest whole number, a half to the even one. -/
def roundDiv (num den : Nat) : Nat :=
  let q := num / den
  let r := num % den
  if 2 * r < den then q else if den < 2 * r then q + 1 else q + q % 2

namespace Binary64

/-- The least exponent a double-precision number has. -/
def minExponent : Int := -1074

/-- `num / den · 2 ^ (-e)` as a fraction of two whole numbers. -/
def scaleDown (num den : Nat) (e : Int) : Nat × Nat :=
  if 0 ≤ e then (num, den * Nat.pow 2 e.toNat) else (num * Nat.pow 2 (-e).toNat, den)

/-- The whole part of the binary logarithm of the positive fraction `num / den`. -/
def floorLog2 (num den : Nat) : Int :=
  let l : Int := (num.log2 : Int) - (den.log2 : Int)
  let (n, d) := scaleDown num den l
  if n < d then l - 1 else l

/-- The double-precision number nearest to `num / den`, with the given sign. -/
def ofFraction (negative : Bool) (num den : Nat) : Binary64 :=
  if num = 0 then .finite negative 0 0
  else
    let e := max (floorLog2 num den - 52) minExponent
    let (n, d) := scaleDown num den e
    let m := roundDiv n d
    if 1024 ≤ (m.log2 : Int) + e then .infinite negative else .finite negative m e

/-- The double-precision number nearest to `digits · 10 ^ exponent`. Beyond four hundred
places the answer is the one of the bound, so no huge power is ever formed. -/
def ofDecimal (negative : Bool) (digits : Nat) (exponent : Int) : Binary64 :=
  if digits = 0 then .finite negative 0 0
  else
    let places : Int := (Nat.toDigits 10 digits).length
    if 400 < places + exponent then .infinite negative
    else if places + exponent < -400 then .finite negative 0 0
    else if 0 ≤ exponent then ofFraction negative (digits * Nat.pow 10 exponent.toNat) 1
    else ofFraction negative digits (Nat.pow 10 (-exponent).toNat)

/-- The point of the number line that a double-precision number stands for. Both zeros
are the same point. -/
def magnitude : Binary64 → Magnitude
  | .nan => .undefined
  | .infinite true => .below
  | .infinite false => .above
  | .finite negative m e =>
    let q : Rat := if 0 ≤ e then (m * Nat.pow 2 e.toNat : Nat) else mkRat m (Nat.pow 2 (-e).toNat)
    .finite (if negative then -q else q)

/-- Zero, of either sign. -/
def isZero : Binary64 → Bool
  | .finite _ m _ => m == 0
  | _ => false

end Binary64

end SheetLint
