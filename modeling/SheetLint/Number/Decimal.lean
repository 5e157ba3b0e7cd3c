import SheetLint.Number.Binary64
import SheetLint.Number.Numeral

/-!
# Decimal text of double-precision numbers

The text of a number has the fewest digits that read back as the same number, and
of those the digits nearest to it. `Binary64.shortest` finds the digits in exact
whole-number arithmetic; `FloatLayout` says how they are laid out. Reading goes the other
way: a sign, digits, a point and an exponent become the nearest number.
-/

namespace SheetLint

namespace Binary64

/-- The mantissa brought to 53 bits where the exponent allows it, with its exponent. -/
def normalised (m : Nat) (e : Int) : Nat × Int :=
  let target := max ((m.log2 : Int) + e - 52) minExponent
  if e ≤ target then (m / Nat.pow 2 (target - e).toNat, target)
  else (m * Nat.pow 2 (e - target).toNat, target)

/-- The reals that round to one number, as numerators over a shared denominator. -/
structure Interval where
  low : Nat
  value : Nat
  high : Nat
  den : Nat
  closed : Bool

/-- The interval of `m · 2 ^ e`. The gap below a power of two is half the gap above it. -/
def interval (m : Nat) (e : Int) : Interval :=
  let narrow := m == Nat.pow 2 52 && minExponent < e
  let low := if narrow then 4 * m - 1 else 4 * m - 2
  let (scale, den) := scaleDown 1 1 (2 - e)
  { low := low * scale, value := 4 * m * scale, high := (4 * m + 2) * scale, den
    closed := m % 2 == 0 }

namespace Interval

/-- Whether the fraction `n / d` rounds to the number of this interval. -/
def contains (i : Interval) (n d : Nat) : Bool :=
  let x := n * i.den
  let lo := i.low * d
  let hi := i.high * d
  if i.closed then lo ≤ x && x ≤ hi else lo < x && x < hi

/-- Of the two neighbours of the value on the grid of multiples of `10 ^ p`, the one in the
interval, the nearer if both are, and the even one of two equally near. -/
def onGrid (i : Interval) (p : Int) : Option Nat :=
  let (num, den) :=
    if 0 ≤ p then (i.value, i.den * Nat.pow 10 p.toNat)
    else (i.value * Nat.pow 10 (-p).toNat, i.den)
  let down := num / den
  let fits (k : Nat) : Bool :=
    if 0 ≤ p then i.contains (k * Nat.pow 10 p.toNat) 1
    else i.contains k (Nat.pow 10 (-p).toNat)
  let r := num % den
  let nearer := if 2 * r < den then down else if den < 2 * r then down + 1 else down + down % 2
  let other := if nearer = down then down + 1 else down
  if fits nearer then some nearer else if fits other then some other else none

/-- The number of digits before the decimal point of the value, not positive below one. -/
def places (i : Interval) : Int :=
  let whole := i.value / i.den
  if 0 < whole then (Nat.toDigits 10 whole).length
  else
    let inverse := (i.den + i.value - 1) / i.value
    let guess := (Nat.toDigits 10 (inverse - 1)).length
    1 - (guess : Int)

/-- The first of the grids with 1 to 17 significant digits that has a point in the interval:
its digits and its power of ten. -/
def firstHit (i : Interval) : (tries : Nat) → (p : Int) → Nat × Int
  | 0, p => ((i.onGrid p).getD 0, p)
  | tries + 1, p =>
    match i.onGrid p with
    | some k => (k, p)
    | none => i.firstHit tries (p - 1)

end Interval

/-- The digits and the power of ten of the shortest decimal that reads back as `m · 2 ^ e`. -/
def shortest (m : Nat) (e : Int) : Nat × Int :=
  let (m, e) := normalised m e
  let i := interval m e
  i.firstHit 17 i.places

/-- Removes the zeros at the end of a digit string. -/
def trimZeros (ds : List Char) : List Char :=
  (ds.reverse.dropWhile (· == '0')).reverse

end Binary64

/-- How a number is laid out: the positions of the point for which it is written without
an exponent, and the least width of the exponent. -/
structure FloatLayout where
  pointFrom : Int
  pointTo : Int
  exponentWidth : Nat

/-- Numbers of settings and literals are written without an exponent from `0.0001` up to
sixteen digits before the point, always with a point, and else as `1e+16` or `1e-05`. -/
def FloatLayout.standard : FloatLayout := ⟨-3, 16, 2⟩

namespace FloatLayout

/-- `n` in decimal, at least `width` characters wide. -/
def padded (width n : Nat) : List Char :=
  let ds := Nat.toDigits 10 n
  List.replicate (width - ds.length) '0' ++ ds

/-- Lays out a nonempty digit string with the point after `point` digits. -/
def write (l : FloatLayout) (digits : List Char) (point : Int) : List Char :=
  if l.pointFrom ≤ point ∧ point ≤ l.pointTo then
    if point ≤ 0 then ['0', '.'] ++ List.replicate (-point).toNat '0' ++ digits
    else
      let n := point.toNat
      let whole := digits.take n ++ List.replicate (n - digits.length) '0'
      let rest := digits.drop n
      whole ++ '.' :: (if rest.isEmpty then ['0'] else rest)
  else
    let e := point - 1
    let mantissa :=
      match digits with
      | [] => []
      | d :: [] => [d]
      | d :: rest => d :: '.' :: rest
    mantissa ++ 'e' :: (if e < 0 then '-' else '+') :: padded l.exponentWidth e.natAbs

end FloatLayout

namespace Binary64

/-- The text of a number: fewest digits that read back, in the standard layout. -/
def text : Binary64 → String
  | .nan => "nan"
  | .infinite negative => if negative then "-inf" else "inf"
  | .finite negative m e =>
    let body :=
      if m = 0 then ['0', '.', '0']
      else
        let (k, p) := shortest m e
        let all := Nat.toDigits 10 k
        FloatLayout.standard.write (trimZeros all) (all.length + p)
    String.ofList (if negative then '-' :: body else body)

/-- Splits a sign off the front. -/
def splitSign : List Char → Bool × List Char
  | '-' :: cs => (true, cs)
  | '+' :: cs => (false, cs)
  | cs => (false, cs)

/-- The number of a string of decimal digits; `none` if it is empty or has another character. -/
def digits? (cs : List Char) : Option Nat :=
  if cs.isEmpty || !cs.all Char.isDigit then none
  else some (cs.foldl (fun n c => 10 * n + (c.toNat - '0'.toNat)) 0)

/-- A whole number with an optional sign. -/
def signed? (cs : List Char) : Option Int :=
  let (negative, ds) := splitSign cs
  (digits? ds).map fun n => if negative then -(n : Int) else n

/-- Drops the underscores that stand between two digits; `afterDigit` says whether a digit came just
before. -/
def dropUnderscores : (afterDigit : Bool) → List Char → List Char
  | _, [] => []
  | true, '_' :: c :: cs =>
    if c.isDigit then c :: dropUnderscores true cs else '_' :: c :: dropUnderscores false cs
  | _, c :: cs => c :: dropUnderscores c.isDigit cs

/-- Reads `±digits.digits` with an optional exponent `e±digits`, where one side of the point may
be empty, and the words for the infinities and for no number. -/
def ofText? (s : String) : Option Binary64 :=
  let (negative, body) := splitSign (dropUnderscores false (Numeral.trimmed s.toList))
  let word := String.ofList (body.map Char.toLower)
  if word == "inf" || word == "infinity" then some (.infinite negative)
  else if word == "nan" then some .nan
  else
    let isMark (c : Char) : Bool := c == 'e' || c == 'E'
    let mantissa := body.takeWhile fun c => !isMark c
    let tail := (body.dropWhile fun c => !isMark c).drop 1
    let whole := mantissa.takeWhile (· != '.')
    let part := (mantissa.dropWhile (· != '.')).drop 1
    let hasMark := body.any isMark
    match digits? (whole ++ part), (if hasMark then signed? tail else some 0) with
    | some n, some e => some (ofDecimal negative n (e - part.length))
    | _, _ => none

end Binary64

end SheetLint
