import SheetLint.Fault
import SheetLint.Number.Decimal

/-!
# Arithmetic of double-precision numbers, and whole numbers in a base

A sum or product is computed exactly and rounded once. A whole number is read in a given base, with
a sign, with the mark of its base or without, with the digits of any script, and with blanks around
it; in base ten it may not have more digits than the limit.
-/

namespace SheetLint

namespace Binary64

/-- The double-precision number nearest to a whole number. -/
def ofInt (i : Int) : Binary64 := ofFraction (decide (i < 0)) i.natAbs 1

/-- The number of the other sign. -/
def negate : Binary64 → Binary64
  | .finite negative m e => .finite (!negative) m e
  | .infinite negative => .infinite (!negative)
  | .nan => .nan

/-- The number nearest to `m · 2 ^ e`. -/
def ofScaled (negative : Bool) (m : Nat) (e : Int) : Binary64 :=
  let (num, den) := scaleDown m 1 (-e)
  ofFraction negative num den

/-- The product, rounded. -/
def mul : Binary64 → Binary64 → Binary64
  | .nan, _ => .nan
  | _, .nan => .nan
  | .infinite s, .infinite t => .infinite (s != t)
  | .infinite s, .finite t m _ => if m = 0 then .nan else .infinite (s != t)
  | .finite s m _, .infinite t => if m = 0 then .nan else .infinite (s != t)
  | .finite s m e, .finite t k f => ofScaled (s != t) (m * k) (e + f)

/-- The sum, rounded. Zeros of both signs together are positive. -/
def add : Binary64 → Binary64 → Binary64
  | .nan, _ => .nan
  | _, .nan => .nan
  | .infinite s, .infinite t => if s == t then .infinite s else .nan
  | .infinite s, _ => .infinite s
  | _, .infinite t => .infinite t
  | .finite s m e, .finite t k f =>
    let least := min e f
    let whole (negative : Bool) (n : Nat) (g : Int) : Int :=
      let x : Int := n * Int.pow 2 (g - least).toNat
      if negative then -x else x
    let sum := whole s m e + whole t k f
    if sum = 0 then .finite (s && t) 0 0 else ofScaled (decide (sum < 0)) sum.natAbs least

end Binary64

namespace Integer

/-- The value of a digit of a base up to sixteen. -/
def digitValue? (c : Char) : Option Nat :=
  if c.isDigit then some (c.toNat - '0'.toNat)
  else if 'a' ≤ c && c ≤ 'f' then some (c.toNat - 'a'.toNat + 10)
  else if 'A' ≤ c && c ≤ 'F' then some (c.toNat - 'A'.toNat + 10)
  else none

/-- The letters that mark a base. -/
def marks (base : Nat) : List Char :=
  match base with
  | 2 => ['b', 'B']
  | 8 => ['o', 'O']
  | 16 => ['x', 'X']
  | _ => []

/-- The text after the mark of a base, if there is one. -/
def afterMark (base : Nat) (cs : List Char) : List Char :=
  match cs with
  | '0' :: c :: rest => if (marks base).contains c then rest else cs
  | _ => cs

/-- The whole number that a text is in a base. -/
def read (base : Nat) (cs : List Char) : Except Fault Int :=
  let (negative, body) := Binary64.splitSign (Numeral.trimmed cs)
  let body := afterMark base body
  let isDigit (c : Char) : Bool := (digitValue? c).elim false (· < base)
  let ds := body.takeWhile isDigit
  if base == 10 && Fault.digitLimit < ds.length then .error (.tooManyDigits ds.length)
  else if ds.isEmpty || ds.length != body.length then .error (.badInteger base (String.ofList cs))
  else
    let n : Int := ds.foldl (fun n c => n * base + (digitValue? c).getD 0) 0
    .ok (if negative then -n else n)

end Integer

end SheetLint
