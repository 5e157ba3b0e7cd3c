import SheetLint.Moment
import SheetLint.Toml.Syntax

/-!
# Days and times

A day is written as year, month and day with dashes between them. A time may follow after the letter
`T` or a single blank, and after the time the distance from the common clock. A time also stands on
its own. A text that only begins like a time after a day is the day alone.
-/

namespace SheetLint.Toml

/-- A number of exactly `width` digits. -/
def fixedNumber (width : Nat) (cs : List Char) : Parsed Nat :=
  let ds := cs.take width
  if ds.length == width && ds.all Char.isDigit then some (ofDigits 10 ds, cs.drop width) else none

/-- A number of two digits within bounds. -/
def twoDigits (least most : Nat) (cs : List Char) : Parsed Nat :=
  (fixedNumber 2 cs).bind fun (n, rest) =>
    if least ≤ n && n ≤ most then some (n, rest) else none

/-- Past a character that has to be next. -/
def expect (c : Char) (cs : List Char) : Option (List Char) :=
  match cs with
  | d :: rest => if d == c then some rest else none
  | [] => none

/-- The millionths of a second after a point; digits beyond them do not count. -/
def micros (cs : List Char) : Nat × List Char :=
  match cs with
  | '.' :: rest =>
    let ds := rest.takeWhile Char.isDigit
    if ds.isEmpty then (0, cs)
    else
      let six := ds.take 6
      (ofDigits 10 six * Nat.pow 10 (6 - six.length), rest.drop ds.length)
  | _ => (0, cs)

/-- A time of day. -/
def clock (cs : List Char) : Option (Clock × List Char) := do
  let (hour, cs) ← twoDigits 0 23 cs
  let (minute, cs) ← twoDigits 0 59 (← expect ':' cs)
  let (second, cs) ← twoDigits 0 59 (← expect ':' cs)
  let (micro, cs) := micros cs
  return ({ hour, minute, second, micro }, cs)

/-- A day. Its month has a day of that number at most in other years. -/
def day (cs : List Char) : Option (Day × List Char) := do
  let (year, cs) ← fixedNumber 4 cs
  let (month, cs) ← twoDigits 1 12 (← expect '-' cs)
  let (day, cs) ← twoDigits 1 31 (← expect '-' cs)
  return ({ year, month, day }, cs)

/-- The distance from the common clock in seconds. -/
def clockOffset (cs : List Char) : Option (Int × List Char) :=
  match cs with
  | 'Z' :: rest => some (0, rest)
  | 'z' :: rest => some (0, rest)
  | sign :: rest =>
    if sign == '+' || sign == '-' then do
      let (hours, rest) ← twoDigits 0 23 rest
      let (minutes, rest) ← twoDigits 0 59 (← expect ':' rest)
      let n : Int := 3600 * hours + 60 * minutes
      return (if sign == '-' then -n else n, rest)
    else none
  | [] => none

/-- The time after a day. -/
def clockAfterDay (cs : List Char) : Parsed Clock :=
  match cs with
  | c :: rest => if c == 'T' || c == 't' || c == ' ' then clock rest else none
  | [] => none

/-- A day, a time, or both. That the calendar has the day is not yet known. -/
def moment (cs : List Char) : Parsed Moment :=
  match day cs with
  | none => (clock cs).map fun (c, rest) => (.clock c, rest)
  | some (d, rest) =>
    match clockAfterDay rest with
    | none => some (.day d, rest)
    | some (c, rest) =>
      match clockOffset rest with
      | none => some (.both d c none, rest)
      | some (n, rest) => some (.both d c (some n), rest)

end SheetLint.Toml
