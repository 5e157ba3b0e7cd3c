import SheetLint.Number.Decimal

/-!
# Days and times

A moment is a day of the calendar, a time of day, or both together, perhaps with the distance of its
clock from the common one. `Moment.make` refuses what the calendar does not have, and names the
first part that is wrong. A moment has a printed form, which says how it is made, and a bare form,
which is how it is commonly written.
-/

namespace SheetLint

/-- A day of the calendar. -/
structure Day where
  year : Nat
  month : Nat
  day : Nat
  deriving DecidableEq, Repr

/-- A time of day, to the millionth of a second. -/
structure Clock where
  hour : Nat
  minute : Nat
  second : Nat
  micro : Nat := 0
  deriving DecidableEq, Repr

/-- A day, a time of day, or both; with both, the distance from the common clock in seconds may be
known. -/
inductive Moment where
  | day (d : Day)
  | clock (c : Clock)
  | both (d : Day) (c : Clock) (offset : Option Int)
  deriving DecidableEq, Repr

/-- What is wrong with the parts of a moment. -/
inductive MomentFlaw where
  | year (n : Nat)
  | month
  | day
  | hour
  | minute
  | second
  /-- A clock cannot be a day or more away from the common one; the distance is in seconds. -/
  | offset (seconds : Int)
  deriving DecidableEq, Repr

namespace Day

/-- Whether a year has a day more. -/
def isLeap (year : Nat) : Bool :=
  year % 4 == 0 && (year % 100 != 0 || year % 400 == 0)

/-- The number of days of a month. -/
def daysIn (year month : Nat) : Nat :=
  if month == 2 then (if isLeap year then 29 else 28)
  else if [4, 6, 9, 11].contains month then 30
  else 31

/-- The flaw of a day that the calendar does not have. -/
def flaw? (d : Day) : Option MomentFlaw :=
  if d.year == 0 then some (.year d.year)
  else if d.month == 0 || 12 < d.month then some .month
  else if d.day == 0 || daysIn d.year d.month < d.day then some .day
  else none

/-- The number of days from the first day of the calendar. -/
def count (d : Day) : Nat :=
  let y := d.year - 1
  let beforeYear := 365 * y + y / 4 - y / 100 + y / 400
  (List.range (d.month - 1)).foldl (fun n m => n + daysIn d.year (m + 1)) beforeYear + d.day

end Day

namespace Clock

/-- The flaw of a time that no clock shows. -/
def flaw? (c : Clock) : Option MomentFlaw :=
  if 23 < c.hour then some .hour
  else if 59 < c.minute then some .minute
  else if 59 < c.second then some .second
  else none

/-- The number of seconds since the day began. -/
def seconds (c : Clock) : Nat := 3600 * c.hour + 60 * c.minute + c.second

end Clock

namespace Moment

/-- The number of seconds of a day. -/
def secondsOfDay : Int := 86400

/-- The flaw of a moment that does not exist. The distance of its clock counts first. -/
def flaw? : Moment → Option MomentFlaw
  | .day d => d.flaw?
  | .clock c => c.flaw?
  | .both d c offset =>
    (offset.bind fun n =>
      if -secondsOfDay < n && n < secondsOfDay then none else some (.offset n)) <|>
      (d.flaw? <|> c.flaw?)

/-- The point in time of a day and a clock, in seconds and millionths. -/
def instant (d : Day) (c : Clock) (offset : Int) : Int × Nat :=
  ((d.count : Int) * secondsOfDay + c.seconds - offset, c.micro)

/-- Equality: with known distances from the common clock the point in time counts, and else the
parts. -/
def same : Moment → Moment → Bool
  | .both d c (some n), .both d' c' (some n') => instant d c n == instant d' c' n'
  | a, b => a == b

/-- A number in decimal with leading zeros. -/
def padded (width n : Nat) : String := String.ofList (FloatLayout.padded width n)

/-- A day as it is commonly written. -/
def dayText (d : Day) : String :=
  padded 4 d.year ++ "-" ++ padded 2 d.month ++ "-" ++ padded 2 d.day

/-- A time as it is commonly written. -/
def clockText (c : Clock) : String :=
  padded 2 c.hour ++ ":" ++ padded 2 c.minute ++ ":" ++ padded 2 c.second ++
    (if c.micro == 0 then "" else "." ++ padded 6 c.micro)

/-- A distance from the common clock as it is commonly written. -/
def offsetText (seconds : Int) : String :=
  let minutes := seconds.natAbs / 60
  (if seconds < 0 then "-" else "+") ++ padded 2 (minutes / 60) ++ ":" ++ padded 2 (minutes % 60)

/-- The bare form. -/
def bare : Moment → String
  | .day d => dayText d
  | .clock c => clockText c
  | .both d c offset => dayText d ++ " " ++ clockText c ++ offset.elim "" offsetText

/-- The parts of a time in print: seconds and their millionths are left out where they are zero. -/
def clockParts (c : Clock) : List Nat :=
  [c.hour, c.minute] ++
    (if c.micro != 0 then [c.second, c.micro] else if c.second != 0 then [c.second] else [])

/-- A span of time in print: whole days, which may be negative, and the seconds left. -/
def spanQuoted (seconds : Int) : String :=
  let days := seconds.fdiv secondsOfDay
  let rest := seconds.fmod secondsOfDay
  let parts := (if days == 0 then [] else ["days=" ++ toString days]) ++
    (if rest == 0 then [] else ["seconds=" ++ toString rest])
  "datetime.timedelta(" ++ String.intercalate ", " parts ++ ")"

/-- A distance from the common clock in print. -/
def offsetQuoted (seconds : Int) : String :=
  if seconds == 0 then "datetime.timezone.utc"
  else "datetime.timezone(" ++ spanQuoted seconds ++ ")"

/-- A call in print. -/
def call (name : String) (numbers : List Nat) (more : List String) : String :=
  name ++ "(" ++ String.intercalate ", " (numbers.map toString ++ more) ++ ")"

/-- The name of a moment's type. -/
def typeName : Moment → String
  | .day _ => "datetime.date"
  | .clock _ => "datetime.time"
  | .both .. => "datetime.datetime"

/-- The printed form. -/
def quoted (m : Moment) : String :=
  match m with
  | .day d => call m.typeName [d.year, d.month, d.day] []
  | .clock c => call m.typeName (clockParts c) []
  | .both d c offset =>
    call m.typeName ([d.year, d.month, d.day] ++ clockParts c)
      (offset.elim [] fun n => ["tzinfo=" ++ offsetQuoted n])

/-- A moment that exists. -/
def make (m : Moment) : Except MomentFlaw Moment :=
  match m.flaw? with
  | some flaw => .error flaw
  | none => .ok m

end Moment

namespace MomentFlaw

/-- The wording of a flaw. -/
def message : MomentFlaw → String
  | year n => "year " ++ toString n ++ " is out of range"
  | month => "month must be in 1..12"
  | day => "day is out of range for month"
  | hour => "hour must be in 0..23"
  | minute => "minute must be in 0..59"
  | second => "second must be in 0..59"
  | offset seconds =>
    "offset must be a timedelta strictly between -timedelta(hours=24) and " ++
      "timedelta(hours=24), not " ++ Moment.spanQuoted seconds ++ "."

end MomentFlaw

end SheetLint
