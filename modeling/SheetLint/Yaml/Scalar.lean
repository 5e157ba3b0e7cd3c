import SheetLint.Data
import SheetLint.Flaw
import SheetLint.Number.Arithmetic
import SheetLint.Text.Lower

/-!
# Tags and scalars

A tag says what sort of thing is written. A plain scalar without one is known by its look: nothing,
a truth value, a whole number in one of several bases, a fraction, a moment, and otherwise the text
itself. What a scalar stands for is read by its tag alone, so a tag that is written out may stand at
a text that cannot be read by it, and so may a few looks that promise more than they hold.
-/

namespace SheetLint.Yaml

/-- A sort of thing that is written. -/
inductive Tag where
  | null
  | bool
  | int
  | float
  | binary
  | timestamp
  | str
  | seq
  | map
  | set
  | omap
  | pairs
  | merge
  | value
  /-- A sort that nothing is known of. -/
  | other
  deriving DecidableEq, Repr

/-- The spellings of nothing. -/
def nulls : List String := ["", "~", "null", "Null", "NULL"]

/-- The spellings of true. -/
def trues : List String := ["yes", "Yes", "YES", "true", "True", "TRUE", "on", "On", "ON"]

/-- The spellings of false. -/
def falses : List String := ["no", "No", "NO", "false", "False", "FALSE", "off", "Off", "OFF"]

/-- Splits at colons. -/
def splitColons (cs : List Char) : List (List Char) :=
  cs.foldr (fun c acc =>
    match c, acc with
    | ':', _ => [] :: acc
    | _, [] => [[c]]
    | _, part :: rest => (c :: part) :: rest) [[]]

namespace Look

/-- A digit of a base up to sixteen. -/
def isDigitOf (base : Nat) (c : Char) : Bool := (Integer.digitValue? c).elim false (· < base)

/-- A nonempty run of digits of a base and underscores. -/
def isRun (base : Nat) (cs : List Char) : Bool :=
  !cs.isEmpty && cs.all fun c => c == '_' || isDigitOf base c

/-- A run that begins with a decimal digit. -/
def isDecimal (cs : List Char) : Bool :=
  (cs.head?.elim false Char.isDigit) && isRun 10 cs

/-- A count of sixtieths: one or two digits below sixty. -/
def isSixtieth : List Char → Bool
  | [a] => a.isDigit
  | [a, b] => '0' ≤ a && a ≤ '5' && b.isDigit
  | _ => false

/-- A whole number without its sign. -/
def isNatural (cs : List Char) : Bool :=
  match cs with
  | '0' :: 'b' :: ds => isRun 2 ds
  | '0' :: 'x' :: ds => isRun 16 ds
  | ['0'] => true
  | '0' :: ds => isRun 8 ds
  | _ =>
    match splitColons cs with
    | ds :: rest => isDecimal ds && rest.all isSixtieth
    | [] => false

/-- An exponent: a mark, a sign and digits; or nothing. -/
def isExponent (cs : List Char) : Bool :=
  match cs with
  | [] => true
  | mark :: sign :: ds =>
    (mark == 'e' || mark == 'E') && (sign == '-' || sign == '+') && !ds.isEmpty &&
      ds.all Char.isDigit
  | _ => false

/-- A fraction without its sign. Before the point there may be sixtieths. -/
def isFraction (isSigned : Bool) (cs : List Char) : Bool :=
  let whole := cs.takeWhile (· != '.')
  match cs.dropWhile (· != '.') with
  | [] => false
  | _ :: tail =>
    let rest := tail.dropWhile fun c => c.isDigit || c == '_'
    match splitColons whole with
    | [[]] => !isSigned && tail.head?.elim false Char.isDigit && isExponent rest
    | [ds] => isDecimal ds && isExponent rest
    | ds :: more => isDecimal ds && more.all isSixtieth && rest.isEmpty
    | [] => false

/-- A fraction, an infinity or the word for no number. -/
def isFloat (s : String) : Bool :=
  let cs := s.toList
  let body := (Binary64.splitSign cs).2
  [".inf", ".Inf", ".INF"].contains (String.ofList body) || [".nan", ".NaN", ".NAN"].contains s ||
    isFraction (body.length != cs.length) body

end Look

/-- A moment as it is written: its day and, if there is one, its time with the digits after the
point and the distance from the common clock. `isExact` says that month and day have two digits. -/
structure Stamp where
  day : Day
  isExact : Bool
  time : Option (Clock × Option Int)

/-- A text without the line break at its end, if there is one. -/
def withoutBreak (s : String) : String :=
  match s.toList.reverse with
  | '\n' :: rest => String.ofList rest.reverse
  | _ => s

namespace Stamp

/-- A number of at least `least` and at most two digits. -/
def number? (least : Nat) (cs : List Char) : Option (Nat × List Char) :=
  let ds := (cs.takeWhile Char.isDigit).take 2
  if ds.length < least then none else (Binary64.digits? ds).map (·, cs.drop ds.length)

/-- Past a character that has to be next. -/
def expect (c : Char) (cs : List Char) : Option (List Char) :=
  match cs with
  | d :: rest => if d == c then some rest else none
  | [] => none

/-- The millionths of a second after a point; digits beyond them do not count. -/
def micros (cs : List Char) : Nat × List Char :=
  match cs with
  | '.' :: rest =>
    let ds := rest.takeWhile Char.isDigit
    let six := ds.take 6
    (((Binary64.digits? six).getD 0) * Nat.pow 10 (6 - six.length), rest.drop ds.length)
  | _ => (0, cs)

/-- The distance from the common clock in seconds, with which the text has to end. -/
def offset? (cs : List Char) : Option (Option Int) :=
  match cs.dropWhile fun c => c == ' ' || c == '\t' with
  | [] => if cs.isEmpty then some none else none
  | ['Z'] => some (some 0)
  | sign :: rest =>
    if sign == '+' || sign == '-' then do
      let (hours, rest) ← number? 1 rest
      let (minutes, rest) ←
        match rest with
        | ':' :: rest => number? 2 rest
        | _ => some (0, rest)
      let n : Int := 3600 * hours + 60 * minutes
      if rest.isEmpty then some (some (if sign == '-' then -n else n)) else none
    else none

/-- The time after a day. -/
def time? (cs : List Char) : Option (Clock × Option Int) := do
  let isBlank (c : Char) : Bool := c == ' ' || c == '\t'
  let start ←
    match cs with
    | 'T' :: rest => some rest
    | 't' :: rest => some rest
    | _ => if (cs.head?.elim false isBlank) then some (cs.dropWhile isBlank) else none
  let (hour, rest) ← number? 1 start
  let (minute, rest) ← number? 2 (← expect ':' rest)
  let (second, rest) ← number? 2 (← expect ':' rest)
  let (micro, rest) := micros rest
  return ({ hour, minute, second, micro }, ← offset? rest)

/-- The moment that a text is. -/
def ofChars? (cs : List Char) : Option Stamp := do
  let ds := cs.take 4
  let year ← if ds.length == 4 then Binary64.digits? ds else none
  let afterYear ← expect '-' (cs.drop 4)
  let (month, rest) ← number? 1 afterYear
  let afterMonth ← expect '-' rest
  let (day, rest) ← number? 1 afterMonth
  let isExact := afterYear.length == afterMonth.length + 3 && afterMonth.length == rest.length + 2
  if rest.isEmpty then return { day := { year, month, day }, isExact, time := none }
  else return { day := { year, month, day }, isExact, time := some (← time? rest) }

/-- Whether a text looks like a moment. A day alone has to be written in full. -/
def isStamp (s : String) : Bool :=
  match ofChars? s.toList with
  | some stamp => stamp.isExact || stamp.time.isSome
  | none => false

/-- The moment that is written. -/
def moment (stamp : Stamp) : Moment :=
  match stamp.time with
  | none => .day stamp.day
  | some (c, offset) => .both stamp.day c offset

end Stamp

namespace Tag

/-- The tag of a text that is known by its look. -/
def ofLook (s : String) : Tag :=
  if nulls.contains s then .null
  else if trues.contains s || falses.contains s then .bool
  else if Look.isFloat s then .float
  else if Look.isNatural (Binary64.splitSign s.toList).2 then .int
  else if Stamp.isStamp s then .timestamp
  else if s == "<<" then .merge
  else if s == "=" then .value
  else if ["!", "&", "*"].contains s then .other
  else .str

/-- The tag of a plain scalar, or of another one that is to be known by its look. A line break at
its end does not count, unless it is all there is. -/
def ofPlain (s : String) : Tag :=
  if s == "\n" then .str else ofLook (withoutBreak s)

/-- What the names of known tags begin with. -/
def lead : String := "tag:yaml.org,2002:"

/-- The tag of a name. -/
def ofName (name : String) : Tag :=
  let known : List (String × Tag) :=
    [("null", .null), ("bool", .bool), ("int", .int), ("float", .float), ("binary", .binary),
     ("timestamp", .timestamp), ("str", .str), ("seq", .seq), ("map", .map), ("set", .set),
     ("omap", .omap), ("pairs", .pairs), ("merge", .merge), ("value", .value)]
  ((known.find? fun e => lead ++ e.1 == name).map (·.2)).getD .other

end Tag

/-- A whole number, with its sign and without its underscores. -/
def readInt (s : String) : Except Fault Int := do
  let cs := s.toList.filter (· != '_')
  let (negative, body) := Binary64.splitSign cs
  let signed (n : Int) : Int := if negative then -n else n
  match cs, body with
  | [], _ => .error (.outOfRange "string")
  | _, ['0'] => .ok 0
  | _, '0' :: 'b' :: ds => return signed (← Integer.read 2 ds)
  | _, '0' :: 'x' :: ds => return signed (← Integer.read 16 ds)
  | _, [] => .error (.outOfRange "string")
  | _, '0' :: _ => return signed (← Integer.read 8 body)
  | _, _ =>
    let parts ← (splitColons body).mapM (Integer.read 10)
    return signed (parts.foldl (fun n part => 60 * n + part) 0)

/-- The sum of parts counted in sixtieths, the least first, each part rounded as it is added. -/
def sumSixtieths : (base : Nat) → (sum : Binary64) → List Binary64 → Except Fault Binary64
  | _, sum, [] => .ok sum
  | base, sum, x :: xs =>
    match Binary64.ofInt (base : Int) with
    | .infinite _ => .error .hugeFactor
    | factor => sumSixtieths (60 * base) (sum.add (x.mul factor)) xs

/-- A number that a text is. -/
def readDecimal (cs : List Char) : Except Fault Binary64 :=
  match Binary64.ofText? (String.ofList cs) with
  | some x => .ok x
  | none => .error (.badFloat (String.ofList cs))

/-- A fraction, with its sign and without its underscores. -/
def readFloat (s : String) : Except Fault Binary64 := do
  let cs := (Text.lower (String.ofList (s.toList.filter (· != '_')))).toList
  let (negative, body) := Binary64.splitSign cs
  let signed (x : Binary64) : Binary64 := if negative then x.negate else x
  if cs.isEmpty then .error (.outOfRange "string")
  else if String.ofList body == ".inf" then .ok (.infinite negative)
  else if String.ofList body == ".nan" then .ok .nan
  else if body.contains ':' then
    let parts ← (splitColons body).mapM readDecimal
    return signed (← sumSixtieths 1 (.finite false 0 0) parts.reverse)
  else return signed (← readDecimal body)

/-- A moment. -/
def readStamp (s : String) : Except Fault Moment :=
  match Stamp.ofChars? (withoutBreak s).toList with
  | none => .error (.missingAttribute "NoneType" "groupdict")
  | some stamp =>
    match stamp.moment.make with
    | .ok m => .ok m
    | .error flaw => .error (.badMoment flaw)

/-- A truth value. -/
def readBool (s : String) : Except Fault Bool :=
  let word := Text.lower s
  if trues.contains word then .ok true
  else if falses.contains word then .ok false
  else .error (.missingKey (Text.quoted word))

/-- The six bits that a character stands for. -/
def sixBits? (c : Char) : Option Nat :=
  let n := c.toNat
  if 'A' ≤ c && c ≤ 'Z' then some (n - 'A'.toNat)
  else if 'a' ≤ c && c ≤ 'z' then some (n - 'a'.toNat + 26)
  else if c.isDigit then some (n - '0'.toNat + 52)
  else if c == '+' then some 62
  else if c == '/' then some 63
  else none

/-- Raw bytes written with six bits a character. `place` is the number of characters read of the
current four, `left` the bits of the last one that are not used, `pads` the fillers after it. Other
characters do not count; fillers that complete the four end the text. -/
def readBytes : (place left pads : Nat) → List Char → Option (List UInt8)
  | place, _, _, [] => if place == 0 then some [] else none
  | place, left, pads, c :: cs =>
    if c == '=' then
      if 2 ≤ place && 4 ≤ place + pads + 1 then some []
      else readBytes place left (if 2 ≤ place then pads + 1 else pads) cs
    else
      match sixBits? c with
      | none => readBytes place left pads cs
      | some b =>
        let byte (n : Nat) : UInt8 := UInt8.ofNat n
        match place with
        | 0 => readBytes 1 b 0 cs
        | 1 => (readBytes 2 (b % 16) 0 cs).map (byte (left * 4 + b / 16) :: ·)
        | 2 => (readBytes 3 (b % 4) 0 cs).map (byte (left * 16 + b / 4) :: ·)
        | _ => (readBytes 0 0 0 cs).map (byte (left * 64 + b) :: ·)

/-- What the text of a scalar stands for under a tag. -/
def readScalar (tag : Tag) (s : String) : Except Flaw Data :=
  let orFault (found : Except Fault Data) : Except Flaw Data :=
    match found with
    | .ok d => .ok d
    | .error fault => .error (.fault fault)
  match tag with
  | .null => .ok .null
  | .bool => orFault ((readBool s).map .bool)
  | .int => orFault ((readInt s).map .int)
  | .float => orFault ((readFloat s).map fun x => .float x 0)
  | .binary =>
    if s.toList.all fun c => c.toNat < 0x80 then
      match readBytes 0 0 0 s.toList with
      | some bs => .ok (.bytes bs)
      | none => .error .malformed
    else .error .malformed
  | .timestamp => orFault ((readStamp s).map .moment)
  | .str => .ok (.text s)
  | _ => .error .malformed

end SheetLint.Yaml
