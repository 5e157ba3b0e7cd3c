import SheetLint.Data
import SheetLint.Flaw

/-!
# Values and keys

Reading the parts of a statement: strings in their four forms, numbers, truth values, arrays over
several lines and inline tables on one, and keys with dots. Whatever is read is returned with the
text after it.
-/

namespace SheetLint.Toml

/-- What was read, with the text after it. -/
abbrev Parsed (α : Type) := Option (α × List Char)

/-- Blanks within a line. -/
def isBlank (c : Char) : Bool := c == ' ' || c == '\t'

/-- Blanks and line ends. -/
def isGap (c : Char) : Bool := isBlank c || c == '\n'

/-- Control characters, which may stand nowhere but for tabs and, in some places, line ends. -/
def isControl (c : Char) : Bool := c.toNat < 0x20 || c.toNat == 0x7F

/-- Controls that may not stand on a line. -/
def isIllegal (c : Char) : Bool := isControl c && c != '\t'

/-- Controls that may not stand in text over several lines. -/
def isIllegalAcross (c : Char) : Bool := isIllegal c && c != '\n'

/-- Characters of keys without quotes. -/
def isBare (c : Char) : Bool :=
  ('a' ≤ c && c ≤ 'z') || ('A' ≤ c && c ≤ 'Z') || c.isDigit || c == '-' || c == '_'

/-- Past the blanks of a line. -/
def skipBlanks (cs : List Char) : List Char := cs.dropWhile isBlank

/-- Past a comment up to the end of its line, if one begins here. -/
def skipComment (cs : List Char) : Option (List Char) :=
  match cs with
  | '#' :: rest =>
    let body := rest.takeWhile (· != '\n')
    if body.any isIllegal then none else some (rest.drop body.length)
  | _ => some cs

/-- Past blanks, line ends and comments. -/
def skipGaps : (fuel : Nat) → List Char → Option (List Char)
  | 0, cs => some cs
  | fuel + 1, cs =>
    match cs.dropWhile isGap with
    | '#' :: rest => (skipComment ('#' :: rest)).bind (skipGaps fuel)
    | rest => some rest

/-- Whether a text begins with another. -/
def startsWith (cs lead : List Char) : Bool := cs.take lead.length == lead

/-- The text up to `stop`, which has to come before any character of the sort `bad`, and the text
after it. -/
def upTo (stop : List Char) (bad : Char → Bool) : List Char → Parsed (List Char)
  | [] => none
  | c :: cs =>
    if startsWith (c :: cs) stop then some ([], (c :: cs).drop stop.length)
    else if bad c then none
    else (upTo stop bad cs).map fun (found, rest) => (c :: found, rest)

/-- The value of a hexadecimal digit. -/
def hexDigit? (c : Char) : Option Nat :=
  if c.isDigit then some (c.toNat - '0'.toNat)
  else if 'a' ≤ c && c ≤ 'f' then some (c.toNat - 'a'.toNat + 10)
  else if 'A' ≤ c && c ≤ 'F' then some (c.toNat - 'A'.toNat + 10)
  else none

/-- The character of a code point written with `width` hexadecimal digits. -/
def codePoint (width : Nat) (cs : List Char) : Parsed (List Char) :=
  let ds := cs.take width
  if ds.length != width then none
  else
    match ds.mapM hexDigit? with
    | none => none
    | some values =>
      let n := values.foldl (fun n d => 16 * n + d) 0
      if n.isValidChar then some ([Char.ofNat n], cs.drop width) else none

/-- The character an escape letter stands for. -/
def escapeOf? (c : Char) : Option Char :=
  [('b', '\x08'), ('t', '\t'), ('n', '\n'), ('f', '\x0c'), ('r', '\r'), ('"', '"'),
   ('\\', '\\')].lookup c

/-- An escape, after its backslash. Across lines, a backslash at the end of a line skips all blanks
and line ends after it. -/
def escape (across : Bool) (cs : List Char) : Parsed (List Char) :=
  match cs with
  | [] => none
  | c :: rest =>
    if across && isGap c then
      match skipBlanks cs with
      | [] => some ([], [])
      | '\n' :: rest => some ([], rest.dropWhile isGap)
      | _ => none
    else if c == 'u' then codePoint 4 rest
    else if c == 'U' then codePoint 8 rest
    else (escapeOf? c).map fun x => ([x], rest)

/-- The rest of a text in double quotes, up to and past the closing ones. -/
def basicRest (across : Bool) : (fuel : Nat) → List Char → Parsed (List Char)
  | 0, _ => none
  | fuel + 1, cs =>
    match cs with
    | [] => none
    | '"' :: rest =>
      if !across then some ([], rest)
      else
        match rest with
        | '"' :: '"' :: rest => some ([], rest)
        | _ => (basicRest across fuel rest).map fun (found, rest) => ('"' :: found, rest)
    | '\\' :: rest =>
      match escape across rest with
      | none => none
      | some (x, rest) => (basicRest across fuel rest).map fun (found, rest) => (x ++ found, rest)
    | c :: rest =>
      if (if across then isIllegalAcross c else isIllegal c) then none
      else (basicRest across fuel rest).map fun (found, rest) => (c :: found, rest)

/-- Up to two more quotes right after the closing three belong to the text. -/
def extraQuotes (q : Char) (found rest : List Char) : List Char × List Char :=
  let extra := (rest.take 2).takeWhile (· == q)
  (found ++ extra, rest.drop extra.length)

/-- A text in quotes on one line. -/
def lineString (cs : List Char) : Parsed String :=
  match cs with
  | '"' :: rest =>
    (basicRest false (rest.length + 1) rest).map fun (found, rest) => (String.ofList found, rest)
  | '\x27' :: rest =>
    (upTo ['\x27'] isIllegal rest).map fun (found, rest) => (String.ofList found, rest)
  | _ => none

/-- A text in any quotes. A line end right after three opening quotes is dropped. -/
def anyString (cs : List Char) : Parsed String :=
  let dropBreak (rest : List Char) : List Char :=
    match rest with
    | '\n' :: rest => rest
    | _ => rest
  match cs with
  | '"' :: '"' :: '"' :: rest =>
    let body := dropBreak rest
    (basicRest true (body.length + 1) body).map fun (found, rest) =>
      let (found, rest) := extraQuotes '"' found rest
      (String.ofList found, rest)
  | '\x27' :: '\x27' :: '\x27' :: rest =>
    (upTo ['\x27', '\x27', '\x27'] isIllegalAcross (dropBreak rest)).map fun (found, rest) =>
      let (found, rest) := extraQuotes '\x27' found rest
      (String.ofList found, rest)
  | _ => lineString cs

/-- A part of a key. -/
def keyPart (cs : List Char) : Parsed String :=
  match cs with
  | [] => none
  | c :: _ =>
    if isBare c then some (String.ofList (cs.takeWhile isBare), cs.dropWhile isBare)
    else lineString cs

/-- The parts of a key after the first, each after a dot. -/
def keyTail : (fuel : Nat) → List Char → Parsed (List String)
  | 0, _ => none
  | fuel + 1, cs =>
    match skipBlanks cs with
    | '.' :: rest =>
      match keyPart (skipBlanks rest) with
      | none => none
      | some (part, rest) => (keyTail fuel rest).map fun (parts, rest) => (part :: parts, rest)
    | rest => some ([], rest)

/-- A key, and the blanks after it. -/
def key (cs : List Char) : Parsed (List String) :=
  match keyPart cs with
  | none => none
  | some (part, rest) =>
    (keyTail (rest.length + 1) rest).map fun (parts, rest) => (part :: parts, rest)

/-- A run of digits in which single underscores may stand between two digits. -/
def digitRun (isDigit : Char → Bool) : List Char → List Char × List Char
  | [] => ([], [])
  | '_' :: c :: cs =>
    if isDigit c then
      let (ds, rest) := digitRun isDigit cs
      (c :: ds, rest)
    else ([], '_' :: c :: cs)
  | c :: cs =>
    if isDigit c then
      let (ds, rest) := digitRun isDigit cs
      (c :: ds, rest)
    else ([], c :: cs)

/-- Digits of a sort, the first of which is no underscore. -/
def digits (isDigit : Char → Bool) (cs : List Char) : Parsed (List Char) :=
  match cs with
  | c :: _ => if isDigit c then some (digitRun isDigit cs) else none
  | [] => none

/-- The number that digits of a base stand for. -/
def ofDigits (base : Nat) (ds : List Char) : Nat :=
  ds.foldl (fun n c => n * base + (hexDigit? c).getD 0) 0

/-- A digit of a base up to sixteen. -/
def isDigitOf (base : Nat) (c : Char) : Bool := (hexDigit? c).elim false (· < base)

/-- A whole number in another base than ten. -/
def based (cs : List Char) : Parsed Data :=
  let read (base : Nat) (cs : List Char) : Parsed Data :=
    (digits (isDigitOf base) cs).map fun (ds, rest) => (.int (ofDigits base ds), rest)
  match cs with
  | '0' :: 'x' :: rest => read 16 rest
  | '0' :: 'b' :: rest => read 2 rest
  | '0' :: 'o' :: rest => read 8 rest
  | _ => none

/-- The digits after a point, if there are any. -/
def fractionPart (cs : List Char) : Option (List Char × List Char) :=
  match cs with
  | '.' :: rest => digits Char.isDigit rest
  | _ => none

/-- The exponent, if there is one. -/
def exponentPart (cs : List Char) : Option (Int × List Char) :=
  match cs with
  | c :: rest =>
    if c == 'e' || c == 'E' then
      let (negative, rest) := Binary64.splitSign rest
      (digits Char.isDigit rest).map fun (ds, rest) =>
        let n : Int := ofDigits 10 ds
        (if negative then -n else n, rest)
    else none
  | [] => none

/-- A decimal number. Only zero begins with a zero. -/
def decimal (cs : List Char) : Parsed Data :=
  let (negative, body) := Binary64.splitSign cs
  let whole : Parsed (List Char) :=
    match body with
    | '0' :: rest => some (['0'], rest)
    | _ => digits Char.isDigit body
  match whole with
  | none => none
  | some (ds, rest) =>
    let part := fractionPart rest
    let afterPart := part.elim rest (·.2)
    let mark := exponentPart afterPart
    let afterMark := mark.elim afterPart (·.2)
    if part.isNone && mark.isNone then
      let n : Int := ofDigits 10 ds
      some (.int (if negative then -n else n), rest)
    else
      let places := part.elim [] (·.1)
      let e := mark.elim 0 (·.1)
      some (.float (Binary64.ofDecimal negative (ofDigits 10 (ds ++ places)) (e - places.length)) 0,
        afterMark)

/-- The words for infinities and for no number, with an optional sign. -/
def special (cs : List Char) : Parsed Data :=
  let (negative, body) := Binary64.splitSign cs
  if startsWith body ['i', 'n', 'f'] then some (.float (.infinite negative) 0, body.drop 3)
  else if startsWith body ['n', 'a', 'n'] then some (.float .nan 0, body.drop 3)
  else none

/-- A number of any sort. -/
def number (cs : List Char) : Parsed Data :=
  (based cs <|> decimal cs) <|> special cs

/-- How many decimal digits a number begins with, unless it is written in another base. -/
def digitCount (cs : List Char) : Nat :=
  if (based cs).isSome then 0
  else ((digits Char.isDigit (Binary64.splitSign cs).2).elim [] (·.1)).length

/-- What is left to be said of a value that was read as plain: a whole number may have too many
digits. -/
def checkDigits (cs : List Char) : Data → Except Flaw Data
  | .int i =>
    match Fault.ofDigitCount? (digitCount cs) with
    | some fault => .error (.fault fault)
    | none => .ok (.int i)
  | d => .ok d

/-- A truth value. -/
def truth (cs : List Char) : Parsed Data :=
  if startsWith cs ['t', 'r', 'u', 'e'] then some (.bool true, cs.drop 4)
  else if startsWith cs ['f', 'a', 'l', 's', 'e'] then some (.bool false, cs.drop 5)
  else none

end SheetLint.Toml
