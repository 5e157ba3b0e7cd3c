import SheetLint.Yaml.Cursor

/-!
# Scalars over several lines

Scalars in quotes and plain ones may go on over a line break. A single break becomes a space, and of
several the first is dropped. In double quotes a backslash escapes; in single quotes a doubled quote
is a quote.
-/

namespace SheetLint.Yaml

/-- The character an escape letter stands for. -/
def escapeOf? (c : Char) : Option Char :=
  [('0', '\x00'), ('a', '\x07'), ('b', '\x08'), ('t', '\t'), ('\t', '\t'), ('n', '\n'),
   ('v', '\x0b'), ('f', '\x0c'), ('r', '\r'), ('e', '\x1b'), (' ', ' '), ('"', '"'),
   ('\\', '\\'), ('/', '/'), ('N', '\x85'), ('_', '\xa0'), ('L', '\u2028'),
   ('P', '\u2029')].lookup c

/-- The number of hexadecimal digits after an escape letter. -/
def escapeWidth? (c : Char) : Option Nat :=
  [('x', 2), ('u', 4), ('U', 8)].lookup c

/-- The value of a hexadecimal digit. -/
def hexValue? (c : Char) : Option Nat :=
  if c.isDigit then some (c.toNat - '0'.toNat)
  else if 'a' ≤ c && c ≤ 'f' then some (c.toNat - 'a'.toNat + 10)
  else if 'A' ≤ c && c ≤ 'F' then some (c.toNat - 'A'.toNat + 10)
  else none

/-- The character at a code point, which may be half of a pair. -/
def charAt (n : Nat) : Except Fault Char :=
  if 0x80000000 ≤ n then .error .hugeCodePoint
  else if 0x110000 ≤ n then .error .noCodePoint
  else .ok (Text.Half.charAt n)

/-- What a line break and the breaks after it become. -/
def folded (first : Char) (more : List Char) : List Char :=
  if first != '\n' then first :: more
  else if more.isEmpty then [' ']
  else more

namespace Reader

/-- The number that is written next with hexadecimal digits, of which there have to be `width`. -/
def hexNumber : (width : Nat) → (index value : Nat) → Reader Nat
  | 0, _, value => return value
  | width + 1, index, value => do
    match (← peek index).bind hexValue? with
    | some d => hexNumber width (index + 1) (16 * value + d)
    | none => malformed

/-- The line breaks from here on, past the blanks around them. A mark between documents must not
follow. -/
def quotedBreaks : (fuel : Nat) → Reader (List Char)
  | 0 => return []
  | fuel + 1 => do
    if ← isAnyMark then malformed
    else
      let _ ← span isBlank
      match ← lineBreak? with
      | some ch => return ch :: (← quotedBreaks fuel)
      | none => return []

/-- What an escape stands for, from after its backslash on. -/
def escaped : Reader (List Char) := do
  match ← peek 0 with
  | none => malformed
  | some e =>
    match escapeOf? e, escapeWidth? e with
    | some x, _ =>
      forward 1
      return [x]
    | none, some width =>
      forward 1
      match charAt (← hexNumber width 0 0) with
      | .error fault => throw (.fault fault)
      | .ok x =>
        forward width
        return [x]
    | none, none =>
      match ← lineBreak? with
      | some _ => quotedBreaks (← get).rest.length
      | none => malformed

/-- The blanks within a quoted scalar, or what a line break among them becomes. -/
def quotedSpaces : Reader (List Char) := do
  let blanks ← span isBlank
  match ← peek 0 with
  | none => malformed
  | some _ =>
    match ← lineBreak? with
    | some first => return folded first (← quotedBreaks (← get).rest.length)
    | none => return blanks

/-- Whether a character has a meaning of its own within quotes. -/
def stopsQuoted (ch : Char) : Bool := ch == '\x27' || ch == '"' || ch == '\\' || isSpace ch

/-- The rest of a quoted scalar up to and past its closing quote, given what was found before it,
the last character first. -/
def quotedRest (quote : Char) : (fuel : Nat) → (found : List Char) → Reader (List Char)
  | 0, _ => malformed
  | fuel + 1, found => do
    let found := (← span fun ch => !stopsQuoted ch).reverse ++ found
    match ← peek 0 with
    | none => malformed
    | some ch =>
      if ch == quote then
        if quote == '\x27' && (← peek 1) == some quote then
          forward 2
          quotedRest quote fuel (quote :: found)
        else
          forward 1
          return found.reverse
      else if ch == '\\' && quote == '"' then
        forward 1
        quotedRest quote fuel ((← escaped).reverse ++ found)
      else if isSpace ch then quotedRest quote fuel ((← quotedSpaces).reverse ++ found)
      else
        forward 1
        quotedRest quote fuel (ch :: found)

/-- A scalar in quotes. -/
def quotedScalar (quote : Char) : Reader (List Char) := do
  forward 1
  quotedRest quote ((← get).rest.length + 1) []

/-- The marks of brackets and of their entries. -/
def flowMarks : List Char := [',', '[', ']', '\x7b', '\x7d']

/-- The length of a run of a plain scalar: up to a space, a colon that ends a key, or, within
brackets, one of their marks. -/
def plainLength (inFlow : Bool) : List Char → Nat
  | [] => 0
  | ch :: rest =>
    let ends (x : Option Char) : Bool := endsWord x || (inFlow && x.elim false flowMarks.contains)
    if isSpace ch || (ch == ':' && ends rest.head?) ||
        (inFlow && (ch == '?' || flowMarks.contains ch)) then 0
    else plainLength inFlow rest + 1

/-- A run of a plain scalar. -/
def plainRun (inFlow : Bool) : Reader (List Char) := do
  if (← peek 0) == some '#' then return []
  else
    let rest := (← get).rest
    let n := plainLength inFlow rest
    let last ← peek n
    if last == some ':' then
      let _ ← peek (n + 1)
    let run := rest.take n
    if n != 0 then forward n
    return run

/-- The breaks after the first one in a plain scalar; `none` at a mark between documents. -/
def plainBreaks : (fuel : Nat) → Reader (Option (List Char))
  | 0 => return some []
  | fuel + 1 => do
    if ← isAnyMark then return none
    else
      skipBlanks
      match ← lineBreak? with
      | some ch => return (← plainBreaks fuel).map (ch :: ·)
      | none => return some []

/-- What stands between two runs of a plain scalar, and whether a line break was passed. -/
def plainSpaces : Reader (List Char × Bool) := do
  let blanks ← span (· == ' ')
  match ← lineBreak? with
  | some first =>
    match ← plainBreaks (← get).rest.length with
    | some more => return (folded first more, true)
    | none => return ([], true)
  | none => return (blanks, false)

/-- A plain scalar, whose further lines have to be indented by `indent`: its text, given what was
found before with the last character first, and whether a line break was passed at its end. -/
def plainRest (inFlow : Bool) (indent : Int) :
    (fuel : Nat) → (found : List Char) → (broke : Bool) → (spaces : List Char) →
      Reader (List Char × Bool)
  | 0, found, broke, _ => return (found.reverse, broke)
  | fuel + 1, found, broke, spaces => do
    let run ← plainRun inFlow
    if run.isEmpty then return (found.reverse, broke)
    else
      let found := run.reverse ++ (spaces.reverse ++ found)
      let (spaces, broke) ← plainSpaces
      if spaces.isEmpty || (← peek 0) == some '#' ||
          (!inFlow && ((← get).column : Int) < indent) then
        return (found.reverse, broke)
      else plainRest inFlow indent fuel found broke spaces

/-- A plain scalar, and whether a line break was passed at its end. -/
def plainScalar (inFlow : Bool) (indent : Int) : Reader (List Char × Bool) := do
  plainRest inFlow indent ((← get).rest.length + 1) [] false []

end Reader

end SheetLint.Yaml
