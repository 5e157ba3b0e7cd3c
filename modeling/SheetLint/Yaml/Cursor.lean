import SheetLint.Yaml.Source

/-!
# Cursors

A cursor is a place in a source: what is left of it, and the line and the column reached. A line
also ends at the three line separators beyond ASCII. A `Reader` moves a cursor, and fails when it
has to look beyond what can be read.
-/

namespace SheetLint.Yaml

/-- A place in a source. -/
structure Cursor where
  rest : List Char
  ending : Option Flaw := none
  line : Nat := 0
  column : Nat := 0
  offset : Nat := 0

/-- Whether a character ends a line. -/
def isBreak (c : Char) : Bool :=
  c == '\n' || c == '\x85' || c == '\u2028' || c == '\u2029'

/-- Whether a character is a blank. -/
def isBlank (c : Char) : Bool := c == ' ' || c == '\t'

/-- Whether a character is a blank or ends a line. -/
def isSpace (c : Char) : Bool := isBlank c || isBreak c

/-- Whether nothing is next or a character of a sort. -/
def endOr (p : Char → Bool) (c : Option Char) : Bool := c.elim true p

/-- Whether nothing or a space is next. -/
def endsWord (c : Option Char) : Bool := endOr isSpace c

/-- Whether nothing, a plain blank or the end of the line is next. -/
def endsPart (c : Option Char) : Bool := endOr (fun ch => ch == ' ' || isBreak ch) c

/-- Whether the line ends here. -/
def endsLine (c : Option Char) : Bool := endOr isBreak c

/-- What a line break stands for within a scalar. -/
def breakText (c : Char) : Char :=
  if c == '\x85' then '\n' else c

namespace Cursor

/-- One place on. -/
def next (c : Cursor) : Cursor :=
  match c.rest with
  | [] => c
  | ch :: rest =>
    let moved := { c with rest, offset := c.offset + 1 }
    if isBreak ch then { moved with line := c.line + 1, column := 0 }
    else if ch == '\uFEFF' then moved
    else { moved with column := c.column + 1 }

/-- Several places on. -/
def skip (c : Cursor) : Nat → Cursor
  | 0 => c
  | n + 1 => c.next.skip n

end Cursor

/-- Something that moves a cursor and gives a result, or fails. -/
abbrev Reader := StateT Cursor (Except Flaw)

namespace Reader

/-- The text is not well formed here. -/
def malformed : Reader α := throw .malformed

/-- The character some places on; `none` at the end of the text. -/
def peek (n : Nat) : Reader (Option Char) := do
  let c ← get
  match c.rest[n]?, c.ending with
  | some ch, _ => return some ch
  | none, none => return none
  | none, some flaw => throw flaw

/-- Some places on. What comes next has to be there. -/
def forward (n : Nat) : Reader Unit := do
  modify (·.skip n)
  let _ ← peek 0

/-- Past all characters of a sort, which are given. -/
def span (p : Char → Bool) : Reader (List Char) := do
  let run := (← get).rest.takeWhile p
  let _ ← peek run.length
  forward run.length
  return run

/-- Past plain blanks. -/
def skipBlanks : Reader Unit := do
  let _ ← span (· == ' ')

/-- Past a comment, if one begins here. -/
def skipComment : Reader Unit := do
  if (← peek 0) == some '#' then
    let _ ← span fun ch => !isBreak ch

/-- Past a line break, if one is next: what it stands for. -/
def lineBreak? : Reader (Option Char) := do
  match ← peek 0 with
  | some ch =>
    if isBreak ch then
      forward 1
      return some (breakText ch)
    else return none
  | none => return none

/-- Past what may stand on the rest of a line, which is a comment at most, and past its end. -/
def restOfLine : Reader Unit := do
  skipBlanks
  skipComment
  if endsLine (← peek 0) then
    let _ ← lineBreak?
  else malformed

/-- Whether three of a character and then a space are next. -/
def isMark (ch : Char) : Reader Bool := do
  let _ ← peek 2
  if (← get).rest.take 3 == [ch, ch, ch] then return endsWord (← peek 3)
  else return false

/-- Whether either mark between documents is next. -/
def isAnyMark : Reader Bool := do
  if ← isMark '-' then return true else isMark '.'

/-- Past blanks, comments and line breaks; whether a line break was among them. -/
def toToken : (fuel : Nat) → (broke : Bool) → Reader Bool
  | 0, broke => return broke
  | fuel + 1, broke => do
    skipBlanks
    skipComment
    match ← lineBreak? with
    | some _ => toToken fuel true
    | none => return broke

end Reader

end SheetLint.Yaml
