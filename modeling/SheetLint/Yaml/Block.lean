import SheetLint.Yaml.Quoted

/-!
# Block scalars

A block scalar is the indented lines after its header. After a bar the lines stay as they are; after
an angle a single break between two lines that begin with no blank becomes a space. The header may
name the indentation, which else is that of the first line, and say whether the breaks at the end
are kept, dropped, or reduced to one.
-/

namespace SheetLint.Yaml

/-- What happens to the line breaks at the end of a block scalar. -/
inductive Chomping where
  | clip
  | strip
  | keep
  deriving DecidableEq, Repr

namespace Reader

/-- A sign of the header, if one is next. -/
def chomping? : Reader (Option Chomping) := do
  match ← peek 0 with
  | some '+' =>
    forward 1
    return some .keep
  | some '-' =>
    forward 1
    return some .strip
  | _ => return none

/-- An indentation named by the header, if one is next. It is not zero. -/
def increment? : Reader (Option Nat) := do
  match ← peek 0 with
  | some ch =>
    if ch == '0' then malformed
    else if ch.isDigit then
      forward 1
      return some (ch.toNat - '0'.toNat)
    else return none
  | none => return none

/-- The header: a sign and a number in either order. -/
def blockHeader : Reader (Chomping × Option Nat) := do
  let found : Chomping × Option Nat ←
    match ← chomping? with
    | some sign => do pure (sign, ← increment?)
    | none => do
      match ← increment? with
      | some n => do pure ((← chomping?).getD .clip, some n)
      | none => pure (.clip, none)
  if endsPart (← peek 0) then
    restOfLine
    return found
  else malformed

/-- Past plain blanks up to a column. -/
def indentTo (column : Nat) : Reader Unit := do
  let c ← get
  let n := ((c.rest.takeWhile (· == ' ')).take (column - c.column)).length
  let _ ← peek n
  forward n

/-- The line breaks of empty lines, each indented to a column at most. -/
def blockBreaks (column : Nat) : (fuel : Nat) → Reader (List Char)
  | 0 => return []
  | fuel + 1 => do
    indentTo column
    match ← lineBreak? with
    | some ch => return ch :: (← blockBreaks column fuel)
    | none => return []

/-- The line breaks before the first line, and the greatest column reached on the way. -/
def leadingBreaks : (fuel : Nat) → (most : Nat) → Reader (List Char × Nat)
  | 0, most => return ([], most)
  | fuel + 1, most => do
    skipBlanks
    let most := max most (← get).column
    match ← lineBreak? with
    | some ch =>
      let (more, most) ← leadingBreaks fuel most
      return (ch :: more, most)
    | none => return ([], most)

/-- Whether a further line of the block is next. -/
def isBlockLine (column : Nat) : Reader Bool := do
  return (← peek 0).isSome && (← get).column == column

/-- The lines of a block, given what was found before with the last character first, and the breaks
before the next line: all that was found, the last line break and the breaks after it. -/
def blockLines (isFolded : Bool) (column : Nat) :
    (fuel : Nat) → (found breaks : List Char) → Reader (List Char × List Char × List Char)
  | 0, found, breaks => return (found.reverse, [], breaks)
  | fuel + 1, found, breaks => do
    let startsBlank (c : Option Char) : Bool := c.elim false isBlank
    let isPlain := !startsBlank (← peek 0)
    let found := (← span fun ch => !isBreak ch).reverse ++ (breaks.reverse ++ found)
    let last := (← lineBreak?).toList
    let breaks ← blockBreaks column (← get).rest.length.succ
    if ← isBlockLine column then
      let between :=
        if isFolded && last == ['\n'] && isPlain && !startsBlank (← peek 0) then
          (if breaks.isEmpty then [' '] else [])
        else last
      blockLines isFolded column fuel (between ++ found) breaks
    else return (found.reverse, last, breaks)

/-- A block scalar below a block that is indented by `indent`. -/
def blockScalar (isFolded : Bool) (indent : Int) : Reader (List Char) := do
  forward 1
  let (chomping, increment) ← blockHeader
  let least := max (indent + 1) 1
  let fuel := (← get).rest.length + 1
  let (breaks, column) : List Char × Nat ←
    match increment with
    | none => do
      let (breaks, most) ← leadingBreaks fuel 0
      pure (breaks, max least.toNat most)
    | some n => do
      let column := least.toNat + n - 1
      pure (← blockBreaks column fuel, column)
  let (found, last, breaks) : List Char × List Char × List Char ←
    if ← isBlockLine column then blockLines isFolded column fuel [] breaks
    else pure ([], [], breaks)
  match chomping with
  | .strip => return found
  | .clip => return found ++ last
  | .keep => return found ++ last ++ breaks

end Reader

end SheetLint.Yaml
