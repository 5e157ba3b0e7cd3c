import SheetLint.Toml.Moment
import SheetLint.Toml.Nest

/-!
# Documents

A document is a row of statements, one on a line: a key with a value, a header that opens a table,
or a header that adds a table to a list. Keys are put into the table of the last header.
-/

namespace SheetLint.Toml

/-- What was read, with the text after it, or why nothing was. -/
abbrev Result (α : Type) := Except Flaw (α × List Char)

/-- What was read, where anything else is malformed. -/
def orMalformed (found : Option α) : Except Flaw α :=
  match found with
  | some a => .ok a
  | none => .error .malformed

/-- A truth value, a moment or a number. -/
def plain (cs : List Char) : Result Data :=
  match truth cs, moment cs with
  | some (d, rest), _ => .ok (d, rest)
  | none, some (m, rest) => if m.flaw?.isNone then .ok (.moment m, rest) else .error .malformed
  | none, none =>
    match number cs with
    | none => .error .malformed
    | some (d, rest) => (checkDigits cs d).map (·, rest)

mutual

/-- A value. -/
def value : (fuel : Nat) → List Char → Result Data
  | 0, _ => .error .malformed
  | fuel + 1, cs =>
    match cs with
    | [] => .error .malformed
    | c :: rest =>
      if c == '"' || c == '\x27' then
        (orMalformed (anyString cs)).map fun (s, rest) => (.text s, rest)
      else if c == '[' then
        match skipGaps (rest.length + 1) rest with
        | none => .error .malformed
        | some (']' :: rest) => .ok (.list [], rest)
        | some rest => items fuel [] rest
      else if c == '\x7b' then
        match skipBlanks rest with
        | '\x7d' :: rest => .ok (.table [], rest)
        | rest => inlineEntries fuel [] {} rest
      else plain cs

/-- The items of an array, from the next one on. -/
def items : (fuel : Nat) → List Data → List Char → Result Data
  | 0, _, _ => .error .malformed
  | fuel + 1, found, cs =>
    match value fuel cs with
    | .error flaw => .error flaw
    | .ok (d, rest) =>
      let found := found ++ [d]
      match skipGaps (rest.length + 1) rest with
      | some (']' :: rest) => .ok (.list found, rest)
      | some (',' :: rest) =>
        match skipGaps (rest.length + 1) rest with
        | some (']' :: rest) => .ok (.list found, rest)
        | some rest => items fuel found rest
        | none => .error .malformed
      | _ => .error .malformed

/-- A key, an equals sign and a value. -/
def keyValue : (fuel : Nat) → List Char → Result (List String × Data)
  | 0, _ => .error .malformed
  | fuel + 1, cs =>
    match key cs with
    | some (path, '=' :: rest) =>
      (value fuel (skipBlanks rest)).map fun (d, rest) => ((path, d), rest)
    | _ => .error .malformed

/-- The entries of an inline table, from the next one on. -/
def inlineEntries : (fuel : Nat) → Nest → Marks → List Char → Result Data
  | 0, _, _, _ => .error .malformed
  | fuel + 1, n, marks, cs =>
    match keyValue fuel cs with
    | .error flaw => .error flaw
    | .ok ((path, d), rest) =>
      if marks.isClosed path then .error .malformed
      else
        match n.addAt false path d with
        | none => .error .malformed
        | some n =>
          match skipBlanks rest with
          | '\x7d' :: rest => .ok (.table n, rest)
          | ',' :: rest =>
            let marks :=
              match d with
              | .table _ => marks.setClosed path
              | .list _ => marks.setClosed path
              | _ => marks
            inlineEntries fuel n marks (skipBlanks rest)
          | _ => .error .malformed

end

/-- What the statements so far made, and the path of the last header. -/
structure Builder where
  nest : Nest := []
  marks : Marks := {}
  header : List String := []

namespace Builder

/-- Opens a table. -/
def openTable (b : Builder) (path : List String) : Option Builder :=
  let marks := b.marks.settle
  if marks.isOpened path || marks.isClosed path then none
  else
    (b.nest.modifyAt true some path).map fun nest =>
      { nest, marks := marks.setOpened path, header := path }

/-- Adds a table to a list and opens it. What was said of an earlier one no longer counts. -/
def openListed (b : Builder) (path : List String) : Option Builder :=
  let marks := b.marks.settle
  if marks.isClosed path then none
  else
    (b.nest.appendTableAt path).map fun nest =>
      { nest, marks := (marks.forget path).setOpened path, header := path }

/-- Puts a value at a key below the last header. -/
def assign (b : Builder) (path : List String) (d : Data) : Option Builder :=
  let through := (List.range (path.length - 1)).map fun i => b.header ++ path.take (i + 1)
  if through.any b.marks.isOpened then none
  else
    let marks := through.foldl Marks.setPending b.marks
    let full := b.header ++ path
    if marks.isClosed full.dropLast then none
    else
      (b.nest.addAt true full d).map fun nest =>
        let marks :=
          match d with
          | .table _ => marks.setClosed full
          | .list _ => marks.setClosed full
          | _ => marks
        { b with nest, marks }

/-- Reads the statement that begins here, on a line that is not empty. -/
def statement (b : Builder) (cs : List Char) : Result Builder :=
  match cs with
  | '[' :: '[' :: rest =>
    match key (skipBlanks rest) with
    | some (path, ']' :: ']' :: rest) => (orMalformed (b.openListed path)).map (·, rest)
    | _ => .error .malformed
  | '[' :: rest =>
    match key (skipBlanks rest) with
    | some (path, ']' :: rest) => (orMalformed (b.openTable path)).map (·, rest)
    | _ => .error .malformed
  | '#' :: _ => .ok (b, cs)
  | _ =>
    match keyValue (cs.length + 1) cs with
    | .error flaw => .error flaw
    | .ok ((path, d), rest) => (orMalformed (b.assign path d)).map (·, rest)

/-- Reads all statements, each on lines of its own. -/
def run : (fuel : Nat) → Builder → List Char → Except Flaw Nest
  | 0, _, _ => .error .malformed
  | fuel + 1, b, cs =>
    match skipBlanks cs with
    | [] => .ok b.nest
    | '\n' :: rest => run fuel b rest
    | cs =>
      match b.statement cs with
      | .error flaw => .error flaw
      | .ok (b, rest) =>
        match skipComment (skipBlanks rest) with
        | some [] => .ok b.nest
        | some ('\n' :: rest) => run fuel b rest
        | _ => .error .malformed

end Builder

/-- Writes the line ends of two characters as one. -/
def singleBreaks : List Char → List Char
  | [] => []
  | '\r' :: '\n' :: cs => '\n' :: singleBreaks cs
  | c :: cs => c :: singleBreaks cs

/-- The table of a text, unless the text has a flaw. -/
def parse (text : String) : Except Flaw Nest :=
  let cs := singleBreaks text.toList
  Builder.run (cs.length + 2) {} cs

end SheetLint.Toml
