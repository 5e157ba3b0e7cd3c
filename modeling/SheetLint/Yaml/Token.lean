import SheetLint.Yaml.Block
import SheetLint.Yaml.Property

/-!
# Tokens

The text of a document as a row of tokens. Indentation becomes tokens of its own: a mapping or
sequence starts where something is indented further than before and ends where the indentation
goes back. A scalar is only known to be a key when a colon follows it on the same line, so its
place is remembered and the key token is put in front of it later.

Tokens are read as they are asked for, so a flaw only shows to who asks for a token that comes after
it. A token is not given out as long as a key token may still have to be put in front of it.
-/

namespace SheetLint.Yaml

/-- A token. -/
inductive Token where
  | directive (d : Directive)
  | documentStart
  | documentEnd
  | blockSequence
  | blockMapping
  | blockEnd
  | flowSequence
  | flowSequenceEnd
  | flowMapping
  | flowMappingEnd
  | blockEntry
  | flowEntry
  | key
  | value
  | alias (name : String)
  | anchor (name : String)
  | tag (t : TagName)
  | scalar (plain : Bool) (text : String)
  deriving DecidableEq, Repr

/-- The tokens that are given out, and the flaw that comes after them, if there is one. -/
structure Tokens where
  given : List Token
  ending : Option Flaw := none

/-- A place where a key may have begun. A required one has to turn out to be a key. -/
structure PossibleKey where
  index : Nat
  required : Bool
  offset : Nat
  line : Nat
  column : Nat

/-- What has been read of a text. -/
structure Scan where
  cursor : Cursor
  tokens : Array Token := #[]
  indent : Int := -1
  outer : List Int := []
  /-- How many brackets and braces are open. -/
  flow : Nat := 0
  keyAllowed : Bool := true
  /-- The possible keys, by the number of open brackets. -/
  keys : List (Nat × PossibleKey) := []

/-- A step of reading tokens. -/
abbrev Scanner := StateT Scan (Except Flaw)

namespace Scanner

/-- The text is not well formed here. -/
def malformed : Scanner α := throw .malformed

/-- Reads with the cursor. -/
def read (r : Reader α) : Scanner α := do
  let s ← get
  match r.run s.cursor with
  | .ok (a, cursor) =>
    set { s with cursor }
    return a
  | .error flaw => throw flaw

/-- Adds a token. -/
def push (t : Token) : Scanner Unit :=
  modify fun s => { s with tokens := s.tokens.push t }

/-- Adds a token before those from an index on. -/
def insertAt (i : Nat) (t : Token) : Scanner Unit :=
  modify fun s => { s with tokens := s.tokens.insertIdxIfInBounds i t }

/-- Adds a token of a single character, and goes past it. -/
def take (t : Token) : Scanner Unit := do
  read (Reader.forward 1)
  push t

/-- Says whether a key may begin next. -/
def allowKey (b : Bool) : Scanner Unit :=
  modify fun s => { s with keyAllowed := b }

/-- Whether brackets are open. -/
def inFlow : Scanner Bool := do
  return (← get).flow != 0

/-- Whether a possible key can no longer become one. -/
def isStale (s : Scan) (k : PossibleKey) : Bool :=
  k.line != s.cursor.line || k.offset + 1024 < s.cursor.offset

/-- Forgets the keys that can no longer become one; none of these may be required. -/
def dropStale : Scanner Unit := do
  let s ← get
  if s.keys.any fun k => k.2.required && isStale s k.2 then malformed
  else set { s with keys := s.keys.filter fun k => !isStale s k.2 }

/-- Forgets the possible key at this level of brackets, which must not be required. -/
def dropKey : Scanner Unit := do
  let s ← get
  if s.keys.any fun k => k.1 == s.flow && k.2.required then malformed
  else set { s with keys := s.keys.filter fun k => k.1 != s.flow }

/-- Remembers that a key may begin here. -/
def saveKey : Scanner Unit := do
  if (← get).keyAllowed then
    dropKey
    modify fun s =>
      let c := s.cursor
      let required := s.flow == 0 && s.indent == c.column
      { s with keys := (s.flow, ⟨s.tokens.size, required, c.offset, c.line, c.column⟩) :: s.keys }

/-- The indentation after all levels deeper than a column are left: how many were, the level
reached and the levels around it. -/
def leave (column : Int) : Int → List Int → Nat × Int × List Int
  | indent, [] => if column < indent then (1, -1, []) else (0, indent, [])
  | indent, o :: outer =>
    if column < indent then
      let (n, i, os) := leave column o outer
      (n + 1, i, os)
    else (0, indent, o :: outer)

/-- Ends the blocks that are indented deeper than a column. -/
def unwind (column : Int) : Scanner Unit := do
  if !(← inFlow) then
    modify fun s =>
      let (n, indent, outer) := leave column s.indent s.outer
      { s with tokens := s.tokens ++ Array.replicate n .blockEnd, indent, outer }

/-- Enters a block that is indented to a column, if that is deeper than before. -/
def enter (column : Nat) : Scanner Bool := do
  let s ← get
  if s.indent < column then
    set { s with indent := column, outer := s.indent :: s.outer }
    return true
  else return false

/-- Enters a block, outside of brackets and if it is a new one, with its start token at the end. A
key has to be allowed here. -/
def openBlock (t : Token) : Scanner Unit := do
  if !(← inFlow) then
    if !(← get).keyAllowed then malformed
    if ← enter (← get).cursor.column then push t

/-- What stands between documents: all blocks end, and no key may begin. -/
def betweenDocuments : Scanner Unit := do
  unwind (-1)
  dropKey
  allowKey false

/-- A mark between documents. -/
def documentMark (t : Token) : Scanner Unit := do
  betweenDocuments
  read (Reader.forward 3)
  push t

/-- A directive. -/
def directive : Scanner Unit := do
  betweenDocuments
  push (.directive (← read Reader.directive))

/-- An opening bracket or brace. -/
def flowStart (t : Token) : Scanner Unit := do
  saveKey
  modify fun s => { s with flow := s.flow + 1, keyAllowed := true }
  take t

/-- A closing bracket or brace. -/
def flowEnd (t : Token) : Scanner Unit := do
  if !(← inFlow) then malformed
  dropKey
  modify fun s => { s with flow := s.flow - 1, keyAllowed := false }
  take t

/-- A comma within brackets. -/
def flowEntry : Scanner Unit := do
  allowKey true
  dropKey
  take .flowEntry

/-- The dash of an entry. -/
def blockEntry : Scanner Unit := do
  openBlock .blockSequence
  allowKey true
  dropKey
  take .blockEntry

/-- The question mark of a key. -/
def explicitKey : Scanner Unit := do
  openBlock .blockMapping
  allowKey !(← inFlow)
  dropKey
  take .key

/-- The colon of a value. -/
def valueMark : Scanner Unit := do
  let s ← get
  match s.keys.lookup s.flow with
  | some k =>
    set { s with keys := s.keys.filter fun e => e.1 != s.flow }
    insertAt k.index .key
    if !(← inFlow) then
      if ← enter k.column then insertAt k.index .blockMapping
    allowKey false
  | none =>
    openBlock .blockMapping
    allowKey !(← inFlow)
    dropKey
  take .value

/-- Something that may be a key or begin one. -/
def content (r : Reader Token) : Scanner Unit := do
  saveKey
  allowKey false
  push (← read r)

/-- A scalar without quotes. -/
def plainScalar : Scanner Unit := do
  saveKey
  let s ← get
  let (cs, broke) ← read (Reader.plainScalar (s.flow != 0) (s.indent + 1))
  allowKey broke
  push (.scalar true (String.ofList cs))

/-- A block scalar. -/
def blockScalar (isFolded : Bool) : Scanner Unit := do
  allowKey true
  dropKey
  let cs ← read (Reader.blockScalar isFolded (← get).indent)
  push (.scalar false (String.ofList cs))

/-- Characters that mean something else than the start of a plain scalar. -/
def indicators : List Char :=
  ['-', '?', ':', ',', '[', ']', '\x7b', '\x7d', '#', '&', '*', '!', '|', '>', '\x27', '"', '%',
   '@', '\x60']

/-- Whether a plain scalar begins with `ch`, followed by `after`. -/
def startsPlain (inFlow : Bool) (ch : Char) (after : Option Char) : Bool :=
  (!isSpace ch && !indicators.contains ch) ||
    (!endsWord after && (ch == '-' || (!inFlow && (ch == '?' || ch == ':'))))

/-- Reads the token that begins with `ch`. -/
def token (ch : Char) : Scanner Unit := do
  let inFlow ← inFlow
  let atStart := (← get).cursor.column == 0
  let beforeSpace : Scanner Bool := return endsWord (← read (Reader.peek 1))
  if ch == '%' && atStart then directive
  else if ← (if ch == '-' && atStart then read (Reader.isMark '-') else return false) then
    documentMark .documentStart
  else if ← (if ch == '.' && atStart then read (Reader.isMark '.') else return false) then
    documentMark .documentEnd
  else if ch == '[' then flowStart .flowSequence
  else if ch == '\x7b' then flowStart .flowMapping
  else if ch == ']' then flowEnd .flowSequenceEnd
  else if ch == '\x7d' then flowEnd .flowMappingEnd
  else if ch == ',' then flowEntry
  else if ← (if ch == '-' then beforeSpace else return false) then blockEntry
  else if ← (if ch == '?' && !inFlow then beforeSpace else return ch == '?') then explicitKey
  else if ← (if ch == ':' && !inFlow then beforeSpace else return ch == ':') then valueMark
  else if ch == '*' then content (return .alias (← Reader.anchorName))
  else if ch == '&' then content (return .anchor (← Reader.anchorName))
  else if ch == '!' then content (return .tag (← Reader.tagName))
  else if ch == '|' && !inFlow then blockScalar false
  else if ch == '>' && !inFlow then blockScalar true
  else if ch == '\x27' || ch == '"' then
    content (return .scalar false (String.ofList (← Reader.quotedScalar ch)))
  else if startsPlain inFlow ch (← read (Reader.peek 1)) then plainScalar
  else malformed

/-- Reads the next tokens: whether there were any. -/
def fetch : Scanner Bool := do
  let broke ← read (do Reader.toToken ((← get).rest.length + 1) false)
  if broke && !(← inFlow) then allowKey true
  dropStale
  unwind (← get).cursor.column
  match ← read (Reader.peek 0) with
  | none =>
    unwind (-1)
    dropKey
    return false
  | some ch =>
    token ch
    dropStale
    return true

/-- The tokens that are given out when the next ones cannot be read. -/
def givenOut (s : Scan) : List Token :=
  s.tokens.toList.take (s.keys.foldl (fun n k => min n k.2.index) s.tokens.size)

/-- Reads all tokens. Each takes at least one character. -/
def run : (fuel : Nat) → Scan → Tokens
  | 0, s => { given := givenOut s, ending := some .malformed }
  | fuel + 1, s =>
    match StateT.run fetch s with
    | .error flaw => { given := givenOut s, ending := some flaw }
    | .ok (true, s) => run fuel s
    | .ok (false, s) => { given := s.tokens.toList }

end Scanner

/-- The tokens of a source, past a byte order mark. -/
def Tokens.ofSource (source : Source) : Tokens :=
  let start : Cursor := { rest := source.chars, ending := source.ending }
  let start := if start.rest.head? == some '\uFEFF' then start.next else start
  Scanner.run (source.chars.length + 2) { cursor := start }

end SheetLint.Yaml
