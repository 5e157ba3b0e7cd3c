import SheetLint.Yaml.Scalar
import SheetLint.Yaml.Token

/-!
# Outlines

A row of tokens as a tree of scalars, sequences and mappings, as they are written, each with its
tag. A text holds at most one document; an empty one is nothing. What is missing between a key and
the next, or after a dash, is nothing too. An alias stands for a copy of what its anchor is put to.
What the scalars stand for is not looked at here.
-/

namespace SheetLint.Yaml

/-- A document as it is written. -/
inductive Outline where
  | scalar (tag : Tag) (text : String)
  | sequence (tag : Tag) (items : List Outline)
  | mapping (tag : Tag) (entries : List (Outline × Outline))
  /-- An alias of something that it is a part of. -/
  | enclosing
  deriving Inhabited

/-- Where something is missing, nothing stands. -/
def Outline.nothing : Outline := .scalar .null ""

/-- What is left of the tokens, the flaw after them, the anchors and the short forms of tags. -/
structure Layout where
  tokens : List Token
  ending : Option Flaw
  anchors : List (String × Outline) := []
  handles : List (String × String) := []

/-- A part of reading an outline. -/
abbrev Outliner := StateT Layout (Except Flaw)

namespace Outliner

/-- The tokens are in no order that has a meaning. -/
def malformed : Outliner α := throw .malformed

/-- The next token; `none` at the end. -/
def peek : Outliner (Option Token) := do
  let l ← get
  match l.tokens, l.ending with
  | t :: _, _ => return some t
  | [], none => return none
  | [], some flaw => throw flaw

/-- Past the next token. -/
def advance : Outliner Unit :=
  modify fun l => { l with tokens := l.tokens.drop 1 }

/-- Whether one of these tokens is next. -/
def isNext (among : List Token) : Outliner Bool := do
  return (← peek).elim false among.contains

/-- Past a token, if it is next; whether it was. -/
def accept (t : Token) : Outliner Bool := do
  if ← isNext [t] then
    advance
    return true
  else return false

/-- Past a token that has to be next. -/
def expect (t : Token) : Outliner Unit := do
  if !(← accept t) then malformed

/-- The short forms of tags that need no directive. -/
def standardHandles : List (String × String) := [("!", "!"), ("!!", Tag.lead)]

/-- An anchor, if one is next. -/
def anchor? : Outliner (Option String) := do
  match ← peek with
  | some (.anchor name) =>
    advance
    return some name
  | _ => return none

/-- A tag, if one is next. -/
def tag? : Outliner (Option TagName) := do
  match ← peek with
  | some (.tag t) =>
    advance
    return some t
  | _ => return none

/-- An anchor and a tag in either order, as far as they are there. -/
def properties : Outliner (Option String × Option TagName) := do
  match ← anchor? with
  | some a => return (some a, ← tag?)
  | none =>
    match ← tag? with
    | some t => return (← anchor?, some t)
    | none => return (none, none)

/-- The full name of a tag; a lone mark says no more than no tag does. -/
def fullName (t : TagName) : Outliner (Option String) := do
  let name ←
    match t.handle with
    | none => pure t.suffix
    | some h =>
      match (← get).handles.lookup h with
      | some lead => pure (lead ++ t.suffix)
      | none => malformed
  return some name

/-- The tag of a sequence or mapping. -/
def collectionTag (name : Option String) (standard : Tag) : Tag :=
  match name with
  | none => standard
  | some n => if n == "!" then standard else Tag.ofName n

/-- The tag of a scalar. -/
def scalarTag (name : Option String) (plain : Bool) (text : String) : Tag :=
  match name with
  | none => if plain then Tag.ofPlain text else .str
  | some n => if n == "!" then Tag.ofPlain text else Tag.ofName n

/-- Puts an anchor to an outline. -/
def record (anchor : Option String) (o : Outline) : Outliner Unit :=
  match anchor with
  | none => return
  | some a => modify fun l => { l with anchors := (a, o) :: l.anchors }

/-- Fails if an anchor is already put to something. -/
def checkAnchor (anchor : Option String) : Outliner Unit := do
  match anchor with
  | none => return
  | some a => if ((← get).anchors.lookup a).isSome then malformed

/-- A scalar. -/
def scalar (anchor tag : Option String) (plain : Bool) (text : String) : Outliner Outline := do
  checkAnchor anchor
  let o := Outline.scalar (scalarTag tag plain text) text
  record anchor o
  return o

/-- A sequence or mapping, given how to read what is in it. An alias within it is one of something
that it is a part of. -/
def collection (anchor : Option String) (body : Outliner Outline) : Outliner Outline := do
  checkAnchor anchor
  record anchor .enclosing
  let o ← body
  record anchor o
  return o

mutual

/-- A node. Blocks are allowed outside of brackets, and as the value of a key also a sequence that
is not indented. -/
def node : (fuel : Nat) → (block loose : Bool) → Outliner Outline
  | 0, _, _ => malformed
  | fuel + 1, block, loose => do
    match ← peek with
    | some (.alias name) =>
      advance
      match (← get).anchors.lookup name with
      | some o => return o
      | none => malformed
    | _ =>
      let (anchor, written) ← properties
      let tag ←
        match written with
        | some t => fullName t
        | none => pure none
      let sequence := collectionTag tag .seq
      let mapping := collectionTag tag .map
      match ← peek with
      | some (.scalar plain s) =>
        advance
        scalar anchor tag plain s
      | some .flowSequence =>
        collection anchor (do advance; return .sequence sequence (← flowItems fuel true []))
      | some .flowMapping =>
        collection anchor (do advance; return .mapping mapping (← flowEntries fuel true []))
      | next =>
        if loose && next == some .blockEntry then
          collection anchor (do return .sequence sequence (← looseItems fuel []))
        else if block && next == some .blockSequence then
          collection anchor (do advance; return .sequence sequence (← blockItems fuel []))
        else if block && next == some .blockMapping then
          collection anchor (do advance; return .mapping mapping (← blockEntries fuel []))
        else if anchor.isSome || tag.isSome then scalar anchor tag true ""
        else malformed

/-- A node, or nothing if one of these tokens is next. -/
def nodeUnless : (fuel : Nat) → (block loose : Bool) → List Token → Outliner Outline
  | 0, _, _, _ => malformed
  | fuel + 1, block, loose, among => do
    if ← isNext among then return .nothing else node fuel block loose

/-- The entries of an indented sequence. -/
def blockItems : (fuel : Nat) → List Outline → Outliner (List Outline)
  | 0, _ => malformed
  | fuel + 1, items => do
    if ← accept .blockEntry then
      let o ← nodeUnless fuel true false [.blockEntry, .blockEnd]
      blockItems fuel (o :: items)
    else
      expect .blockEnd
      return items.reverse

/-- The entries of a sequence that is not indented below its key. -/
def looseItems : (fuel : Nat) → List Outline → Outliner (List Outline)
  | 0, _ => malformed
  | fuel + 1, items => do
    if ← accept .blockEntry then
      let o ← nodeUnless fuel true false [.blockEntry, .key, .value, .blockEnd]
      looseItems fuel (o :: items)
    else return items.reverse

/-- The entries of an indented mapping. -/
def blockEntries : (fuel : Nat) → List (Outline × Outline) → Outliner (List (Outline × Outline))
  | 0, _ => malformed
  | fuel + 1, entries => do
    if ← accept .key then
      let ends : List Token := [.key, .value, .blockEnd]
      let k ← nodeUnless fuel true true ends
      let v ← if ← accept .value then nodeUnless fuel true true ends else pure .nothing
      blockEntries fuel ((k, v) :: entries)
    else
      expect .blockEnd
      return entries.reverse

/-- The items within brackets. -/
def flowItems : (fuel : Nat) → (first : Bool) → List Outline → Outliner (List Outline)
  | 0, _, _ => malformed
  | fuel + 1, first, items => do
    if ← accept .flowSequenceEnd then return items.reverse
    else
      if !first then expect .flowEntry
      if ← accept .key then
        let e ← flowPair fuel [.flowEntry, .flowSequenceEnd]
        flowItems fuel false (.mapping .map [e] :: items)
      else if ← accept .flowSequenceEnd then return items.reverse
      else
        let o ← node fuel false false
        flowItems fuel false (o :: items)

/-- A key and its value within brackets, after the key token. -/
def flowPair : (fuel : Nat) → (ends : List Token) → Outliner (Outline × Outline)
  | 0, _ => malformed
  | fuel + 1, ends => do
    let k ← nodeUnless fuel false false (.value :: ends)
    let v ← if ← accept .value then nodeUnless fuel false false ends else pure .nothing
    return (k, v)

/-- The entries within braces. -/
def flowEntries :
    (fuel : Nat) → (first : Bool) → List (Outline × Outline) → Outliner (List (Outline × Outline))
  | 0, _, _ => malformed
  | fuel + 1, first, entries => do
    if ← accept .flowMappingEnd then return entries.reverse
    else
      if !first then expect .flowEntry
      if ← accept .key then
        let e ← flowPair fuel [.flowEntry, .flowMappingEnd]
        flowEntries fuel false (e :: entries)
      else if ← accept .flowMappingEnd then return entries.reverse
      else
        let k ← node fuel false false
        flowEntries fuel false ((k, .nothing) :: entries)

end

/-- The directives before a document. There is one version at most, which has to be one that is
known, and one meaning for each short form. -/
def directives : (fuel : Nat) → (versioned : Bool) → List (String × String) →
    Outliner (List (String × String))
  | 0, _, _ => malformed
  | fuel + 1, versioned, handles => do
    match ← peek with
    | some (.directive d) =>
      advance
      match d with
      | .version major =>
        if versioned || major != 1 then malformed else directives fuel true handles
      | .tag handle lead =>
        if (handles.lookup handle).isSome then malformed
        else directives fuel versioned ((handle, lead) :: handles)
      | .other => directives fuel versioned handles
    | _ => return handles ++ standardHandles

/-- Past the marks that end documents. -/
def documentEnds : (fuel : Nat) → Outliner Unit
  | 0 => return
  | fuel + 1 => do
    if ← accept .documentEnd then documentEnds fuel

/-- The content of a document. -/
def content (fuel : Nat) : Outliner Outline := do
  match ← peek with
  | none => return .nothing
  | some (.directive _) => explicit
  | some .documentStart => explicit
  | some _ =>
    modify fun l => { l with handles := standardHandles }
    node fuel true false
where
  /-- A document with a start mark, before which directives may stand. -/
  explicit : Outliner Outline := do
    let handles ← directives fuel false []
    modify fun l => { l with handles }
    expect .documentStart
    match ← peek with
    | none => return .nothing
    | some (.directive _) => return .nothing
    | some .documentStart => return .nothing
    | some .documentEnd => return .nothing
    | some _ => node fuel true false

/-- The one document of a text. -/
def document (fuel : Nat) : Outliner Outline := do
  let o ← content fuel
  documentEnds fuel
  match ← peek with
  | none => return o
  | some _ =>
    let _ ← directives fuel false []
    let _ ← peek
    malformed

end Outliner

/-- The outline of a row of tokens. -/
def Outline.ofTokens (ts : Tokens) : Except Flaw Outline :=
  let fuel := 4 * ts.given.length + 4
  match (Outliner.document fuel).run { tokens := ts.given, ending := ts.ending } with
  | .ok (o, _) => .ok o
  | .error flaw => .error flaw

end SheetLint.Yaml
