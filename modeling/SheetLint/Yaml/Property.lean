import SheetLint.Yaml.Quoted

/-!
# Directives, names and tags

A directive stands at the start of a line before a document, and gives the version or a short form
of tags. Anchors and aliases are names of ASCII letters, digits, dashes and underscores. A tag is a
handle, which is a short form, and a suffix, or a suffix alone; bytes in a suffix may be escaped.
-/

namespace SheetLint.Yaml

/-- A tag as it is written. Without a handle the suffix is the tag. -/
structure TagName where
  handle : Option String
  suffix : String
  deriving DecidableEq, Repr

/-- A directive. -/
inductive Directive where
  | version (major : Nat)
  | tag (handle lead : String)
  | other
  deriving DecidableEq, Repr

/-- Whether a character may stand in a name. -/
def isNameChar (c : Char) : Bool :=
  c.isDigit || ('A' ≤ c && c ≤ 'Z') || ('a' ≤ c && c ≤ 'z') || c == '-' || c == '_'

/-- Whether a character may stand in the suffix of a tag. -/
def isTagChar (c : Char) : Bool :=
  isNameChar c || "-;/?:@&=+$,_.!~*'()[]%".toList.contains c

namespace Reader

/-- A name, which is not empty. -/
def name : Reader (List Char) := do
  let cs ← span isNameChar
  if cs.isEmpty then malformed else return cs

/-- The name of an anchor or alias, after its mark. -/
def anchorName : Reader String := do
  forward 1
  let cs ← name
  let mayFollow (ch : Char) : Bool := isSpace ch || "?:,]\x7d%@\x60".toList.contains ch
  if endOr mayFollow (← peek 0) then return String.ofList cs else malformed

/-- Escaped bytes, from the first percent sign on. -/
def escapedBytes : (fuel : Nat) → Reader (List UInt8)
  | 0 => return []
  | fuel + 1 => do
    if (← peek 0) == some '%' then
      forward 1
      let b ← hexNumber 2 0 0
      forward 2
      return UInt8.ofNat b :: (← escapedBytes fuel)
    else return []

/-- The suffix of a tag, given what was found of it before. -/
def tagSuffixRest : (fuel : Nat) → (found : List Char) → Reader (List Char)
  | 0, found => return found
  | fuel + 1, found => do
    let found := found ++ (← span fun c => isTagChar c && c != '%')
    if (← peek 0) == some '%' then
      let bytes ← escapedBytes (← get).rest.length
      match String.fromUTF8? (ByteArray.mk bytes.toArray) with
      | some s => tagSuffixRest fuel (found ++ s.toList)
      | none => malformed
    else return found

/-- The suffix of a tag, which has at least one character or escape. -/
def tagSuffix : Reader String := do
  match ← peek 0 with
  | some ch =>
    if isTagChar ch then
      return String.ofList (← tagSuffixRest ((← get).rest.length + 1) [])
    else malformed
  | none => malformed

/-- The handle of a tag: one mark, or a name between two. -/
def tagHandle : Reader String := do
  if (← peek 0) == some '!' then
    if (← peek 1) == some ' ' then
      forward 1
      return "!"
    else
      forward 1
      let cs ← span isNameChar
      if (← peek 0) == some '!' then
        forward 1
        return String.ofList ('!' :: cs ++ ['!'])
      else malformed
  else malformed

/-- A tag. -/
def tagName : Reader TagName := do
  let found : TagName ←
    match ← peek 1 with
    | some '<' => do
      forward 2
      let suffix ← tagSuffix
      if (← peek 0) == some '>' then
        forward 1
        pure ⟨none, suffix⟩
      else malformed
    | after =>
      if endsWord after then do
        forward 1
        pure ⟨none, "!"⟩
      else do
        let word := ((← get).rest.drop 1).takeWhile fun ch => ch != ' ' && !isBreak ch
        if !word.contains '!' then
          let _ ← peek (word.length + 1)
          forward 1
          pure ⟨some "!", ← tagSuffix⟩
        else pure ⟨some (← tagHandle), ← tagSuffix⟩
  if endsPart (← peek 0) then return found else malformed

/-- A number of a version. -/
def versionNumber : Reader Nat := do
  let ds ← span Char.isDigit
  if ds.isEmpty then malformed
  else
    match Fault.ofDigitCount? ds.length with
    | some fault => throw (.fault fault)
    | none => return ds.foldl (fun n c => 10 * n + (c.toNat - '0'.toNat)) 0

/-- A version: two numbers with a point between them. -/
def version : Reader Directive := do
  skipBlanks
  let major ← versionNumber
  if (← peek 0) == some '.' then
    forward 1
    let _ ← versionNumber
    if endsPart (← peek 0) then return .version major else malformed
  else malformed

/-- A short form of tags. -/
def tagDirective : Reader Directive := do
  skipBlanks
  let handle ← tagHandle
  if (← peek 0) == some ' ' then
    skipBlanks
    let lead ← tagSuffix
    if endsPart (← peek 0) then return .tag handle lead else malformed
  else malformed

/-- A directive, after its mark. What an unknown one says does not count. -/
def directive : Reader Directive := do
  forward 1
  let cs ← name
  if endsPart (← peek 0) then
    let found ←
      match String.ofList cs with
      | "YAML" => version
      | "TAG" => tagDirective
      | _ => do
        let _ ← span fun ch => !isBreak ch
        pure .other
    restOfLine
    return found
  else malformed

end Reader

end SheetLint.Yaml
