import SheetLint.Yaml.Outline

/-!
# Documents

The data that an outline stands for. Of equal keys the first place and the last value count.
Sequences and mappings cannot be keys. A merge key takes in the entries of another mapping, or of
several, of which the earlier count: they come before the mapping's own, and these count against
them. The key for a mapping's own value is a text as a key.

What is written first need not fail first: a collection is made empty and only filled once all
collections around it are. `Outline.check` goes through an outline in this order, level by level,
and gives the first flaw; `Outline.data` is what an outline without a flaw stands for.
-/

namespace SheetLint.Yaml

namespace Tag

/-- Whether things of this sort are made empty and filled later. -/
def isFilledLater : Tag → Bool
  | .seq => true
  | .map => true
  | .set => true
  | .omap => true
  | .pairs => true
  | _ => false

end Tag

namespace Outline

/-- The tag of an outline. Only collections enclose anything. -/
def tag : Outline → Tag
  | .scalar t _ => t
  | .sequence t _ => t
  | .mapping t _ => t
  | .enclosing => .map

/-- Whether an outline stands for something that is made empty and filled later. -/
def isFilledLater (o : Outline) : Bool := o.tag.isFilledLater

/-- The number of parts of an outline. -/
def size : Outline → Nat
  | .scalar .. => 1
  | .sequence _ items => sizeItems items + 1
  | .mapping _ entries => sizeEntries entries + 1
  | .enclosing => 1
where
  sizeItems : List Outline → Nat
    | [] => 0
    | o :: os => size o + sizeItems os
  sizeEntries : List (Outline × Outline) → Nat
    | [] => 0
    | (k, v) :: es => size k + size v + sizeEntries es

mutual

/-- The text that is read under a scalar's tag. A mapping may give it as its own value. -/
def text? : Outline → Option String
  | .scalar _ s => some s
  | .mapping _ entries => ownText? entries
  | _ => none

def ownText? : List (Outline × Outline) → Option String
  | [] => none
  | (k, v) :: es => if k.tag == .value then text? v else ownText? es

end

/-- What stands for something at once. -/
def scalarData (o : Outline) : Except Flaw Data :=
  match o.text? with
  | some s => readScalar o.tag s
  | none => .error .malformed

/-- A key as it stands in a mapping: that of a mapping's own value is a text. -/
def asKey (k : Outline) : Outline :=
  match k with
  | .scalar .value s => .scalar .str s
  | .sequence .value items => .sequence .str items
  | .mapping .value entries => .mapping .str entries
  | _ => k

mutual

/-- The entries of a mapping: those it takes in, then its own. -/
def entries : Outline → Except Flaw (List (Outline × Outline))
  | .mapping _ es =>
    match splitEntries es with
    | .error flaw => .error flaw
    | .ok (taken, own) => .ok (taken ++ own)
  | .enclosing => .ok []
  | _ => .error .malformed

/-- The entries that are taken in by merge keys, and the others. -/
def splitEntries : List (Outline × Outline) →
    Except Flaw (List (Outline × Outline) × List (Outline × Outline))
  | [] => .ok ([], [])
  | (k, v) :: es =>
    let found : Except Flaw (List (Outline × Outline) × List (Outline × Outline)) :=
      if k.tag == .merge then
        match v with
        | .sequence _ items => (mergedItems items).map fun taken => (taken, [])
        | v => (entries v).map fun taken => (taken, [])
      else .ok ([], [(k.asKey, v)])
    match found with
    | .error flaw => .error flaw
    | .ok (taken, own) =>
      match splitEntries es with
      | .error flaw => .error flaw
      | .ok (moreTaken, moreOwn) => .ok (taken ++ moreTaken, own ++ moreOwn)

/-- The entries of several mappings, those of the last first. -/
def mergedItems : List Outline → Except Flaw (List (Outline × Outline))
  | [] => .ok []
  | o :: os =>
    match entries o with
    | .error flaw => .error flaw
    | .ok first =>
      match mergedItems os with
      | .error flaw => .error flaw
      | .ok later => .ok (later ++ first)

end

/-- The one entry of each mapping in a row. -/
def singles : List Outline → Except Flaw (List (Outline × Outline))
  | [] => .ok []
  | .mapping _ [e] :: os => (singles os).map (e :: ·)
  | _ :: _ => .error .malformed

/-- Makes something: what is filled later is given back to be filled. -/
def start (o : Outline) : Except Flaw (List Outline) :=
  if o.isFilledLater then .ok [o]
  else (scalarData o).map fun _ => []

/-- Makes things one after the other. -/
def startAll : List Outline → Except Flaw (List Outline)
  | [] => .ok []
  | o :: os =>
    match start o with
    | .error flaw => .error flaw
    | .ok later => (startAll os).map (later ++ ·)

/-- Makes the keys and values of entries. What is filled later cannot be a key. -/
def startEntries : List (Outline × Outline) → Except Flaw (List Outline)
  | [] => .ok []
  | (k, v) :: es =>
    if k.isFilledLater then .error .malformed
    else
      match startAll [k, v] with
      | .error flaw => .error flaw
      | .ok later => (startEntries es).map (later ++ ·)

/-- Makes the keys and values of single entries, each mapping being looked at when its turn comes.
-/
def startSingles : List Outline → Except Flaw (List Outline)
  | [] => .ok []
  | .mapping _ [(k, v)] :: os =>
    match startAll [k, v] with
    | .error flaw => .error flaw
    | .ok later => (startSingles os).map (later ++ ·)
  | _ :: _ => .error .malformed

/-- Fills a collection: what in it is to be filled later is given back. -/
def fill (o : Outline) : Except Flaw (List Outline) :=
  match o, o.tag with
  | .enclosing, _ => .ok []
  | .sequence _ items, .seq => startAll items
  | .sequence _ items, .omap => startSingles items
  | .sequence _ items, .pairs => startSingles items
  | .mapping .., .map => (entries o).bind startEntries
  | .mapping .., .set => (entries o).bind startEntries
  | _, _ => .error .malformed

/-- Fills collections in order, then all that are found in them, and so on. -/
def fillLevels : (levels : Nat) → List Outline → Except Flaw Unit
  | 0, _ => .ok ()
  | _ + 1, [] => .ok ()
  | n + 1, os =>
    match os.mapM fill with
    | .error flaw => .error flaw
    | .ok found => fillLevels n found.flatten

/-- The first flaw in the order in which things are made. -/
def check (o : Outline) : Except Flaw Unit :=
  match start o with
  | .error flaw => .error flaw
  | .ok later => fillLevels (o.size + 1) later

/-- What an outline without a flaw stands for, to a depth of `depth`. -/
def dataTo : (depth : Nat) → Outline → Data
  | 0, _ => .null
  | d + 1, o =>
    let pairOf (e : Outline × Outline) : Data × Data := (dataTo d e.1, dataTo d e.2)
    let pairs : List (Data × Data) := ((entries o).toOption.getD []).map pairOf
    match o, o.tag with
    | .enclosing, _ => .null
    | .sequence _ items, .seq => .list (items.map (dataTo d))
    | .sequence _ items, .omap => .list (((singles items).toOption.getD []).map fun e =>
        .tuple [dataTo d e.1, dataTo d e.2])
    | .sequence _ items, .pairs => .list (((singles items).toOption.getD []).map fun e =>
        .tuple [dataTo d e.1, dataTo d e.2])
    | .mapping .., .map => .table (Entries.union Data.same [] pairs)
    | .mapping .., .set => .set ((Entries.union Data.same [] pairs).map (·.1))
    | _, _ => (scalarData o).toOption.getD .null

/-- What an outline without a flaw stands for. -/
def data (o : Outline) : Data := dataTo (o.size + 1) o

end Outline

/-- The data of a source, unless it has a flaw. That it is well formed is known before any of its
scalars is read. -/
def parse (source : Source) : Except Flaw Data :=
  match Outline.ofTokens (Tokens.ofSource source) with
  | .error flaw => .error flaw
  | .ok o =>
    match o.check with
    | .error flaw => .error flaw
    | .ok _ => .ok o.data

end SheetLint.Yaml
