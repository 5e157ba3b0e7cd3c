import SheetLint.Store.Backing

/-!
# Reach and collection

A node stays in the store as long as it can be reached from a value that is still in use, through
the fields of nodes, lists, tuples, tables, lints and agents. Parent references do not keep
anything: that is what makes it safe to write them during a walk. `Store.collect` clears every
other place and erases the references to what is gone.

What is let go between two collections is gone at once, unless it holds itself: a knot of things
that hold one another waits for the next collection, with everything that it holds. `Store.release`
erases the references to what is gone in this way.
-/

namespace SheetLint

namespace Value

mutual

/-- The things a value is or has in full, as far as they can be referred to or hold more. -/
def cells : Value → List Cell
  | .node n => [.node n]
  | .list l => [.list l]
  | .table t => [.table t]
  | .agent i => [.agent i]
  | .tuple _ xs => cellsAll xs
  | .location m l c n => .location m :: (cells l ++ cells c ++ cells n)
  | .lint m source file loc words sev _ =>
    .lint m :: (cells source ++ cells file ++ cells loc ++ cells words ++ cells sev)
  | _ => []

def cellsAll : List Value → List Cell
  | [] => []
  | x :: xs => cells x ++ cellsAll xs

end

end Value

/-- A search from the values in use: what was found so far and what is still to be looked into. -/
structure Search where
  found : List Cell := []
  pending : List Cell

namespace Search

/-- Looks into the next thing, unless it was seen before. -/
def step (contents : Cell → List Value) (q : Search) : Search :=
  match q.pending with
  | [] => q
  | c :: rest =>
    if q.found.contains c then { q with pending := rest }
    else { found := c :: q.found, pending := Value.cellsAll (contents c) ++ rest }

/-- Looks on for a number of steps. -/
def run (contents : Cell → List Value) : (steps : Nat) → Search → Search
  | 0, q => q
  | n + 1, q => if q.pending.isEmpty then q else run contents n (step contents q)

end Search

namespace Store

/-- The places of a store. -/
def places (s : Store) : List Cell :=
  (List.range s.nodes.size).map .node ++ (List.range s.lists.size).map .list ++
    (List.range s.tables.size).map .table ++ (List.range s.agents.size).map .agent

/-- What a thing of the store holds. -/
def contents (s : Store) : Cell → List Value
  | .node n => (s.node? n).elim [] Node.held
  | .list l => s.list l
  | .table t => (s.table t).keys ++ (s.table t).values
  | .agent i => (s.agent? i).elim [] Agent.held
  | _ => []

/-- The things that some things lead to, with these. Everything is looked into once, so the search
needs no more steps than there are things to be found in all places. -/
def reachFrom (s : Store) (cells : List Cell) : List Cell :=
  let steps := s.places.foldl (fun n c => n + (Value.cellsAll (s.contents c)).length) cells.length
  (Search.run s.contents steps { pending := cells }).found

/-- The things that values lead to. -/
def reach (s : Store) (values : List Value) : List Cell :=
  s.reachFrom (Value.cellsAll values)

/-- How many things of each sort there are, with values that lead to what is in use. -/
def baselineFor (s : Store) (values : List Value) : Baseline where
  values
  nodes := s.nodes.size
  lists := s.lists.size
  tables := s.tables.size
  agents := s.agents.size
  marks := s.marks
  references := s.backingTables.map fun t => (t, s.backedReference t)

/-- A reference that is marked if what it refers to does not stay. -/
def keepParent (stays : Cell → Bool) : Backref → Backref
  | .to p => if p.cell?.elim false stays then .to p else .gone
  | r => r

/-- Marks the references to what does not stay. -/
def keepParents (s : Store) (stays : Cell → Bool) : Store :=
  { s with
    nodes := s.nodes.map (·.map fun x => { x with parent := keepParent stays x.parent })
    agents := s.agents.map fun a => { a with parent := a.parent.map (keepParent stays) } }

/-- Clears every node that is not among the things kept. An agent that is not among them refers to
nothing any more. -/
def clear (s : Store) (kept : List Cell) : Store :=
  { s with
    nodes := s.nodes.mapIdx fun n x => if kept.contains (.node n) then x else none
    agents := s.agents.mapIdx fun i a =>
      if kept.contains (.agent i) then a else { a with parent := none } }

/-- Clears every node that these values do not lead to. -/
def collect (s : Store) (values : List Value) : Store :=
  let kept := s.reach values
  let cleared := (s.clear kept).keepParents kept.contains
  { cleared with baseline := cleared.baselineFor values }

/-- Gives the references to parents a place among the other attributes of their nodes. -/
def placeReferences (s : Store) : Store :=
  { s with nodes := s.nodes.map (·.map Node.placed) }

/-- Whether a thing was made since the last collection. -/
def isRecent (s : Store) : Cell → Bool
  | .node n => s.baseline.nodes ≤ n
  | .list l => s.baseline.lists ≤ l
  | .table t => s.baseline.tables ≤ t
  | .agent i => s.baseline.agents ≤ i
  | .number m => s.baseline.marks ≤ m
  | .tuple m => s.baseline.marks ≤ m
  | .location m => s.baseline.marks ≤ m
  | .lint m => s.baseline.marks ≤ m

/-- The things in use: those that names led to at the last collection, those made since, and all
that these lead to now. -/
def inUse (s : Store) : List Cell :=
  s.reachFrom (Value.cellsAll s.baseline.values ++ s.places.filter s.isRecent)

/-- What is left of a row of things when those that none of them holds go, and then those that
none of the others holds, and so on: the knots, and what they hold. -/
def knots (s : Store) : (rounds : Nat) → List Cell → List Cell
  | 0, cs => cs
  | n + 1, cs =>
    let held := Value.cellsAll (cs.flatMap s.contents)
    s.knots n (cs.filter held.contains)

/-- Marks the references to what these values led to and nothing in use leads to any more. -/
def release (s : Store) (values : List Value) : Store :=
  let used := s.inUse
  let loose := (s.reach values).filter fun c => !(s.isRecent c || used.contains c)
  let waiting := s.knots loose.length loose
  s.keepParents fun c => waiting.contains c || !loose.contains c

end Store

end SheetLint
