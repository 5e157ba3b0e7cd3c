import SheetLint.Tree.Children

/-!
# Walks

A walk visits a node, then everything below it, depth first, before it goes on to the next
sibling. It keeps the nodes still to visit on a stack. A node's children are only computed when
the walk goes on from it, so whoever looks at a node during the walk sees the store as it was
before that; a walk that is left early leaves the rest of the tree untouched.
-/

namespace SheetLint

/-- How a walk ended. -/
inductive WalkEnd where
  /-- Nothing was left to visit. -/
  | done
  /-- As many nodes were visited as were asked for. -/
  | limit
  /-- The children of the last node could not be computed. -/
  | failed (fault : Fault)

/-- What a walk visited, each node with the store at the time of its visit, and how it ended. -/
structure Walk where
  visits : List (Value × Store)
  finish : WalkEnd
  store : Store

namespace Walk

/-- A walk that visits one more node first. -/
def visiting (v : Value) (s : Store) (w : Walk) : Walk :=
  { w with visits := (v, s) :: w.visits }

/-- Visits up to `limit` nodes, with these on the stack. -/
def fromStack (policy : ParentPolicy) : (limit : Nat) → (stack : List NodeId) → Store → Walk
  | 0, _, s => ⟨[], .limit, s⟩
  | _ + 1, [], s => ⟨[], .done, s⟩
  | 1, n :: _, s => ⟨[(.node n, s)], .limit, s⟩
  | k + 2, n :: rest, s =>
    match (Edit.children n policy).perform s with
    | (.error fault, s') => ⟨[(.node n, s)], .failed fault, s'⟩
    | (.ok cs, s') => (fromStack policy (k + 1) (cs ++ rest) s').visiting (.node n) s

/-- Walks from a value. One that is no node is visited too, and then has no children. -/
def start (policy : ParentPolicy) (limit : Nat) (root : Value) (s : Store) : Walk :=
  match root with
  | .node n => fromStack policy limit [n] s
  | _ =>
    match limit with
    | 0 => ⟨[], .limit, s⟩
    | 1 => ⟨[(root, s)], .limit, s⟩
    | _ => ⟨[(root, s)], .failed (.notANode (s.typeName root)), s⟩

end Walk

end SheetLint
