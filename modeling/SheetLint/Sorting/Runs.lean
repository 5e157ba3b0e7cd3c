import SheetLint.Sorting.Insertion
import SheetLint.Sorting.Merging

/-!
# Sorting by runs

A list is cut into runs, short ones are filled up by insertion, and neighbouring runs are merged.
Which runs are merged first is decided by their powers: the power of a border between two runs says
at which depth of a balanced tree over the whole list their middles part.
-/

namespace SheetLint.Sorting

variable {α ε : Type}

/-- A run with its place in the whole list and the power of the border behind it. -/
structure Run (α : Type) where
  start : Nat
  items : List α
  power : Nat := 0

/-- Lists shorter than this are one run. -/
def shortList : Nat := 64

/-- The least length of a run in a list of a length, so that the number of runs is about a power of
two. -/
def minRunFrom : (fuel length carry : Nat) → Nat
  | 0, length, carry => length + carry
  | fuel + 1, length, carry =>
    if length < shortList then length + carry
    else minRunFrom fuel (length / 2) (max carry (length % 2))

/-- The least length of a run in a list of a length. -/
def minRun (length : Nat) : Nat := minRunFrom length length 0

/-- The first binary digit in which two fractions of `size` differ, counted from `digit`. -/
def powerFrom (size : Nat) : (fuel digit low high : Nat) → Nat
  | 0, digit, _, _ => digit
  | fuel + 1, digit, low, high =>
    if size ≤ low then powerFrom size fuel (digit + 1) (2 * (low - size)) (2 * (high - size))
    else if size ≤ high then digit
    else powerFrom size fuel (digit + 1) (2 * low) (2 * high)

/-- The power of the border between a run and one of a length right behind it, in a list of a
size. -/
def Run.powerBefore (r : Run α) (next size : Nat) : Nat :=
  let low := 2 * r.start + r.items.length
  powerFrom size size 1 low (low + r.items.length + next)

/-- Merges the top of a stack of runs as long as the border below it has a greater power. -/
def settle (less : α → α → Except ε Bool) (power : Nat) :
    (fuel patience : Nat) → List (Run α) → Except ε (List (Run α) × Nat)
  | fuel + 1, patience, b :: a :: rest =>
    if power < a.power then do
      let (items, patience) ← merge less patience a.items b.items
      settle less power fuel patience ({ a with items } :: rest)
    else .ok (b :: a :: rest, patience)
  | _, patience, stack => .ok (stack, patience)

/-- Puts a run on the stack. -/
def push (less : α → α → Except ε Bool) (size patience : Nat) (r : Run α) :
    List (Run α) → Except ε (List (Run α) × Nat)
  | [] => .ok ([r], patience)
  | top :: rest => do
    let power := top.powerBefore r.items.length size
    let (stack, patience) ← settle less power rest.length patience (top :: rest)
    match stack with
    | [] => return ([r], patience)
    | top :: rest => return (r :: { top with power } :: rest, patience)

/-- Cuts a list into runs and puts them on the stack. -/
def gather (less : α → α → Except ε Bool) (size : Nat) :
    (fuel patience start : Nat) → (rest : List α) → List (Run α) →
      Except ε (List (Run α) × Nat)
  | 0, patience, _, _, stack => .ok (stack, patience)
  | fuel + 1, patience, start, rest, stack =>
    if rest.isEmpty then .ok (stack, patience)
    else do
      let (front, rest) ← leadingRun less rest
      let missing := minRun size - front.length
      let items ← insertAll less (rest.take missing) front
      let (stack, patience) ← push less size patience { start, items } stack
      gather less size fuel patience (start + items.length) (rest.drop missing) stack

/-- Merges what is left on the stack, from the top, but the second and third run first if the third
is shorter than the top. -/
def collapse (less : α → α → Except ε Bool) :
    (fuel patience : Nat) → List (Run α) → Except ε (List α)
  | fuel + 1, patience, c :: b :: rest => do
    match rest with
    | a :: below =>
      if a.items.length < c.items.length then
        let (items, patience) ← merge less patience a.items b.items
        collapse less fuel patience (c :: { a with items } :: below)
      else
        let (items, patience) ← merge less patience b.items c.items
        collapse less fuel patience ({ b with items } :: rest)
    | [] =>
      let (items, patience) ← merge less patience b.items c.items
      collapse less fuel patience [{ b with items }]
  | _, _, stack => .ok (stack.reverse.flatMap (·.items))

/-- Sorts by runs. -/
def byRuns (less : α → α → Except ε Bool) (xs : List α) : Except ε (List α) := do
  let (stack, patience) ← gather less xs.length xs.length worthwhile 0 xs []
  collapse less stack.length patience stack

end SheetLint.Sorting
