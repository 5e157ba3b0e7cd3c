import SheetLint.Sorting.Runs

/-!
# Sorting with a comparison that may fail

The rank of an item is the number of items that are less than it. A comparison is consistent on a
list if an item is less than another exactly if it has a lower rank; then the items are put in the
order of their ranks, and those of one rank keep their order. Every stable way of sorting gives
this list.

Where the comparison is not consistent, or fails for some items, there is no such list, and what
comes out depends on which items are compared: then the list is sorted by runs.
-/

namespace SheetLint.Sorting

variable {α ε : Type}

/-- For each item, whether each of the items is less than it. -/
def below (less : α → α → Except ε Bool) (xs : List α) : Except ε (List (List Bool)) :=
  xs.mapM fun y => xs.mapM fun x => less x y

/-- How many items are less than an item. -/
def rank (row : List Bool) : Nat := row.count true

/-- Whether items are less than others exactly if they have a lower rank. -/
def isConsistent (table : List (List Bool)) : Bool :=
  let ranks := table.map rank
  table.all fun row =>
    let own := rank row
    row == ranks.map fun r => decide (r < own)

/-- Items in the order of their ranks. -/
def byRank (ranks : List Nat) (xs : List α) : List α :=
  ((ranks.zip xs).mergeSort fun p q => decide (p.1 ≤ q.1)).map (·.2)

/-- Sorts from the least up. -/
def sort (less : α → α → Except ε Bool) (xs : List α) : Except ε (List α) :=
  match below less xs with
  | .error _ => byRuns less xs
  | .ok table =>
    if isConsistent table then .ok (byRank (table.map rank) xs) else byRuns less xs

end SheetLint.Sorting
