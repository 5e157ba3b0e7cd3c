/-!
# Insertion

The run at the front of a list is what is in order already, or strictly in reverse order. A further
item is put in place by halving, behind all items it is not less than. A comparison may fail, and
the first that does ends the work.
-/

namespace SheetLint.Sorting

variable {α ε : Type}

/-- Puts an item into a list that is sorted from the least up. -/
def insert (less : α → α → Except ε Bool) (x : α) (ys : List α) : Except ε (List α) :=
  let half := ys.length / 2
  match _split : ys.drop half with
  | [] => .ok [x]
  | y :: after =>
    match less x y with
    | .error e => .error e
    | .ok true => (insert less x (ys.take half)).map (· ++ y :: after)
    | .ok false => (insert less x after).map (ys.take half ++ y :: ·)
termination_by ys.length
decreasing_by
  · have := congrArg List.length _split
    simp only [List.length_drop, List.length_cons] at this
    simp only [List.length_take]
    omega
  · have := congrArg List.length _split
    simp only [List.length_drop, List.length_cons] at this
    omega

/-- Puts items into a sorted list, one after the other. -/
def insertAll (less : α → α → Except ε Bool) (xs ys : List α) : Except ε (List α) :=
  xs.foldlM (fun done x => insert less x done) ys

/-- Splits off the items as long as each, compared with the one before, is less or is not. -/
def run (less : α → α → Except ε Bool) (falling : Bool) (last : α) :
    List α → Except ε (List α × List α)
  | [] => .ok ([], [])
  | x :: xs =>
    match less x last with
    | .error e => .error e
    | .ok b =>
      if b == falling then (run less falling x xs).map fun (taken, rest) => (x :: taken, rest)
      else .ok ([], x :: xs)

/-- The run at the front, sorted from the least up, and what comes after it. -/
def leadingRun (less : α → α → Except ε Bool) : List α → Except ε (List α × List α)
  | x :: y :: rest =>
    match less y x with
    | .error e => .error e
    | .ok falling =>
      (run less falling y rest).map fun (taken, rest) =>
        let front := x :: y :: taken
        (if falling then front.reverse else front, rest)
  | xs => .ok (xs, [])

end SheetLint.Sorting
