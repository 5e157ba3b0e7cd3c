/-!
# Merging

Two neighbouring runs are merged from the end where less has to be moved. As long as neither run
wins many times in a row the heads are compared one by one; else the place of a head in the other
run is searched in growing strides, and all before it is moved at once. How many wins it takes is
the patience, which goes up when the strides do not pay and down while they do.

Which items are compared is fixed by this, and so is what becomes of runs whose items have no
consistent order.
-/

namespace SheetLint.Sorting

variable {α ε : Type}

/-- Halves a range of places until it is empty: the first place that does not pass the test. -/
def bisect (passes : Nat → Except ε Bool) : (fuel low high : Nat) → Except ε Nat
  | 0, _, high => .ok high
  | fuel + 1, low, high =>
    if low < high then do
      let mid := low + (high - low) / 2
      if ← passes mid then bisect passes fuel (mid + 1) high
      else bisect passes fuel low mid
    else .ok high

/-- Goes on in strides of 1, 3, 7 and so on as long as the test is passed: the last stride that did,
and the one after it or the limit. -/
def stride (passes : Nat → Except ε Bool) (limit : Nat) :
    (fuel last next : Nat) → Except ε (Nat × Nat)
  | 0, last, next => .ok (last, min next limit)
  | fuel + 1, last, next =>
    if next < limit then do
      if ← passes next then stride passes limit fuel next (2 * next + 1)
      else return (last, next)
    else .ok (last, limit)

/-- How many items at the front of a row pass a test that those after them fail, searched in
strides from a hint. -/
def gallop (test : α → Except ε Bool) (row : List α) (hint : Nat) : Except ε Nat := do
  let items := row.toArray
  let passes (i : Nat) : Except ε Bool := (items[i]?).elim (.ok false) test
  if ← passes hint then
    let (last, next) ← stride (fun o => passes (hint + o)) (items.size - hint) items.size 0 1
    bisect passes items.size (hint + last + 1) (hint + next)
  else
    let (last, next) ← stride (fun o => (passes (hint - o)).map not) (hint + 1) items.size 0 1
    bisect passes items.size (hint + 1 - next) (hint - last)

/-- How many items of a row go before `x`, which stays behind its equals. -/
def placeAfter (less : α → α → Except ε Bool) (x : α) (row : List α) (hint : Nat) :
    Except ε Nat :=
  gallop (fun y => (less x y).map not) row hint

/-- How many items of a row go before `x`, which stays in front of its equals. -/
def placeBefore (less : α → α → Except ε Bool) (x : α) (row : List α) (hint : Nat) :
    Except ε Nat :=
  gallop (fun y => less y x) row hint

/-- How a merge goes on: item by item, with how many times each run has just won, or in
strides. -/
inductive Pace where
  | steps (left right : Nat)
  | strides

/-- Strides pay as long as one of them moves this many items. -/
def worthwhile : Nat := 7

/-- The pace and the patience after a stride that moved so many items of each run. -/
def afterStride (patience left right : Nat) : Pace × Nat :=
  if worthwhile ≤ left || worthwhile ≤ right then (.strides, patience)
  else (.steps 0 0, patience + 1)

/-- Merges from the front. The last item of the left run belongs at the very end. -/
def mergeUp (less : α → α → Except ε Bool) :
    (fuel : Nat) → Pace → (patience : Nat) → (left right done : List α) →
      Except ε (List α × Nat)
  | 0, _, patience, left, right, done => .ok (done ++ left ++ right, patience)
  | fuel + 1, .steps a b, patience, x :: left, y :: right, done => do
    if ← less y x then
      let done := done ++ [y]
      if right.isEmpty then return (done ++ x :: left, patience)
      else if patience ≤ b + 1 then
        mergeUp less fuel .strides (patience + 1) (x :: left) right done
      else mergeUp less fuel (.steps 0 (b + 1)) patience (x :: left) right done
    else
      let done := done ++ [x]
      if left.length == 1 then return (done ++ y :: right ++ left, patience)
      else if patience ≤ a + 1 then
        mergeUp less fuel .strides (patience + 1) left (y :: right) done
      else mergeUp less fuel (.steps (a + 1) 0) patience left (y :: right) done
  | fuel + 1, .strides, patience, left, y :: right, done => do
    let patience := max 1 (patience - 1)
    let a ← placeAfter less y left 0
    let done := done ++ left.take a
    let left := left.drop a
    if a != 0 && left.length ≤ 1 then return (done ++ y :: right ++ left, patience)
    else
      let done := done ++ [y]
      if right.isEmpty then return (done ++ left, patience)
      else
        match left with
        | [] => return (done ++ right, patience)
        | x :: left =>
          let b ← placeBefore less x right 0
          let done := done ++ right.take b
          let right := right.drop b
          if right.isEmpty then return (done ++ x :: left, patience)
          else
            let done := done ++ [x]
            if left.length == 1 then return (done ++ right ++ left, patience)
            else
              let (pace, patience) := afterStride patience a b
              mergeUp less fuel pace patience left right done
  | _, _, patience, left, right, done => .ok (done ++ left ++ right, patience)

/-- Merges from the back. Both runs are given in reverse; the first item of the right run belongs at
the very front. -/
def mergeDown (less : α → α → Except ε Bool) :
    (fuel : Nat) → Pace → (patience : Nat) → (left right done : List α) →
      Except ε (List α × Nat)
  | 0, _, patience, left, right, done => .ok (left.reverse ++ right.reverse ++ done, patience)
  | fuel + 1, .steps a b, patience, x :: left, y :: right, done => do
    if ← less y x then
      let done := x :: done
      if left.isEmpty then return ((y :: right).reverse ++ done, patience)
      else if patience ≤ a + 1 then
        mergeDown less fuel .strides (patience + 1) left (y :: right) done
      else mergeDown less fuel (.steps (a + 1) 0) patience left (y :: right) done
    else
      let done := y :: done
      if right.length == 1 then return (right ++ (x :: left).reverse ++ done, patience)
      else if patience ≤ b + 1 then
        mergeDown less fuel .strides (patience + 1) (x :: left) right done
      else mergeDown less fuel (.steps 0 (b + 1)) patience (x :: left) right done
  | fuel + 1, .strides, patience, left, y :: right, done => do
    let patience := max 1 (patience - 1)
    let kept ← placeAfter less y left.reverse (left.length - 1)
    let a := left.length - kept
    let done := (left.take a).reverse ++ done
    let left := left.drop a
    match left with
    | [] => return ((y :: right).reverse ++ done, patience)
    | x :: left =>
      let done := y :: done
      if right.length == 1 then return (right ++ (x :: left).reverse ++ done, patience)
      else
        let kept ← placeBefore less x right.reverse (right.length - 1)
        let b := right.length - kept
        let done := (right.take b).reverse ++ done
        let right := right.drop b
        if b != 0 && right.length ≤ 1 then
          return (right ++ (x :: left).reverse ++ done, patience)
        else
          let done := x :: done
          if left.isEmpty then return (right.reverse ++ done, patience)
          else
            let (pace, patience) := afterStride patience a b
            mergeDown less fuel pace patience left right done
  | _, _, patience, left, right, done =>
    .ok (left.reverse ++ right.reverse ++ done, patience)

/-- Merges two runs that overlap throughout: the head of the right one comes first and the last of
the left one comes last. -/
def mergeOverlap (less : α → α → Except ε Bool) (patience : Nat) (left right : List α) :
    Except ε (List α × Nat) :=
  let fuel := left.length + right.length
  if left.length ≤ right.length then
    let done := right.take 1
    let right := right.drop 1
    if right.isEmpty then .ok (done ++ left, patience)
    else if left.length == 1 then .ok (done ++ right ++ left, patience)
    else mergeUp less fuel (.steps 0 0) patience left right done
  else
    let done := left.reverse.take 1
    let left := left.reverse.drop 1
    if left.isEmpty then .ok (right ++ done, patience)
    else if right.length == 1 then .ok (right ++ left.reverse ++ done, patience)
    else mergeDown less fuel (.steps 0 0) patience left right.reverse done

/-- Merges two neighbouring runs. What is in place already at either end is left alone. -/
def merge (less : α → α → Except ε Bool) (patience : Nat) (left right : List α) :
    Except ε (List α × Nat) := do
  match right with
  | [] => return (left, patience)
  | y :: _ =>
    let a ← placeAfter less y left 0
    match (left.drop a).getLast? with
    | none => return (left ++ right, patience)
    | some x =>
      let b ← placeBefore less x right (right.length - 1)
      if b == 0 then return (left ++ right, patience)
      else
        let (middle, patience) ← mergeOverlap less patience (left.drop a) (right.take b)
        return (left.take a ++ middle ++ right.drop b, patience)

end SheetLint.Sorting
