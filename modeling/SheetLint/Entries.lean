/-!
# Entries in order of insertion

A table is a list of key-value pairs. Writing to a key that is present keeps its place and the
key as first written, and replaces the value; a new key goes to the end. Which keys count as
the same is a parameter, since a number may be spelled in several ways.
-/

namespace SheetLint.Entries

variable {κ : Type u} {α : Type v}

/-- The value at a key. -/
def get? (same : κ → κ → Bool) (k : κ) : List (κ × α) → Option α
  | [] => none
  | (k', v) :: es => if same k' k then some v else get? same k es

/-- Writes a value at a key. -/
def put (same : κ → κ → Bool) (k : κ) (v : α) : List (κ × α) → List (κ × α)
  | [] => [(k, v)]
  | (k', v') :: es => if same k' k then (k', v) :: es else (k', v') :: put same k v es

/-- Writes all of `new` over `old`, in order. -/
def union (same : κ → κ → Bool) (old new : List (κ × α)) : List (κ × α) :=
  new.foldl (fun es e => put same e.1 e.2 es) old

end SheetLint.Entries
