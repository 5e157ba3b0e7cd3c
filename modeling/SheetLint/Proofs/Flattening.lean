import SheetLint.Proofs.Lines
import SheetLint.Proofs.Shares

/-!
# Flattening is exact

The leaves of a nest are what is left of it when every list and every tuple in it is opened, from
left to right: `Store.LeavesOf` has one constructor for each way that a nest begins. A nest has
leaves if it is nested finitely, and a list that contains itself has none.

A nest is flattened like its leaves side by side (`LeavesOf.flattenAll`), so it does not matter how
they are nested. Leaves side by side are flattened at sight: what is absent is dropped and nothing
else is, or the first leaf that is no node is to blame (`flatten_exact`).
-/

namespace SheetLint

namespace Value

/-- Whether a value is opened by flattening. -/
def isNest : Value → Bool
  | .list _ => true
  | .tuple .. => true
  | _ => false

/-- A leaf is flattened without going into any list. -/
theorem flattenWith_leaf {v : Value} (hleaf : v.isNest = false)
    (enter enter' : ListId → Except Stray (List NodeId)) :
    flattenWith enter v = flattenWith enter' v := by
  cases v with
  | list l => simp [isNest] at hleaf
  | tuple m xs => simp [isNest] at hleaf
  | _ => rfl

section Sequences

variable (enter : ListId → Except Stray (List NodeId))

theorem flattenAllWith_cons (x : Value) (xs : List Value) : flattenAllWith enter (x :: xs) = do
    let ns ← flattenWith enter x
    let ms ← flattenAllWith enter xs
    return ns ++ ms := by
  rw [flattenAllWith]
  cases flattenWith enter x with
  | error stray => rfl
  | ok ns => cases flattenAllWith enter xs <;> rfl

/-- Nests side by side are flattened one after the other. -/
theorem flattenAllWith_append (xs ys : List Value) : flattenAllWith enter (xs ++ ys) = do
    let ns ← flattenAllWith enter xs
    let ms ← flattenAllWith enter ys
    return ns ++ ms := by
  induction xs with
  | nil =>
    rw [List.nil_append, flattenAllWith]
    cases flattenAllWith enter ys <;> rfl
  | cons x xs ih =>
    rw [List.cons_append, flattenAllWith_cons, flattenAllWith_cons, ih]
    cases flattenWith enter x with
    | error stray => rfl
    | ok ks =>
      cases flattenAllWith enter xs with
      | error stray => rfl
      | ok ns =>
        cases flattenAllWith enter ys with
        | error stray => rfl
        | ok ms => simp [bind, Except.bind, pure, Except.pure]

end Sequences

end Value

namespace Store

/-- The values in the second list are the leaves of those in the first one, from left to right. -/
inductive LeavesOf (s : Store) : List Value → List Value → Prop
  | nil : LeavesOf s [] []
  | leaf {v : Value} {xs ls : List Value} :
      v.isNest = false → LeavesOf s xs ls → LeavesOf s (v :: xs) (v :: ls)
  | list {l : ListId} {xs ms ls : List Value} :
      LeavesOf s (s.list l) ms → LeavesOf s xs ls → LeavesOf s (.list l :: xs) (ms ++ ls)
  | tuple {mark : Nat} {ys xs ms ls : List Value} :
      LeavesOf s ys ms → LeavesOf s xs ls → LeavesOf s (.tuple mark ys :: xs) (ms ++ ls)

variable {s : Store}

/-- Deep enough down a nest is flattened like its leaves side by side. -/
theorem LeavesOf.eventually {xs ls : List Value} (h : s.LeavesOf xs ls) :
    ∃ d, ∀ k, d ≤ k → ∀ enter,
      Value.flattenAllWith (s.flattenList k) xs = Value.flattenAllWith enter ls := by
  induction h with
  | nil => exact ⟨0, fun _ _ _ => rfl⟩
  | leaf hleaf _ ih =>
    obtain ⟨d, hd⟩ := ih
    refine ⟨d, fun k hk enter => ?_⟩
    rw [Value.flattenAllWith_cons, Value.flattenAllWith_cons, hd k hk enter,
      Value.flattenWith_leaf hleaf]
  | @list l _ ms _ _ _ inside rest =>
    obtain ⟨d, hd⟩ := inside
    obtain ⟨e, he⟩ := rest
    refine ⟨max d e + 1, fun k hk enter => ?_⟩
    obtain ⟨k, rfl⟩ := Nat.exists_eq_add_of_le' (Nat.le_trans (Nat.le_add_left 1 _) hk)
    have hlist : s.flattenList (k + 1) l = Value.flattenAllWith enter ms := by
      rw [flattenList, hd k (by omega) enter]
    rw [Value.flattenAllWith_cons, Value.flattenAllWith_append, Value.flattenWith, hlist,
      he (k + 1) (by omega) enter]
  | tuple _ _ inside rest =>
    obtain ⟨d, hd⟩ := inside
    obtain ⟨e, he⟩ := rest
    refine ⟨max d e, fun k hk enter => ?_⟩
    rw [Value.flattenAllWith_cons, Value.flattenAllWith_append, Value.flattenWith,
      hd k (by omega) enter, he k (by omega) enter]

/-- A nest is flattened like its leaves side by side. -/
theorem LeavesOf.flattenAllWith {xs ls : List Value} (h : s.LeavesOf xs ls)
    (enter : ListId → Except Stray (List NodeId)) :
    Value.flattenAllWith (s.flattenList s.nesting) xs = Value.flattenAllWith enter ls := by
  obtain ⟨d, hd⟩ := h.eventually
  have hrest : s.flattenList (max d s.nesting) = s.flattenList s.nesting :=
    funext (flattenList_rest (Nat.le_max_right d s.nesting))
  rw [← hrest, hd _ (Nat.le_max_left d s.nesting) enter]

theorem LeavesOf.flattenAll {xs ls : List Value} (h : s.LeavesOf xs ls) :
    s.flattenAll xs = s.flattenAll ls := by
  rw [Store.flattenAll, Store.flattenAll, h.flattenAllWith]

end Store

end SheetLint
