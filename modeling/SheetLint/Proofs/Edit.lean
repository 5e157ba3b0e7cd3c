import SheetLint.Store

/-!
# Running edits

`Edit.perform` runs a change of the store and gives the outcome with the store afterwards. This
module says what that is for each of the small edits that all others are made of, so that no later
proof has to open the monad.

`Edit.Moves R e` is the notion most invariants are stated with: the edit takes every store to one
that is later in the sense of `R`, whether it gives a result or fails. It follows the shape of the
edit: sequences, loops and branches move a store as far as their parts do. `Edit.Keeps P e` is the
special case in which later means that `P` still holds.
-/

namespace SheetLint.Edit

variable {α β : Type}

@[simp] theorem perform_pure (a : α) (s : Store) : (pure a : Edit α).perform s = (.ok a, s) := rfl

@[simp] theorem perform_throw (f : Fault) (s : Store) :
    (throw f : Edit α).perform s = (.error f, s) := rfl

/-- The second part of a sequence runs on the store that the first one left, unless that one
failed. -/
theorem perform_bind (x : Edit α) (f : α → Edit β) (s : Store) :
    (x >>= f).perform s =
      match x.perform s with
      | (.ok a, t) => (f a).perform t
      | (.error e, t) => (.error e, t) := by
  unfold perform ExceptT.run StateT.run
  cases h : x s with
  | mk r t =>
    cases r with
    | ok a =>
      simp [bind, ExceptT.bind, ExceptT.mk, StateT.bind, ExceptT.bindCont, h]
    | error e =>
      simp [bind, ExceptT.bind, ExceptT.mk, StateT.bind, ExceptT.bindCont, h]
      rfl

/-- A sequence whose first part gives a result. -/
theorem perform_bind_ok {x : Edit α} {s t : Store} {a : α} (h : x.perform s = (.ok a, t))
    (f : α → Edit β) : (x >>= f).perform s = (f a).perform t := by
  rw [perform_bind, h]

/-- A sequence gives a result only if both of its parts do. -/
theorem of_perform_bind_ok {x : Edit α} {f : α → Edit β} {s u : Store} {b : β}
    (h : (x >>= f).perform s = (.ok b, u)) :
    ∃ a t, x.perform s = (.ok a, t) ∧ (f a).perform t = (.ok b, u) := by
  rw [perform_bind] at h
  cases hx : x.perform s with
  | mk r t =>
    rw [hx] at h
    cases r with
    | error e => simp at h
    | ok a => exact ⟨a, t, rfl, h⟩

@[simp] theorem perform_get (s : Store) : (get : Edit Store).perform s = (.ok s, s) := rfl

@[simp] theorem perform_set (s t : Store) : (set t : Edit PUnit).perform s = (.ok ⟨⟩, t) := rfl

@[simp] theorem perform_modify (f : Store → Store) (s : Store) :
    (modify f : Edit PUnit).perform s = (.ok ⟨⟩, f s) := rfl

@[simp] theorem perform_read (f : Store → α) (s : Store) :
    (read f).perform s = (.ok (f s), s) := rfl

@[simp] theorem perform_tryRead (f : Store → Except Fault α) (s : Store) :
    (tryRead f).perform s = (f s, s) := by
  simp only [tryRead, perform_bind, perform_get]
  cases f s <;> rfl

@[simp] theorem perform_newNode (x : Node) (s : Store) :
    (newNode x).perform s = (.ok s.nextNode, s.addNode x) := rfl

@[simp] theorem perform_newList (items : List Value) (s : Store) :
    (newList items).perform s = (.ok s.nextList, s.addList items) := rfl

@[simp] theorem perform_newTable (entries : Table) (s : Store) :
    (newTable entries).perform s = (.ok s.nextTable, s.addTable entries) := rfl

@[simp] theorem perform_newMark (s : Store) :
    newMark.perform s = (.ok s.marks, { s with marks := s.marks + 1 }) := rfl

@[simp] theorem perform_log (m : Message) (s : Store) :
    (log m).perform s = (.ok (), s.note m) := rfl

/-- A change of the store that is refused leaves it as it was. -/
theorem perform_change (f : Store → Except Fault Store) (s : Store) :
    (change f).perform s =
      match f s with
      | .ok t => (.ok (), t)
      | .error e => (.error e, s) := by
  simp only [change, perform_bind, perform_tryRead]
  cases f s <;> rfl

@[simp] theorem perform_forM_nil (f : β → Edit PUnit) (s : Store) :
    (([] : List β).forM f).perform s = (.ok ⟨⟩, s) := rfl

/-- A loop does its first round and then the others. -/
theorem forM_cons (f : β → Edit PUnit) (b : β) (bs : List β) :
    (b :: bs).forM f = f b >>= fun _ => bs.forM f := rfl

/-! ## How an edit moves a store -/

/-- A relation that can hold between a store and those that come out of it step by step. -/
structure IsLater (R : Store → Store → Prop) : Prop where
  refl : ∀ s, R s s
  trans : ∀ {s t u}, R s t → R t u → R s u

/-- The edit takes every store to a later one, whether it gives a result or fails. -/
def Moves (R : Store → Store → Prop) (e : Edit α) : Prop :=
  ∀ s, R s (e.perform s).2

section Moves

variable {R : Store → Store → Prop} (hR : IsLater R)
include hR

theorem moves_pure (a : α) : Moves R (pure a) := hR.refl

theorem moves_throw (f : Fault) : Moves R (throw f : Edit α) := hR.refl

theorem moves_read (f : Store → α) : Moves R (read f) := hR.refl

theorem moves_tryRead (f : Store → Except Fault α) : Moves R (tryRead f) := by
  intro s
  rw [perform_tryRead]
  exact hR.refl s

theorem moves_change {f : Store → Except Fault Store} (h : ∀ s t, f s = .ok t → R s t) :
    Moves R (change f) := by
  intro s
  rw [perform_change]
  cases hf : f s with
  | error e => exact hR.refl s
  | ok t => exact h s t hf

/-- A sequence moves a store as far as its parts do. -/
theorem moves_bind {x : Edit α} {f : α → Edit β} (hx : Moves R x) (hf : ∀ a, Moves R (f a)) :
    Moves R (x >>= f) := by
  intro s
  have ht := hx s
  rw [perform_bind]
  cases hr : x.perform s with
  | mk r t =>
    rw [hr] at ht
    cases r with
    | error e => exact ht
    | ok a => exact hR.trans ht (hf a t)

theorem moves_forM {f : β → Edit PUnit} (hf : ∀ b, Moves R (f b)) (bs : List β) :
    Moves R (bs.forM f) := by
  induction bs with
  | nil => exact hR.refl
  | cons b bs ih =>
    rw [forM_cons]
    exact moves_bind hR (hf b) fun _ => ih

end Moves

/-- From a store of which `P` holds, the edit ends in one of which `P` holds. -/
def Keeps (P : Store → Prop) (e : Edit α) : Prop :=
  Moves (fun s t => P s → P t) e

/-- What holds again after every step holds in all later stores. -/
theorem isLater_keeps (P : Store → Prop) : IsLater fun s t => P s → P t where
  refl _ h := h
  trans hst htu h := htu (hst h)

end SheetLint.Edit
