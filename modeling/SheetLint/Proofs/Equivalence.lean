import Mathlib.Data.List.Perm.Subperm
import SheetLint.Proofs.Sameness

/-!
# Equality is an equivalence

Equality of values is decided by one step that asks about members, again and again
(`Store.same_unfold`). Among plain values it is an equivalence. `Store.Plain` says what these are:
an inductive predicate, so that a plain value has no cycle in what it is compared by, and none of
its numbers is undefined. All facts about them follow its cases.

The members of a container may be one and the same thing, which makes them equal without a look at
what they are. Among plain values that makes no difference: one and the same thing is the same value
(`Store.Plain.eq_of_identical`), and every plain value equals itself (`Store.Plain.same_self`).

Tables are compared regardless of the order of their entries. As many entries with different keys,
of which each has its like in the other table, are all the likes there are (`Table.agree_symm`).
-/

namespace SheetLint

namespace Magnitude

/-- Two defined points are the same if they are one. -/
theorem same_iff {x y : Magnitude} (hx : x ≠ .undefined) :
    x.same y = true ↔ some y = some x := by
  simp [same, hx, eq_comm]

end Magnitude

namespace Form

/-- The class of a node tells whether it is an expression. -/
theorem isExpression_eq_derives (f : Form) : f.isExpression = f.nodeClass.derives .script := by
  cases f with
  | bare => rfl
  | expression e => cases e <;> rfl
  | statement children st =>
    cases st with
    | carrier c expr => cases c <;> rfl
    | callable isFunction name args splat => cases isFunction <;> rfl
    | _ => rfl

/-- Only a bare node is of the bare class. -/
theorem eq_bare_iff (f : Form) : f = .bare ↔ f.nodeClass = .bare := by
  cases f with
  | bare => simp [nodeClass]
  | expression e => cases e <;> simp [nodeClass, Expression.nodeClass]
  | statement children st =>
    cases st with
    | carrier c expr => cases c <;> simp [nodeClass, Statement.nodeClass, Carrier.nodeClass]
    | callable isFunction name args splat =>
      cases isFunction <;> simp [nodeClass, Statement.nodeClass]
    | _ => simp [nodeClass, Statement.nodeClass]

end Form

namespace Value

variable {a b c : Value} {r : Value → Value → Bool}

/-! ## Item by item -/

theorem pairwise_self : ∀ {xs : List Value}, (∀ x ∈ xs, r x x = true) → pairwise r xs xs = true
  | [], _ => rfl
  | x :: xs, h => by
    rw [pairwise, h x (List.mem_cons_self ..), Bool.true_and]
    exact pairwise_self fun y hy => h y (List.mem_cons_of_mem _ hy)

/-- Comparing rows is symmetric if comparing their members is. -/
theorem pairwise_symm : ∀ {xs ys : List Value},
    (∀ x ∈ xs, ∀ y ∈ ys, r x y = true → r y x = true) → pairwise r xs ys = true →
      pairwise r ys xs = true
  | [], [], _, _ => rfl
  | [], _ :: _, _, h => absurd h (by simp [pairwise])
  | _ :: _, [], _, h => absurd h (by simp [pairwise])
  | x :: xs, y :: ys, hsymm, h => by
    rw [pairwise, Bool.and_eq_true] at h ⊢
    refine ⟨hsymm x (List.mem_cons_self ..) y (List.mem_cons_self ..) h.1, pairwise_symm ?_ h.2⟩
    exact fun x' hx y' hy => hsymm x' (List.mem_cons_of_mem _ hx) y' (List.mem_cons_of_mem _ hy)

/-- Comparing rows is transitive if comparing their members is. -/
theorem pairwise_trans : ∀ {xs ys zs : List Value},
    (∀ x ∈ xs, ∀ y ∈ ys, ∀ z ∈ zs, r x y = true → r y z = true → r x z = true) →
      pairwise r xs ys = true → pairwise r ys zs = true → pairwise r xs zs = true
  | [], [], [], _, _, _ => rfl
  | [], _ :: _, _, _, h, _ => absurd h (by simp [pairwise])
  | _ :: _, [], _, _, h, _ => absurd h (by simp [pairwise])
  | _, [], _ :: _, _, _, h => absurd h (by simp [pairwise])
  | _, _ :: _, [], _, _, h => absurd h (by simp [pairwise])
  | x :: xs, y :: ys, z :: zs, htrans, h, h' => by
    rw [pairwise, Bool.and_eq_true] at h h' ⊢
    refine ⟨htrans x (List.mem_cons_self ..) y (List.mem_cons_self ..) z (List.mem_cons_self ..)
      h.1 h'.1, pairwise_trans ?_ h.2 h'.2⟩
    exact fun x' hx y' hy z' hz => htrans x' (List.mem_cons_of_mem _ hx) y'
      (List.mem_cons_of_mem _ hy) z' (List.mem_cons_of_mem _ hz)

theorem pairwise_congr {r' : Value → Value → Bool} : ∀ {xs ys : List Value},
    (∀ x ∈ xs, ∀ y ∈ ys, r x y = r' x y) → pairwise r xs ys = pairwise r' xs ys
  | [], [], _ => rfl
  | [], _ :: _, _ => rfl
  | _ :: _, [], _ => rfl
  | x :: xs, y :: ys, h => by
    rw [pairwise, pairwise, h x (List.mem_cons_self ..) y (List.mem_cons_self ..), pairwise_congr]
    exact fun x' hx y' hy => h x' (List.mem_cons_of_mem _ hx) y' (List.mem_cons_of_mem _ hy)

theorem sameKeys_eq_pairwise : ∀ xs ys : List Value, sameKeys xs ys = pairwise sameKey xs ys
  | [], [] => by rw [sameKeys, pairwise]
  | [], _ :: _ => by simp [sameKeys, pairwise]
  | _ :: _, [] => by simp [sameKeys, pairwise]
  | x :: xs, y :: ys => by rw [sameKeys, pairwise, sameKeys_eq_pairwise xs ys]

/-! ## Keys -/

/-- What may be a key of a table: what cannot change, made of what cannot change. -/
inductive IsKey : Value → Prop
  | null : IsKey .null
  | number {v : Value} {x : Magnitude} : v.number? = some x → x ≠ .undefined → IsKey v
  | text (t : String) : IsKey (.text t)
  | tuple (m : Nat) {xs : List Value} : (∀ x ∈ xs, IsKey x) → IsKey (.tuple m xs)
  | node (n : NodeId) : IsKey (.node n)

theorem sameKey_null : sameKey .null b = true ↔ b = .null := by
  cases b <;> simp [sameKey, number?]

theorem sameKey_text {t : String} : sameKey (.text t) b = true ↔ b = .text t := by
  cases b with
  | text u =>
    rw [sameKey, beq_iff_eq, text.injEq]
    exact eq_comm
  | _ => simp [sameKey, number?]

theorem sameKey_node {n : NodeId} : sameKey (.node n) b = true ↔ b = .node n := by
  cases b with
  | node m =>
    rw [sameKey, beq_iff_eq, node.injEq]
    exact eq_comm
  | _ => simp [sameKey, number?]

theorem sameKey_tuple {m : Nat} {xs : List Value} :
    sameKey (.tuple m xs) b = true ↔ ∃ k ys, b = .tuple k ys ∧ pairwise sameKey xs ys = true := by
  cases b <;> simp [sameKey, number?, sameKeys_eq_pairwise]

/-- Only what is no number is one and the same number. -/
theorem not_identical_number {x : Magnitude} (ha : a.number? = some x) (hx : x ≠ .undefined) :
    a.identical b = false := by
  cases a with
  | float y m =>
    cases y with
    | nan => exact absurd (Option.some.inj ha).symm hx
    | _ => simp [identical, cell?]
  | _ => simp [number?, identical, cell?] at ha ⊢

/-- Numbers are told apart as keys by their points on the line. -/
theorem sameKey_number {x : Magnitude} (ha : a.number? = some x) (hx : x ≠ .undefined) :
    sameKey a b = true ↔ b.number? = some x := by
  have hpoint (y : Magnitude) := Magnitude.same_iff (y := y) hx
  have hidentical := not_identical_number (b := b) ha hx
  cases a with
  | bool p =>
    obtain rfl := Option.some.inj ha
    cases b with
    | bool q => exact hpoint _
    | int j => exact hpoint _
    | float y m => exact hpoint _
    | _ => simp [sameKey, number?]
  | int i =>
    obtain rfl := Option.some.inj ha
    cases b with
    | bool q => exact hpoint _
    | int j => exact hpoint _
    | float y m => exact hpoint _
    | _ => simp [sameKey, number?]
  | float z k =>
    obtain rfl := Option.some.inj ha
    cases b with
    | bool q => exact hpoint _
    | int j => exact hpoint _
    | float y m =>
      rw [sameKey, hidentical, Bool.or_false]
      exact hpoint _
    | _ => simp [sameKey, number?]
  | _ => simp [number?] at ha

/-- A key is the same as itself. -/
theorem IsKey.same_self (h : a.IsKey) : sameKey a a = true := by
  induction h with
  | null => exact sameKey_null.mpr rfl
  | number ha hx => exact (sameKey_number ha hx).mpr ha
  | text t => exact sameKey_text.mpr rfl
  | tuple m _ ih => exact sameKey_tuple.mpr ⟨_, _, rfl, pairwise_self ih⟩
  | node n => exact sameKey_node.mpr rfl

/-- Sameness of keys is symmetric. -/
theorem IsKey.same_symm (h : a.IsKey) {b : Value} (hab : sameKey a b = true) :
    sameKey b a = true := by
  induction h generalizing b with
  | null => exact sameKey_null.mp hab ▸ hab
  | number ha hx =>
    have hb := (sameKey_number ha hx).mp hab
    exact (sameKey_number hb hx).mpr ha
  | text t => exact sameKey_text.mp hab ▸ sameKey_text.mpr rfl
  | tuple m _ ih =>
    obtain ⟨k, ys, rfl, hsame⟩ := sameKey_tuple.mp hab
    exact sameKey_tuple.mpr ⟨_, _, rfl, pairwise_symm (fun x hx y _ => ih x hx) hsame⟩
  | node n => exact sameKey_node.mp hab ▸ sameKey_node.mpr rfl

/-- Sameness of keys is transitive. -/
theorem IsKey.same_trans (h : a.IsKey) {b c : Value} (hab : sameKey a b = true)
    (hbc : sameKey b c = true) : sameKey a c = true := by
  induction h generalizing b c with
  | null => exact sameKey_null.mp hab ▸ hbc
  | number ha hx =>
    have hb := (sameKey_number ha hx).mp hab
    exact (sameKey_number ha hx).mpr ((sameKey_number hb hx).mp hbc)
  | text t => exact sameKey_text.mp hab ▸ hbc
  | tuple m _ ih =>
    obtain ⟨k, ys, rfl, hsame⟩ := sameKey_tuple.mp hab
    obtain ⟨k', zs, rfl, hsame'⟩ := sameKey_tuple.mp hbc
    exact sameKey_tuple.mpr ⟨_, _, rfl, pairwise_trans (fun x hx y _ z _ => ih x hx) hsame hsame'⟩
  | node n => exact sameKey_node.mp hab ▸ hbc

end Value

namespace Table

open Value

variable {t u : Table} {k k' v : Value} {r : Value → Value → Bool}

/-- A table as it comes about by writing to it: its keys can be keys, and no two are the same. -/
structure IsKeyed (t : Table) : Prop where
  isKey : ∀ e ∈ t, e.1.IsKey
  apart : t.Pairwise fun e f => sameKey e.1 f.1 = false

/-- Where no two keys are the same, an entry is found at every key that is the same as its own. -/
theorem IsKeyed.get?_of_mem (h : t.IsKeyed) {e : Value × Value} (he : e ∈ t)
    (hsame : sameKey e.1 k = true) : t.get? k = some e.2 := by
  unfold get?
  induction t with
  | nil => exact absurd he (by simp)
  | cons f t ih =>
    obtain ⟨hfirst, hrest⟩ := List.pairwise_cons.mp h.apart
    rw [Entries.get?]
    rcases List.mem_cons.mp he with rfl | he
    · rw [if_pos hsame]
    · -- the first entry has another key, for it has another key than this one
      have hf : ¬sameKey f.1 k = true := by
        intro hf
        have hkey := h.isKey f (List.mem_cons_self ..)
        have hek := (h.isKey e (List.mem_cons_of_mem _ he)).same_symm hsame
        have hfe := hkey.same_trans hf hek
        rw [hfirst e he] at hfe
        exact absurd hfe (by simp)
      rw [if_neg hf]
      exact ih ⟨fun g hg => h.isKey g (List.mem_cons_of_mem _ hg), hrest⟩ he

theorem agree_iff : t.agree r u = true ↔ t.length = u.length ∧
    ∀ e ∈ t, ∃ v, u.get? e.1 = some v ∧ r e.2 v = true := by
  unfold agree
  rw [Bool.and_eq_true, beq_iff_eq, List.all_eq_true]
  refine and_congr_right fun _ => forall_congr' fun e => forall_congr' fun _ => ?_
  cases u.get? e.1 with
  | none => simp
  | some v => simp

theorem IsKeyed.agree_self (h : t.IsKeyed) (hr : ∀ v ∈ t.values, r v v = true) :
    t.agree r t = true := by
  refine agree_iff.mpr ⟨rfl, fun e he => ⟨e.2, ?_, hr e.2 (List.mem_map_of_mem he)⟩⟩
  exact h.get?_of_mem he (h.isKey e he).same_self

/-- Among as many entries with different keys each is the like of one, if each of the others has a
like among them. -/
theorem IsKeyed.exists_like (ht : t.IsKeyed) (hlength : t.length = u.length)
    {like : Value × Value → Value × Value} (hmem : ∀ e ∈ t, like e ∈ u)
    (hkey : ∀ e ∈ t, sameKey (like e).1 e.1 = true) (hu : u.IsKeyed) {f : Value × Value}
    (hf : f ∈ u) : ∃ e ∈ t, like e = f := by
  have hnodup : (t.map like).Nodup := by
    refine List.pairwise_map.mpr (ht.apart.imp_of_mem fun {e e'} he he' hapart hlike => ?_)
    -- entries with one like would have one key
    have hone := (hu.isKey _ (hmem e he)).same_symm (hkey e he)
    rw [hlike] at hone
    have hsame := (ht.isKey e he).same_trans hone (hkey e' he')
    rw [hapart] at hsame
    exact absurd hsame (by simp)
  have hsub : t.map like ⊆ u := by
    intro g hg
    obtain ⟨e, he, rfl⟩ := List.mem_map.mp hg
    exact hmem e he
  have hperm : (t.map like).Perm u :=
    (List.subperm_of_subset hnodup hsub).perm_of_length_le (by simp [hlength])
  exact List.mem_map.mp (hperm.mem_iff.mpr hf)

/-- Agreement goes both ways. -/
theorem IsKeyed.agree_symm (ht : t.IsKeyed) (hu : u.IsKeyed)
    (hr : ∀ x ∈ t.values, ∀ y ∈ u.values, r x y = true → r y x = true)
    (h : t.agree r u = true) : u.agree r t = true := by
  obtain ⟨hlength, hall⟩ := agree_iff.mp h
  have hlikes : ∀ e ∈ t, ∃ f ∈ u, sameKey f.1 e.1 = true ∧ r e.2 f.2 = true := by
    intro e he
    obtain ⟨v, hget, hv⟩ := hall e he
    obtain ⟨f, hf, hkey, rfl⟩ := Entries.exists_of_get? hget
    exact ⟨f, hf, hkey, hv⟩
  choose! like hmem hkey hrel using hlikes
  refine agree_iff.mpr ⟨hlength.symm, fun f hf => ?_⟩
  obtain ⟨e, he, rfl⟩ := ht.exists_like hlength hmem hkey hu hf
  have hsame := (hu.isKey _ hf).same_symm (hkey e he)
  refine ⟨e.2, ht.get?_of_mem he hsame, ?_⟩
  exact hr e.2 (List.mem_map_of_mem he) _ (List.mem_map_of_mem hf) (hrel e he)

/-- Tables agree transitively if their values do. -/
theorem IsKeyed.agree_trans {w : Table} (hw : w.IsKeyed)
    (hr : ∀ x ∈ t.values, ∀ y ∈ u.values, ∀ z ∈ w.values,
      r x y = true → r y z = true → r x z = true)
    (h : t.agree r u = true) (h' : u.agree r w = true) : t.agree r w = true := by
  obtain ⟨hlength, hall⟩ := agree_iff.mp h
  obtain ⟨hlength', hall'⟩ := agree_iff.mp h'
  refine agree_iff.mpr ⟨hlength.trans hlength', fun e he => ?_⟩
  obtain ⟨v, hget, hv⟩ := hall e he
  obtain ⟨f, hf, hkey, rfl⟩ := Entries.exists_of_get? hget
  obtain ⟨v', hget', hv'⟩ := hall' f hf
  obtain ⟨g, hg, hkey', rfl⟩ := Entries.exists_of_get? hget'
  have hsame := (hw.isKey g hg).same_trans hkey' hkey
  refine ⟨g.2, hw.get?_of_mem hg hsame, ?_⟩
  exact hr e.2 (List.mem_map_of_mem he) f.2 (List.mem_map_of_mem hf) g.2 (List.mem_map_of_mem hg)
    hv hv'

end Table

namespace Store

open Value

variable {s : Store} {r : Value → Value → Bool} {a b c : Value} {n m k : NodeId}
  {marked : Nat → List Value}

/-! ## One step -/

/-- Values are equal if one step says so that takes members for equal if they are. -/
theorem same_unfold (s : Store) (a b : Value) : s.same a b = s.sameStep s.same a b := by
  have hmembers : ∀ x ∈ s.members a, ∀ y ∈ s.members b,
      s.sameTo (s.depthAmong (s.members a ++ s.members b)) x y = s.same x y := by
    intro x hx y hy
    rw [Bool.eq_iff_iff, same_iff, sameTo_depthAmong (List.mem_append_left _ hx)
      (List.mem_append_right _ hy)]
  rw [Bool.eq_iff_iff]
  constructor
  · intro h
    obtain ⟨d, hd⟩ := same_iff.mp h
    have hnext := sameTo_mono s d a b hd
    rw [sameTo_succ] at hnext
    exact sameStep_imp (.refl s a) (.refl s b) (fun x _ y _ hxy => same_iff.mpr ⟨d, hxy⟩) hnext
  · intro h
    refine same_iff.mpr ⟨s.depthAmong (s.members a ++ s.members b) + 1, ?_⟩
    rw [sameTo_succ]
    exact sameStep_imp (.refl s a) (.refl s b)
      (fun x hx y hy hxy => (hmembers x hx y hy).trans hxy) h

/-- Whether two members of a container count as one. -/
def sameMember (s : Store) (x y : Value) : Bool := x.identical y || s.same x y

theorem same_null : s.same .null b = true ↔ b = .null := by
  rw [same_unfold]
  cases b <;> simp [sameStep, number?]

theorem same_text {t : String} : s.same (.text t) b = true ↔ b = .text t := by
  rw [same_unfold]
  cases b with
  | text u =>
    rw [text.injEq]
    simp only [sameStep, beq_iff_eq]
    exact eq_comm
  | _ => simp [sameStep, number?]

theorem same_list {l : ListId} : s.same (.list l) b = true ↔
    ∃ l', b = .list l' ∧ pairwise s.sameMember (s.list l) (s.list l') = true := by
  rw [same_unfold]
  cases b with
  | list l' =>
    simp only [list.injEq, exists_eq_left']
    exact Iff.rfl
  | _ => simp [sameStep, number?]

/-- What is the same as a tuple is a tuple with the same members, in this order. -/
theorem same_tuple {i : Nat} {xs : List Value} : s.same (.tuple i xs) b = true ↔
    ∃ j ys, b = .tuple j ys ∧ pairwise s.sameMember xs ys = true := by
  rw [same_unfold]
  cases b with
  | tuple j ys =>
    refine ⟨fun h => ⟨j, ys, rfl, h⟩, ?_⟩
    rintro ⟨_, _, hb, h⟩
    cases hb
    exact h
  | _ => simp [sameStep, number?]

theorem same_table {t : TableId} : s.same (.table t) b = true ↔
    ∃ t', b = .table t' ∧ (s.table t).agree s.sameMember (s.table t') = true := by
  rw [same_unfold]
  cases b with
  | table t' =>
    simp only [table.injEq, exists_eq_left']
    exact Iff.rfl
  | _ => simp [sameStep, number?]

theorem same_node : s.same (.node n) b = true ↔
    ∃ m, b = .node m ∧ s.sameNode s.same n m = true := by
  rw [same_unfold]
  cases b with
  | node m =>
    simp only [node.injEq, exists_eq_left']
    exact Iff.rfl
  | _ => simp [sameStep, number?]

/-- Numbers are equal if they are the same point of the line. -/
theorem same_number {x : Magnitude} (ha : a.number? = some x) (hx : x ≠ .undefined) :
    s.same a b = true ↔ b.number? = some x := by
  have hpoint (y : Magnitude) := Magnitude.same_iff (y := y) hx
  rw [same_unfold]
  cases a with
  | bool p =>
    obtain rfl := Option.some.inj ha
    cases b with
    | bool q => exact hpoint _
    | int j => exact hpoint _
    | float y i => exact hpoint _
    | _ => simp [sameStep, number?]
  | int i =>
    obtain rfl := Option.some.inj ha
    cases b with
    | bool q => exact hpoint _
    | int j => exact hpoint _
    | float y i => exact hpoint _
    | _ => simp [sameStep, number?]
  | float z i =>
    obtain rfl := Option.some.inj ha
    cases b with
    | bool q => exact hpoint _
    | int j => exact hpoint _
    | float y i => exact hpoint _
    | _ => simp [sameStep, number?]
  | _ => simp [number?] at ha

/-- Nodes of different classes are never equal. -/
theorem class_of_sameNode (h : s.sameNode r n m = true) :
    (s.node n).nodeClass = (s.node m).nodeClass := by
  unfold sameNode at h
  unfold Node.nodeClass
  cases hf : (s.node n).form with
  | bare =>
    cases hg : (s.node m).form with
    | bare => rfl
    | _ => simp [hf, hg] at h
  | expression e =>
    cases hg : (s.node m).form with
    | expression f =>
      simp only [hf, hg, Bool.and_eq_true, beq_iff_eq] at h
      exact h.1
    | _ => simp [hf, hg] at h
  | statement children st =>
    cases hg : (s.node m).form with
    | statement children' st' =>
      simp only [hf, hg, Bool.and_eq_true, beq_iff_eq] at h
      exact h.1.1
    | _ => simp [hf, hg] at h

/-! ## Plain values -/

/-- The parts of a node that it is compared by. -/
def compared (s : Store) (n : NodeId) : List Value :=
  match (s.node n).form with
  | .bare => []
  | .expression e => e.fields
  | .statement children st => children :: st.identity

/-- The values that make up documents: nothing, truth values and defined numbers, texts, and lists,
tuples, tables and nodes of these, to any depth but without a cycle. The mark of a tuple is its own:
`marked` says what the tuple with a mark holds. -/
inductive Plain (s : Store) (marked : Nat → List Value) : Value → Prop
  | null : Plain s marked .null
  | number {v : Value} {x : Magnitude} : v.number? = some x → x ≠ .undefined → Plain s marked v
  | text (t : String) : Plain s marked (.text t)
  | list {l : ListId} : (∀ x ∈ s.list l, Plain s marked x) → Plain s marked (.list l)
  | tuple {i : Nat} {xs : List Value} : marked i = xs → (∀ x ∈ xs, Plain s marked x) →
      Plain s marked (.tuple i xs)
  | table {t : TableId} : (s.table t).IsKeyed → (∀ v ∈ (s.table t).values, Plain s marked v) →
      Plain s marked (.table t)
  | node {n : NodeId} : (∀ v ∈ s.compared n, Plain s marked v) → Plain s marked (.node n)

namespace Plain

theorem of_list {l : ListId} (h : s.Plain marked (.list l)) : ∀ x ∈ s.list l, s.Plain marked x := by
  cases h with
  | number hv _ => exact absurd hv (by simp [number?])
  | list hall => exact hall

theorem of_tuple {i : Nat} {xs : List Value} (h : s.Plain marked (.tuple i xs)) :
    marked i = xs ∧ ∀ x ∈ xs, s.Plain marked x := by
  cases h with
  | number hv _ => exact absurd hv (by simp [number?])
  | tuple hmark hall => exact ⟨hmark, hall⟩

theorem of_table {t : TableId} (h : s.Plain marked (.table t)) :
    (s.table t).IsKeyed ∧ ∀ v ∈ (s.table t).values, s.Plain marked v := by
  cases h with
  | number hv _ => exact absurd hv (by simp [number?])
  | table hkeyed hall => exact ⟨hkeyed, hall⟩

theorem of_node (h : s.Plain marked (.node n)) : ∀ v ∈ s.compared n, s.Plain marked v := by
  cases h with
  | number hv _ => exact absurd hv (by simp [number?])
  | node hall => exact hall

/-- One and the same thing is the same value. -/
theorem eq_of_identical (ha : s.Plain marked a) (hb : s.Plain marked b)
    (h : a.identical b = true) : a = b := by
  unfold identical at h
  cases ha with
  | null => simp [cell?] at h
  | text t => simp [cell?] at h
  | number hv hx =>
    have hnot := not_identical_number (b := b) hv hx
    unfold identical at hnot
    rw [hnot] at h
    exact absurd h (by simp)
  | list hall =>
    cases b with
    | list l => simpa [cell?] using h
    | float y i => cases y <;> simp [cell?] at h
    | _ => simp [cell?] at h
  | tuple hmark hall =>
    cases b with
    | tuple j ys =>
      obtain rfl : _ = j := by simpa [cell?] using h
      rw [← hmark, ← hb.of_tuple.1]
    | float y i => cases y <;> simp [cell?] at h
    | _ => simp [cell?] at h
  | table hkeyed hall =>
    cases b with
    | table t => simpa [cell?] using h
    | float y i => cases y <;> simp [cell?] at h
    | _ => simp [cell?] at h
  | node hall =>
    cases b with
    | node m => simpa [cell?] using h
    | float y i => cases y <;> simp [cell?] at h
    | _ => simp [cell?] at h

/-- Every plain value equals itself. -/
theorem same_self (h : s.Plain marked a) : s.same a a = true := by
  have member {x : Value} (hx : s.same x x = true) : s.sameMember x x = true := by
    rw [sameMember, hx, Bool.or_true]
  induction h with
  | null => exact same_null.mpr rfl
  | number hv hx => exact (same_number hv hx).mpr hv
  | text t => exact same_text.mpr rfl
  | list _ ih => exact same_list.mpr ⟨_, rfl, pairwise_self fun x hx => member (ih x hx)⟩
  | tuple _ _ ih => exact same_tuple.mpr ⟨_, _, rfl, pairwise_self fun x hx => member (ih x hx)⟩
  | table hkeyed _ ih =>
    exact same_table.mpr ⟨_, rfl, hkeyed.agree_self fun v hv => member (ih v hv)⟩
  | @node n _ ih =>
    refine same_node.mpr ⟨n, rfl, ?_⟩
    unfold sameNode
    unfold compared at ih
    cases hf : (s.node n).form with
    | bare => simp
    | expression e =>
      simp only [hf] at ih
      simp only [beq_self_eq_true, Bool.true_and]
      exact pairwise_self fun x hx => member (ih x hx)
    | statement children st =>
      simp only [hf] at ih
      simp only [beq_self_eq_true, Bool.true_and, Bool.and_eq_true]
      exact ⟨ih _ (List.mem_cons_self ..),
        pairwise_self fun x hx => ih x (List.mem_cons_of_mem _ hx)⟩

/-- Among plain values the members of a container count as one if they are equal. -/
theorem sameMember_eq (ha : s.Plain marked a) (hb : s.Plain marked b) :
    s.sameMember a b = s.same a b := by
  unfold sameMember
  cases hid : a.identical b with
  | false => rfl
  | true =>
    rw [eq_of_identical ha hb hid, hb.same_self]
    rfl

/-- Plain nodes are equal if they are of one class and equal in the parts that nodes are compared
by. A bare node has none of these, and equals itself alone. -/
theorem sameNode_iff (hn : s.Plain marked (.node n)) (hm : s.Plain marked (.node m)) :
    s.sameNode s.same n m = true ↔ (s.node n).nodeClass = (s.node m).nodeClass ∧
      ((s.node n).form = .bare → n = m) ∧
      pairwise s.same (s.compared n) (s.compared m) = true := by
  have hparts := hn.of_node
  have hparts' := hm.of_node
  have hforms : (s.node n).nodeClass = (s.node m).nodeClass →
      (s.node n).form.isExpression = (s.node m).form.isExpression ∧
        ((s.node n).form = .bare ↔ (s.node m).form = .bare) := by
    intro hclass
    rw [Form.isExpression_eq_derives, Form.isExpression_eq_derives, Form.eq_bare_iff,
      Form.eq_bare_iff]
    rw [Node.nodeClass, Node.nodeClass] at hclass
    rw [hclass]
    exact ⟨rfl, Iff.rfl⟩
  unfold sameNode compared at *
  cases hf : (s.node n).form with
  | bare =>
    cases hg : (s.node m).form with
    | bare => simp [pairwise, Node.nodeClass, hf, hg]
    | _ => simpa [hf, hg] using fun hclass => absurd (hforms hclass) (by simp [hf, hg])
  | expression e =>
    cases hg : (s.node m).form with
    | expression f =>
      simp only [hf, hg] at hparts hparts'
      have hfields : pairwise (fun x y => x.identical y || s.same x y) e.fields f.fields =
          pairwise s.same e.fields f.fields :=
        pairwise_congr fun x hx y hy => sameMember_eq (hparts x hx) (hparts' y hy)
      simp [hfields, Form.nodeClass, Node.nodeClass, hf, hg]
    | _ =>
      simpa [hf, hg] using fun hclass =>
        absurd (hforms hclass) (by simp [hf, hg, Form.isExpression])
  | statement children st =>
    cases hg : (s.node m).form with
    | statement children' st' =>
      simp [pairwise, Form.nodeClass, Node.nodeClass, hf, hg, and_assoc]
    | _ =>
      simpa [hf, hg] using fun hclass =>
        absurd (hforms hclass) (by simp [hf, hg, Form.isExpression])

/-- Equality goes both ways. -/
theorem same_symm (ha : s.Plain marked a) (hb : s.Plain marked b) (h : s.same a b = true) :
    s.same b a = true := by
  have member {x y : Value} (hx : s.Plain marked x) (hy : s.Plain marked y)
      (hxy : s.same x y = true → s.same y x = true) :
      s.sameMember x y = true → s.sameMember y x = true := by
    rw [sameMember_eq hx hy, sameMember_eq hy hx]
    exact hxy
  -- what equals a plain value is of its shape, so each case is about one shape
  induction ha generalizing b with
  | null =>
    obtain rfl := same_null.mp h
    exact h
  | number hv hx =>
    have hw := (same_number hv hx).mp h
    exact (same_number hw hx).mpr hv
  | text t =>
    obtain rfl := same_text.mp h
    exact h
  | list hall ih =>
    obtain ⟨l', rfl, hsame⟩ := same_list.mp h
    refine same_list.mpr ⟨_, rfl, pairwise_symm (fun x hx y hy => ?_) hsame⟩
    exact member (hall x hx) (hb.of_list y hy) (ih x hx (hb.of_list y hy))
  | tuple hmark hall ih =>
    obtain ⟨j, ys, rfl, hsame⟩ := same_tuple.mp h
    refine same_tuple.mpr ⟨_, _, rfl, pairwise_symm (fun x hx y hy => ?_) hsame⟩
    exact member (hall x hx) (hb.of_tuple.2 y hy) (ih x hx (hb.of_tuple.2 y hy))
  | table hkeyed hall ih =>
    obtain ⟨t', rfl, hsame⟩ := same_table.mp h
    obtain ⟨hkeyed', hall'⟩ := hb.of_table
    refine same_table.mpr ⟨_, rfl, hkeyed.agree_symm hkeyed' (fun x hx y hy => ?_) hsame⟩
    exact member (hall x hx) (hall' y hy) (ih x hx (hall' y hy))
  | @node n hall ih =>
    obtain ⟨m, rfl, hsame⟩ := same_node.mp h
    obtain ⟨hclass, hone, hparts⟩ := (sameNode_iff (.node hall) hb).mp hsame
    refine same_node.mpr ⟨n, rfl, (sameNode_iff hb (.node hall)).mpr ⟨hclass.symm, ?_, ?_⟩⟩
    · intro hbare
      refine (hone ?_).symm
      rw [Form.eq_bare_iff] at hbare ⊢
      exact hclass.trans hbare
    · exact pairwise_symm (fun x hx y hy => ih x hx (hb.of_node y hy)) hparts

/-- Sameness of plain values is transitive. The induction is on the first of them, whose shape the
others have. -/
theorem same_trans (ha : s.Plain marked a) (hb : s.Plain marked b) (hc : s.Plain marked c)
    (h : s.same a b = true) (h' : s.same b c = true) : s.same a c = true := by
  have member {x y z : Value} (hx : s.Plain marked x) (hy : s.Plain marked y)
      (hz : s.Plain marked z)
      (hxyz : s.same x y = true → s.same y z = true → s.same x z = true) :
      s.sameMember x y = true → s.sameMember y z = true → s.sameMember x z = true := by
    rw [sameMember_eq hx hy, sameMember_eq hy hz, sameMember_eq hx hz]
    exact hxyz
  -- the shape of the first value is passed on to the second, and from there to the third
  induction ha generalizing b c with
  | null => exact same_null.mp h ▸ h'
  | number hv hx =>
    have hw := (same_number hv hx).mp h
    exact (same_number hv hx).mpr ((same_number hw hx).mp h')
  | text t => exact same_text.mp h ▸ h'
  | list hall ih =>
    obtain ⟨l', rfl, hsame⟩ := same_list.mp h
    obtain ⟨l'', rfl, hsame'⟩ := same_list.mp h'
    refine same_list.mpr ⟨_, rfl, pairwise_trans (fun x hx y hy z hz => ?_) hsame hsame'⟩
    have hy := hb.of_list y hy
    have hz := hc.of_list z hz
    exact member (hall x hx) hy hz (ih x hx hy hz)
  | tuple hmark hall ih =>
    obtain ⟨j, ys, rfl, hsame⟩ := same_tuple.mp h
    obtain ⟨k, zs, rfl, hsame'⟩ := same_tuple.mp h'
    refine same_tuple.mpr ⟨_, _, rfl, pairwise_trans (fun x hx y hy z hz => ?_) hsame hsame'⟩
    have hy := hb.of_tuple.2 y hy
    have hz := hc.of_tuple.2 z hz
    exact member (hall x hx) hy hz (ih x hx hy hz)
  | table hkeyed hall ih =>
    obtain ⟨t', rfl, hsame⟩ := same_table.mp h
    obtain ⟨t'', rfl, hsame'⟩ := same_table.mp h'
    refine same_table.mpr ⟨_, rfl, hc.of_table.1.agree_trans (fun x hx y hy z hz => ?_)
      hsame hsame'⟩
    have hy := hb.of_table.2 y hy
    have hz := hc.of_table.2 z hz
    exact member (hall x hx) hy hz (ih x hx hy hz)
  | @node n hall ih =>
    obtain ⟨m, rfl, hsame⟩ := same_node.mp h
    obtain ⟨k, rfl, hsame'⟩ := same_node.mp h'
    obtain ⟨hclass, hone, hparts⟩ := (sameNode_iff (.node hall) hb).mp hsame
    obtain ⟨hclass', hone', hparts'⟩ := (sameNode_iff hb hc).mp hsame'
    refine same_node.mpr ⟨k, rfl, (sameNode_iff (.node hall) hc).mpr
      ⟨hclass.trans hclass', fun hbare => ?_, ?_⟩⟩
    · refine (hone hbare).trans (hone' ?_)
      rw [Form.eq_bare_iff] at hbare ⊢
      exact hclass.symm.trans hbare
    · exact pairwise_trans (fun x hx y hy z hz => ih x hx (hb.of_node y hy) (hc.of_node z hz))
        hparts hparts'

end Plain

end Store

end SheetLint
