import Mathlib.Data.List.ProdSigma
import SheetLint.Proofs.Depth
import SheetLint.Proofs.Keyed

/-!
# Equality does not depend on the depth, nor on what came later

Two values are compared to a depth, since they may contain themselves. One step of the comparison
(`Store.sameStep`) only asks about pairs of members, so values that are equal at some depth are so
at every depth below, and at the depth that the store names: there are no more questions than pairs
of parts (`sameTo_depthAmong`).

A later store still has the lists, tables and forms of an earlier one, so what was in the earlier
one is compared as before (`same_extends`).
-/

namespace SheetLint

namespace Value

variable {r r' : Value → Value → Bool}

/-- What compares as equal compares as equal by whatever is weaker. -/
theorem pairwise_imp : ∀ {xs ys : List Value},
    (∀ x ∈ xs, ∀ y ∈ ys, r x y = true → r' x y = true) → pairwise r xs ys = true →
      pairwise r' xs ys = true
  | [], [], _, _ => rfl
  | [], _ :: _, _, h => absurd h (by simp [pairwise])
  | _ :: _, [], _, h => absurd h (by simp [pairwise])
  | x :: xs, y :: ys, himp, h => by
    rw [pairwise, Bool.and_eq_true] at h ⊢
    refine ⟨himp x (List.mem_cons_self ..) y (List.mem_cons_self ..) h.1, ?_⟩
    refine pairwise_imp (fun x' hx' y' hy' => ?_) h.2
    exact himp x' (List.mem_cons_of_mem _ hx') y' (List.mem_cons_of_mem _ hy')

mutual

/-- A value with all the parts that it holds in full. -/
def parts : Value → List Value
  | .tuple m items => .tuple m items :: partsAll items
  | .location m l c n => .location m l c n :: (parts l ++ parts c ++ parts n)
  | .lint m src f l d s fixable =>
    .lint m src f l d s fixable :: (parts src ++ parts f ++ parts l ++ parts d ++ parts s)
  | v => [v]

def partsAll : List Value → List Value
  | [] => []
  | v :: vs => parts v ++ partsAll vs

end

theorem self_mem_parts (v : Value) : v ∈ v.parts := by
  cases v <;> simp [parts]

mutual

/-- A value weighs as much as it has parts. -/
theorem length_parts : ∀ v : Value, v.parts.length = v.weight
  | .tuple _ items => by simp [parts, weight, length_partsAll items]
  | .location _ l c n => by
    simp [parts, weight, length_parts l, length_parts c, length_parts n]
    omega
  | .lint _ src f l d s _ => by
    simp [parts, weight, length_parts src, length_parts f, length_parts l, length_parts d,
      length_parts s]
    omega
  | .null | .bool _ | .int _ | .float .. | .text _ | .list _ | .table _ | .node _ | .agent _
  | .severity _ | .policy _ | .foreign _ | .missing .. => rfl

theorem length_partsAll : ∀ vs : List Value, (partsAll vs).length = weightAll vs
  | [] => rfl
  | v :: vs => by simp [partsAll, weightAll, length_parts v, length_partsAll vs]

end

theorem mem_partsAll : ∀ {vs : List Value} {x : Value},
    x ∈ partsAll vs ↔ ∃ v ∈ vs, x ∈ v.parts
  | [], x => by simp [partsAll]
  | v :: vs, x => by simp [partsAll, mem_partsAll]

/-- The values that a value holds in full, one level down. -/
def inner : Value → List Value
  | .tuple _ items => items
  | .location _ l c n => [l, c, n]
  | .lint _ src f l d s _ => [src, f, l, d, s]
  | _ => []

mutual

/-- What a part of a value holds in full is a part of it as well. -/
theorem inner_mem_parts : ∀ {v x y : Value}, x ∈ v.parts → y ∈ x.inner → y ∈ v.parts
  | .tuple m items, x, y, hx, hy => by
    rw [parts] at hx ⊢
    rcases List.mem_cons.mp hx with rfl | hx
    · exact List.mem_cons_of_mem _ (mem_partsAll.mpr ⟨y, hy, self_mem_parts y⟩)
    · exact List.mem_cons_of_mem _ (inner_mem_partsAll hx hy)
  | .location m l c n, x, y, hx, hy => by
    rw [parts] at hx ⊢
    rcases List.mem_cons.mp hx with rfl | hx
    · have hself := self_mem_parts y
      simp only [inner, List.mem_cons, List.not_mem_nil, or_false] at hy
      rcases hy with rfl | rfl | rfl <;> simp [hself]
    · simp only [List.mem_append, List.mem_cons] at hx ⊢
      rcases hx with (hx | hx) | hx
      · exact Or.inr (Or.inl (Or.inl (inner_mem_parts hx hy)))
      · exact Or.inr (Or.inl (Or.inr (inner_mem_parts hx hy)))
      · exact Or.inr (Or.inr (inner_mem_parts hx hy))
  | .lint m src f l d s fixable, x, y, hx, hy => by
    rw [parts] at hx ⊢
    rcases List.mem_cons.mp hx with rfl | hx
    · have hself := self_mem_parts y
      simp only [inner, List.mem_cons, List.not_mem_nil, or_false] at hy
      rcases hy with rfl | rfl | rfl | rfl | rfl <;> simp [hself]
    · simp only [List.mem_append, List.mem_cons] at hx ⊢
      rcases hx with (((hx | hx) | hx) | hx) | hx
      · exact Or.inr (Or.inl (Or.inl (Or.inl (Or.inl (inner_mem_parts hx hy)))))
      · exact Or.inr (Or.inl (Or.inl (Or.inl (Or.inr (inner_mem_parts hx hy)))))
      · exact Or.inr (Or.inl (Or.inl (Or.inr (inner_mem_parts hx hy))))
      · exact Or.inr (Or.inl (Or.inr (inner_mem_parts hx hy)))
      · exact Or.inr (Or.inr (inner_mem_parts hx hy))
  | .null, x, y, hx, hy | .bool _, x, y, hx, hy | .int _, x, y, hx, hy | .float .., x, y, hx, hy
  | .text _, x, y, hx, hy | .list _, x, y, hx, hy | .table _, x, y, hx, hy
  | .node _, x, y, hx, hy | .agent _, x, y, hx, hy | .severity _, x, y, hx, hy
  | .policy _, x, y, hx, hy | .foreign _, x, y, hx, hy | .missing .., x, y, hx, hy => by
    simp only [parts, List.mem_singleton] at hx
    subst hx
    exact absurd hy (by simp [inner])

theorem inner_mem_partsAll : ∀ {vs : List Value} {x y : Value},
    x ∈ partsAll vs → y ∈ x.inner → y ∈ partsAll vs
  | [], x, y, hx, _ => absurd hx (by simp [partsAll])
  | v :: vs, x, y, hx, hy => by
    rw [partsAll] at hx ⊢
    rcases List.mem_append.mp hx with hx | hx
    · exact List.mem_append_left _ (inner_mem_parts hx hy)
    · exact List.mem_append_right _ (inner_mem_partsAll hx hy)

end

end Value

theorem Statement.identity_subset (st : Statement) : ∀ v ∈ st.identity, v ∈ st.fields := by
  cases st <;> simp [identity, fields]

namespace Store

variable {s t : Store} {r r' : Value → Value → Bool} {a b : Value}

/-! ## One step of the comparison -/

/-- One step of the comparison of two values, given the comparison of their members. -/
def sameStep (s : Store) (same : Value → Value → Bool) (a b : Value) : Bool :=
  let member (x y : Value) : Bool := x.identical y || same x y
  match a, b with
  | .null, .null => true
  | .text t, .text u => t == u
  | .list l, .list m => Value.pairwise member (s.list l) (s.list m)
  | .tuple _ xs, .tuple _ ys => Value.pairwise member xs ys
  | .table t, .table u => (s.table t).agree member (s.table u)
  | .node n, .node m => s.sameNode same n m
  | .location _ l c n, .location _ l' c' n' => Value.pairwise member [l, c, n] [l', c', n']
  | .lint _ t f l x v _, .lint _ t' f' l' x' v' _ =>
    Value.pairwise member [t, f, l, x, v] [t', f', l', x', v']
  | .agent t, .agent t' => t == t'
  | .severity x, .severity y => x == y
  | .policy x, .policy y => x == y
  | .foreign x, .foreign y => x == y
  | _, _ =>
    match a.number?, b.number? with
    | some x, some y => x.same y
    | _, _ => false

theorem sameTo_succ (s : Store) (d : Nat) (a b : Value) :
    s.sameTo (d + 1) a b = s.sameStep (s.sameTo d) a b := rfl

/-- The values that the comparison of a value asks about. -/
def members (s : Store) : Value → List Value
  | .list l => s.list l
  | .table k => (s.table k).values
  | .node n => (s.node n).form.fields
  | v => v.inner

/-- A value has the same members in both stores. -/
def SameInside (s t : Store) : Value → Prop
  | .list l => t.list l = s.list l
  | .table k => t.table k = s.table k
  | .node n => (t.node n).form = (s.node n).form
  | _ => True

theorem SameInside.refl (s : Store) (v : Value) : s.SameInside s v := by
  cases v <;> simp [SameInside]

theorem mem_values_of_get? {es : Table} {k v : Value} (h : es.get? k = some v) :
    v ∈ es.values := by
  obtain ⟨e, he, -, rfl⟩ := Entries.exists_of_get? h
  exact List.mem_map_of_mem he

/-- Tables that agree agree by whatever is weaker. -/
theorem agree_imp {es fs : Table}
    (himp : ∀ x ∈ es.values, ∀ y ∈ fs.values, r x y = true → r' x y = true)
    (h : es.agree r fs = true) : es.agree r' fs = true := by
  unfold Table.agree at h ⊢
  rw [Bool.and_eq_true, List.all_eq_true] at h ⊢
  refine ⟨h.1, fun e he => ?_⟩
  have hentry := h.2 e he
  cases hv : fs.get? e.1 with
  | none => simp [hv] at hentry
  | some v =>
    rw [hv] at hentry
    exact himp e.2 (List.mem_map_of_mem he) v (mem_values_of_get? hv) hentry

/-- Two nodes are compared by their forms, and bare ones by their places. -/
theorem sameNode_imp {n m n' m' : NodeId} (hn : (t.node n').form = (s.node n).form)
    (hm : (t.node m').form = (s.node m).form)
    (hbare : (s.node n).form = .bare → (s.node m).form = .bare → (n = m ↔ n' = m'))
    (himp : ∀ x ∈ (s.node n).form.fields, ∀ y ∈ (s.node m).form.fields,
      r x y = true → r' x y = true) (h : s.sameNode r n m = true) :
    t.sameNode r' n' m' = true := by
  unfold sameNode at h ⊢
  rw [hn, hm]
  cases hf : (s.node n).form with
  | bare =>
    rw [hf] at h
    cases hg : (s.node m).form with
    | bare =>
      rw [hg] at h
      have hnm := (hbare hf hg).mp (by simpa using h)
      simpa using hnm
    | _ => simp [hg] at h
  | expression e =>
    rw [hf] at h himp
    cases hg : (s.node m).form with
    | expression f =>
      rw [hg] at h himp
      simp only [Bool.and_eq_true] at h ⊢
      refine ⟨h.1, Value.pairwise_imp (fun x hx y hy hxy => ?_) h.2⟩
      rw [Bool.or_eq_true] at hxy ⊢
      exact hxy.imp_right (himp x hx y hy)
    | _ => simp [hg] at h
  | statement xs p =>
    rw [hf] at h himp
    cases hg : (s.node m).form with
    | statement ys q =>
      rw [hg] at h himp
      simp only [Bool.and_eq_true] at h ⊢
      refine ⟨⟨h.1.1, ?_⟩, Value.pairwise_imp (fun x hx y hy hxy => ?_) h.2⟩
      · exact himp xs (List.mem_cons_self ..) ys (List.mem_cons_self ..) h.1.2
      · exact himp x (List.mem_cons_of_mem _ (p.identity_subset x hx)) y
          (List.mem_cons_of_mem _ (q.identity_subset y hy)) hxy
    | _ => simp [hg] at h

/-- What is equal stays equal in a store in which the two values have the same members, if these
stay equal. -/
theorem sameStep_imp (ha : s.SameInside t a) (hb : s.SameInside t b)
    (himp : ∀ x ∈ s.members a, ∀ y ∈ s.members b, r x y = true → r' x y = true)
    (h : s.sameStep r a b = true) : t.sameStep r' a b = true := by
  have hmember : ∀ x ∈ s.members a, ∀ y ∈ s.members b,
      (x.identical y || r x y) = true → (x.identical y || r' x y) = true := by
    intro x hx y hy hxy
    rw [Bool.or_eq_true] at hxy ⊢
    exact hxy.imp_right (himp x hx y hy)
  -- members are compared where both are of one sort; else the answer is the same in any store
  cases a with
  | list l =>
    cases b with
    | list m =>
      simp only [sameStep] at h ⊢
      rw [show t.list l = s.list l from ha, show t.list m = s.list m from hb]
      exact Value.pairwise_imp hmember h
    | _ => exact h
  | tuple k xs =>
    cases b with
    | tuple m ys => exact Value.pairwise_imp hmember h
    | _ => exact h
  | table k =>
    cases b with
    | table m =>
      simp only [sameStep] at h ⊢
      rw [show t.table k = s.table k from ha, show t.table m = s.table m from hb]
      exact agree_imp hmember h
    | _ => exact h
  | node n =>
    cases b with
    | node m => exact sameNode_imp ha hb (fun _ _ => Iff.rfl) himp h
    | _ => exact h
  | location k l c n =>
    cases b with
    | location k' l' c' n' => exact Value.pairwise_imp hmember h
    | _ => exact h
  | lint k t f l x v fix =>
    cases b with
    | lint k' t' f' l' x' v' fix' => exact Value.pairwise_imp hmember h
    | _ => exact h
  | _ => cases b <;> exact h

/-- What is equal at some depth is equal further down. -/
theorem sameTo_mono (s : Store) : ∀ (d : Nat) (a b : Value), s.sameTo d a b = true →
    s.sameTo (d + 1) a b = true
  | 0, _, _, h => absurd h (by simp [sameTo])
  | d + 1, a, b, h => by
    rw [sameTo_succ] at h ⊢
    exact sameStep_imp (.refl s a) (.refl s b) (fun x _ y _ => sameTo_mono s d x y) h

theorem sameTo_of_le {d d' : Nat} (hle : d ≤ d') (h : s.sameTo d a b = true) :
    s.sameTo d' a b = true := by
  induction hle with
  | refl => exact h
  | step _ ih => exact sameTo_mono s _ a b ih

/-! ## The depth that decides -/

/-- Every part of what is in a store or among some values. -/
def everyPart (s : Store) (vs : List Value) : List Value :=
  s.nodes.toList.flatMap (fun x => Value.partsAll (x.elim [] Node.held)) ++
    s.lists.toList.flatMap Value.partsAll ++
    s.tables.toList.flatMap (fun es => Value.partsAll es.values) ++ Value.partsAll vs

/-- A bound on each of some lists is one on all of them together. -/
theorem length_flatMap_le {α β : Type} {f : α → List β} {g : α → Nat}
    (hfg : ∀ x, (f x).length ≤ g x) : ∀ (xs : List α) (w : Nat),
      w + (xs.flatMap f).length ≤ xs.foldl (fun w x => w + g x + 1) w
  | [], w => by simp
  | x :: xs, w => by
    have hx := hfg x
    have hxs := length_flatMap_le hfg xs (w + g x + 1)
    rw [List.flatMap_cons, List.length_append, List.foldl_cons]
    omega

/-- No more parts are compared than the store and the values weigh together. -/
theorem length_everyPart (s : Store) (vs : List Value) :
    (s.everyPart vs).length ≤ s.weight + Value.weightAll vs := by
  have hnodes := length_flatMap_le
    (f := fun x : Option Node => Value.partsAll (x.elim [] Node.held))
    (fun x => Nat.le_of_eq (Value.length_partsAll _)) s.nodes.toList 0
  have hlists := length_flatMap_le (f := Value.partsAll)
    (fun x => Nat.le_of_eq (Value.length_partsAll x)) s.lists.toList 0
  have htables := length_flatMap_le (f := fun es : Table => Value.partsAll es.values)
    (g := fun es => Value.weightAll es.keys + Value.weightAll es.values)
    (fun es => by
      rw [Value.length_partsAll]
      exact Nat.le_add_left ..) s.tables.toList 0
  simp only [everyPart, List.length_append, Value.length_partsAll, weight, ← Array.foldl_toList]
  simp only [← Nat.add_assoc] at htables
  omega

theorem mem_everyPart {vs : List Value} {v : Value} (h : v ∈ vs) : v ∈ s.everyPart vs := by
  unfold everyPart
  exact List.mem_append_right _ (Value.mem_partsAll.mpr ⟨v, h, v.self_mem_parts⟩)

/-- The parts of parts are among these parts. -/
theorem inner_mem_everyPart {vs : List Value} {x y : Value} (hx : x ∈ s.everyPart vs)
    (hy : y ∈ x.inner) : y ∈ s.everyPart vs := by
  unfold everyPart at hx ⊢
  simp only [List.mem_append, List.mem_flatMap] at hx ⊢
  rcases hx with ((⟨n, hn, hx⟩ | ⟨l, hl, hx⟩) | ⟨k, hk, hx⟩) | hx
  · exact Or.inl (Or.inl (Or.inl ⟨n, hn, Value.inner_mem_partsAll hx hy⟩))
  · exact Or.inl (Or.inl (Or.inr ⟨l, hl, Value.inner_mem_partsAll hx hy⟩))
  · exact Or.inl (Or.inr ⟨k, hk, Value.inner_mem_partsAll hx hy⟩)
  · exact Or.inr (Value.inner_mem_partsAll hx hy)

/-- So are the items of lists. -/
theorem list_mem_everyPart {vs : List Value} {l : ListId} {y : Value} (hy : y ∈ s.list l) :
    y ∈ s.everyPart vs := by
  unfold everyPart
  refine List.mem_append_left _ (List.mem_append_left _ (List.mem_append_right _ ?_))
  unfold list at hy
  cases hl : s.lists[l]? with
  | none => simp [hl] at hy
  | some items =>
    rw [hl] at hy
    refine List.mem_flatMap.mpr ⟨items, ?_, Value.mem_partsAll.mpr ⟨y, hy, y.self_mem_parts⟩⟩
    exact Array.mem_toList_iff.mpr (Array.mem_of_getElem? hl)

/-- So are the values of tables. -/
theorem table_mem_everyPart {vs : List Value} {k : TableId} {y : Value}
    (hy : y ∈ (s.table k).values) : y ∈ s.everyPart vs := by
  unfold everyPart
  refine List.mem_append_left _ (List.mem_append_right _ ?_)
  unfold table at hy
  cases hk : s.tables[k]? with
  | none => simp [hk, Table.values] at hy
  | some es =>
    rw [hk] at hy
    refine List.mem_flatMap.mpr ⟨es, ?_, Value.mem_partsAll.mpr ⟨y, hy, y.self_mem_parts⟩⟩
    exact Array.mem_toList_iff.mpr (Array.mem_of_getElem? hk)

/-- The fields of a node are among these parts. -/
theorem field_mem_everyPart {vs : List Value} {n : NodeId} {y : Value}
    (hy : y ∈ (s.node n).form.fields) : y ∈ s.everyPart vs := by
  unfold everyPart
  refine List.mem_append_left _ (List.mem_append_left _ (List.mem_append_left _ ?_))
  cases hn : s.nodes[n]? with
  | none => simp [node, node?, hn, Form.fields] at hy
  | some found =>
    cases found with
    | none => simp [node, node?, hn, Form.fields] at hy
    | some x =>
      have hx : s.node n = x := by simp [node, node?, hn]
      rw [hx] at hy
      refine List.mem_flatMap.mpr ⟨some x, ?_, ?_⟩
      · exact Array.mem_toList_iff.mpr (Array.mem_of_getElem? hn)
      · exact Value.mem_partsAll.mpr ⟨y, mem_held_of_field hy, y.self_mem_parts⟩

/-- The members of a part are parts. -/
theorem members_mem_everyPart {vs : List Value} {x y : Value} (hx : x ∈ s.everyPart vs)
    (hy : y ∈ s.members x) : y ∈ s.everyPart vs := by
  cases x with
  | list l => exact list_mem_everyPart hy
  | table k => exact table_mem_everyPart hy
  | node n => exact field_mem_everyPart hy
  | _ => exact inner_mem_everyPart hx hy

/-- Values that are equal at any depth are equal at the depth that the store names for them. -/
theorem sameTo_depthAmong {vs : List Value} (ha : a ∈ vs) (hb : b ∈ vs) :
    s.sameTo (s.depthAmong vs) a b = true ↔ ∃ d, s.sameTo d a b = true := by
  refine ⟨fun h => ⟨_, h⟩, fun ⟨d, hd⟩ => ?_⟩
  let parts := s.everyPart vs
  let pairs := parts.product parts
  have hstill : ∀ {d'}, pairs.length ≤ d' → ∀ p ∈ pairs,
      s.sameTo d' p.1 p.2 = s.sameTo pairs.length p.1 p.2 := by
    refine stable_from_length (fun d p => s.sameTo d p.1 p.2) pairs
      (fun d p _ => sameTo_mono s d p.1 p.2) (fun d hd p hp => ?_)
    obtain ⟨h₁, h₂⟩ := List.mem_product.mp hp
    -- the next step asks about pairs of parts again, on which nothing has changed
    have hsame : ∀ x ∈ s.members p.1, ∀ y ∈ s.members p.2,
        s.sameTo (d + 1) x y = s.sameTo d x y := fun x hx y hy =>
      hd (x, y) (List.mem_product.mpr
        ⟨members_mem_everyPart h₁ hx, members_mem_everyPart h₂ hy⟩)
    rw [sameTo_succ, sameTo_succ]
    refine Bool.eq_iff_iff.mpr ⟨fun h => ?_, fun h => ?_⟩
    · exact sameStep_imp (.refl s _) (.refl s _) (fun x hx y hy hxy => hsame x hx y hy ▸ hxy) h
    · exact sameStep_imp (.refl s _) (.refl s _)
        (fun x hx y hy hxy => (hsame x hx y hy).symm ▸ hxy) h
  have hlength : pairs.length ≤ s.depthAmong vs := by
    have hparts := length_everyPart s vs
    have hpairs : pairs.length = parts.length * parts.length := List.length_product _ _
    rw [hpairs, depthAmong]
    exact Nat.mul_le_mul (Nat.le_succ_of_le hparts) (Nat.le_succ_of_le hparts)
  have hp : (a, b) ∈ pairs := List.mem_product.mpr ⟨mem_everyPart ha, mem_everyPart hb⟩
  have hdeep := sameTo_of_le (Nat.le_max_left d pairs.length) hd
  have h₁ : s.sameTo pairs.length a b = true := by
    rw [← hstill (Nat.le_max_right d pairs.length) (a, b) hp]
    exact hdeep
  rw [hstill hlength (a, b) hp]
  exact h₁

theorem same_iff : s.same a b = true ↔ ∃ d, s.sameTo d a b = true :=
  sameTo_depthAmong (by simp) (by simp)

/-! ## Later stores -/

/-- What is in a value that is there is there. -/
theorem Holds.inner (h : s.Holds a) : ∀ x ∈ a.inner, s.Holds x := by
  cases a with
  | tuple m xs => exact h.tuple
  | location m l c n =>
    intro x hx k hk
    simp only [Value.inner, List.mem_cons, List.not_mem_nil, or_false] at hx
    refine h k ?_
    rcases hx with rfl | rfl | rfl <;> simp [Value.cells, hk]
  | lint m src f l d v fixable =>
    intro x hx k hk
    simp only [Value.inner, List.mem_cons, List.not_mem_nil, or_false] at hx
    refine h k ?_
    rcases hx with rfl | rfl | rfl | rfl | rfl <;> simp [Value.cells, hk]
  | _ => exact fun x hx => absurd hx (by simp [Value.inner])

/-- So are its members. -/
theorem members_held (hs : s.Closed) (ha : s.Holds a) : ∀ x ∈ s.members a, s.Holds x := by
  cases a with
  | list l => exact hs.list l
  | table k =>
    intro x hx
    obtain ⟨e, he, rfl⟩ := List.mem_map.mp hx
    exact hs.entry k e he
  | node n => exact hs.field n
  | _ => exact ha.inner

theorem SameInside.symm (h : s.SameInside t a) : t.SameInside s a := by
  cases a with
  | list l => exact Eq.symm h
  | table k => exact Eq.symm h
  | node n => exact Eq.symm h
  | _ => trivial

theorem SameInside.members_eq (h : s.SameInside t a) : t.members a = s.members a := by
  cases a with
  | list l => exact h
  | table k => exact congrArg Table.values h
  | node n => exact congrArg Form.fields h
  | _ => rfl

/-- What is held has the same members in every later store. -/
theorem Extends.sameInside (h : s.Extends t) (ha : s.Holds a) : s.SameInside t a := by
  cases a with
  | list l => exact h.list l (ha (.list l) (by simp [Value.cells]))
  | table k => exact h.table k (ha (.table k) (by simp [Value.cells]))
  | node n => exact h.form n (ha (.node n) (by simp [Value.cells]))
  | _ => trivial

/-- Values that are there are compared alike when the store is extended, to any depth. -/
theorem sameTo_extends (hs : s.Closed) (h : s.Extends t) : ∀ (d : Nat) {a b : Value},
    s.Holds a → s.Holds b → t.sameTo d a b = s.sameTo d a b
  | 0, _, _, _, _ => rfl
  | d + 1, a, b, ha, hb => by
    have hina := h.sameInside ha
    have hinb := h.sameInside hb
    have ih : ∀ x ∈ s.members a, ∀ y ∈ s.members b, t.sameTo d x y = s.sameTo d x y :=
      fun x hx y hy => sameTo_extends hs h d (members_held hs ha x hx) (members_held hs hb y hy)
    rw [sameTo_succ, sameTo_succ]
    refine Bool.eq_iff_iff.mpr ⟨fun hab => ?_, fun hab => ?_⟩
    · refine sameStep_imp hina.symm hinb.symm (fun x hx y hy hxy => ?_) hab
      rw [hina.members_eq] at hx
      rw [hinb.members_eq] at hy
      exact ih x hx y hy ▸ hxy
    · exact sameStep_imp hina hinb (fun x hx y hy hxy => (ih x hx y hy).symm ▸ hxy) hab

/-- Values that are held are compared alike in every later store. -/
theorem same_extends (hs : s.Closed) (h : s.Extends t) (ha : s.Holds a) (hb : s.Holds b) :
    t.same a b = s.same a b := by
  rw [Bool.eq_iff_iff, same_iff, same_iff]
  simp only [sameTo_extends hs h _ ha hb]

end Store

end SheetLint
