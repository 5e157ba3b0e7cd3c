import SheetLint.Proofs.Edit
import SheetLint.Store.Reach
import SheetLint.Tree.Children

/-!
# Places of the store

What is read at a place after something was written, and the two notions that all invariants of
walks and runs are anchored to:

* `Store.Closed` — every place that something in the store names exists. What is made later gets a
  place of its own and is never named by what was there before.
* `Store.Extends s t` — `t` came out of `s` by completing locations, writing parents, making
  variables and making lists or tables: whatever `s` had is in `t`, forms and notes of nodes, items
  of lists and entries of tables, and a node that is new in `t` has nothing below it.

Locations, parents, agents, marks and the log are not compared by `Extends`.
-/

namespace SheetLint

namespace Store

/-! ## Reading after writing -/

theorem node_of_size_le {s : Store} {n : NodeId} (h : s.nodes.size ≤ n) : s.node n = {} := by
  unfold node node?
  rw [Array.getElem?_eq_none h]
  rfl

/-- Only where there is a node there is a statement. -/
theorem lt_size_of_statement {s : Store} {n : NodeId} {children : Value} {st : Statement}
    (h : (s.node n).form = .statement children st) : n < s.nodes.size := by
  rcases Nat.lt_or_ge n s.nodes.size with hlt | hge
  · exact hlt
  · rw [node_of_size_le hge] at h
    cases h

/-- A node that is written is read back, and no other has changed. -/
theorem node_setNode (s : Store) (n m : NodeId) (x : Node) :
    (s.setNode n x).node m = if n = m ∧ m < s.nodes.size then x else s.node m := by
  unfold node node? setNode
  rw [Array.getElem?_setIfInBounds]
  by_cases h : n = m
  · subst h
    by_cases hn : n < s.nodes.size
    · rw [if_pos rfl, if_pos hn, if_pos ⟨rfl, hn⟩]
      rfl
    · rw [if_pos rfl, if_neg hn, if_neg (fun h => hn h.2),
        Array.getElem?_eq_none (Nat.le_of_not_lt hn)]
  · rw [if_neg h, if_neg (fun h' => h h'.1)]

theorem node_addNode (s : Store) (x : Node) (m : NodeId) :
    (s.addNode x).node m = if m = s.nodes.size then x else s.node m := by
  unfold node node? addNode
  rw [Array.getElem?_push]
  by_cases h : m = s.nodes.size
  · rw [if_pos h, if_pos h]
    rfl
  · rw [if_neg h, if_neg h]

theorem isExpression_of_size_le {s : Store} {n : NodeId} (h : s.nodes.size ≤ n) :
    s.isExpression n = false := by
  unfold isExpression
  rw [node_of_size_le h]
  rfl

/-- Filling touches nothing but the location of an expression. -/
theorem node_fill (s : Store) (c self m : NodeId) :
    (s.fill c self).node m =
      if m = c ∧ s.isExpression c then
        { s.node c with
          position := (s.node c).position.completed (s.node self).position }
      else s.node m := by
  unfold fill
  by_cases he : s.isExpression c = true
  · have hc : c < s.nodes.size := by
      rcases Nat.lt_or_ge c s.nodes.size with h | h
      · exact h
      · rw [isExpression_of_size_le h] at he
        exact absurd he (by simp)
    simp only [he, if_true]
    rw [node_setNode]
    by_cases hm : c = m
    · subst hm
      simp [hc]
    · rw [if_neg (fun h => hm h.1), if_neg (fun h => hm h.1.symm)]
  · simp [he]

theorem parent_fill (s : Store) (c self m : NodeId) :
    ((s.fill c self).node m).parent = (s.node m).parent := by
  rw [node_fill]
  split
  · rename_i h
    rw [h.1]
  · rfl

/-- Writing a parent touches nothing but the parent. -/
theorem node_setParent (s : Store) (c m : NodeId) (p : Value) :
    (s.setParent (.node c) p).node m =
      if c = m ∧ m < s.nodes.size then { s.node m with parent := .to p } else s.node m := by
  unfold setParent
  rw [node_setNode]
  by_cases h : c = m ∧ m < s.nodes.size
  · rw [if_pos h, if_pos h, h.1]
  · rw [if_neg h, if_neg h]

theorem position_setParent (s : Store) (c m : NodeId) (p : Value) :
    ((s.setParent (.node c) p).node m).position = (s.node m).position := by
  rw [node_setParent]
  split <;> rfl

@[simp] theorem size_setNode (s : Store) (n : NodeId) (x : Node) :
    (s.setNode n x).nodes.size = s.nodes.size := by
  simp [setNode]

@[simp] theorem size_addNode (s : Store) (x : Node) :
    (s.addNode x).nodes.size = s.nodes.size + 1 := by
  simp [addNode]

@[simp] theorem size_fill (s : Store) (c self : NodeId) :
    (s.fill c self).nodes.size = s.nodes.size := by
  unfold fill
  split <;> simp

@[simp] theorem size_setParent (s : Store) (c : NodeId) (p : Value) :
    (s.setParent (.node c) p).nodes.size = s.nodes.size := by
  simp [setParent]

theorem list_fill (s : Store) (c self : NodeId) : (s.fill c self).lists = s.lists := by
  unfold fill
  split <;> rfl

theorem tables_fill (s : Store) (c self : NodeId) : (s.fill c self).tables = s.tables := by
  unfold fill
  split <;> rfl

theorem list_addList (s : Store) (items : List Value) (l : ListId) :
    (s.addList items).list l = if l = s.lists.size then items else s.list l := by
  unfold list addList
  rw [Array.getElem?_push]
  by_cases h : l = s.lists.size
  · rw [if_pos h, if_pos h]
    rfl
  · rw [if_neg h, if_neg h]

/-- A list that is written is read back, and no other has changed. -/
theorem list_setList (s : Store) (l m : ListId) (items : List Value) :
    (s.setList l items).list m = if l = m ∧ m < s.lists.size then items else s.list m := by
  unfold list setList
  rw [Array.getElem?_setIfInBounds]
  by_cases h : l = m
  · subst h
    by_cases hl : l < s.lists.size
    · rw [if_pos rfl, if_pos hl, if_pos ⟨rfl, hl⟩]
      rfl
    · rw [if_pos rfl, if_neg hl, if_neg (fun h => hl h.2),
        Array.getElem?_eq_none (Nat.le_of_not_lt hl)]
  · rw [if_neg h, if_neg (fun h' => h h'.1)]

theorem table_addTable (s : Store) (entries : Table) (k : TableId) :
    (s.addTable entries).table k = if k = s.tables.size then entries else s.table k := by
  unfold table addTable
  rw [Array.getElem?_push]
  by_cases h : k = s.tables.size
  · rw [if_pos h, if_pos h]
    rfl
  · rw [if_neg h, if_neg h]

end Store

namespace Agent

/-- What is read of an agent without computing anything is held by it. -/
theorem own?_mem {a : Agent} {name : String} {w : Value} (h : a.own? name = some w) :
    w ∈ a.held := by
  have hmem : ∀ {es : List (String × Value)}, es.lookup name = some w → w ∈ es.map (·.2) := by
    intro es hes
    obtain ⟨before, after, rfl, _⟩ := List.lookup_eq_some_iff.mp hes
    simp
  unfold Agent.own? at h
  simp only [Agent.held, List.mem_append]
  cases hp : a.role.parts.lookup name with
  | some x =>
    rw [hp] at h
    cases h
    exact Or.inl (Or.inl (Or.inl (Or.inl (hmem hp))))
  | none =>
    rw [hp] at h
    cases hn : a.notes.lookup name with
    | some x =>
      rw [hn] at h
      cases h
      exact Or.inl (Or.inl (Or.inr (hmem hn)))
    | none =>
      rw [hn] at h
      exact Or.inl (Or.inl (Or.inl (Or.inr (hmem h))))

end Agent

namespace Store

/-! ## What is named exists -/

/-- Whether a thing has its place in the store. What is known by a mark alone needs none. -/
def hasPlace (s : Store) : Cell → Prop
  | .node n => n < s.nodes.size
  | .list l => l < s.lists.size
  | .table t => t < s.tables.size
  | .agent i => i < s.agents.size
  | _ => True

/-- Everything that a value names is there. -/
def Holds (s : Store) (v : Value) : Prop :=
  ∀ c ∈ v.cells, s.hasPlace c

/-- Everything that is named anywhere in the store is there. -/
def Closed (s : Store) : Prop :=
  ∀ c, ∀ v ∈ s.contents c, s.Holds v

instance (s : Store) : DecidablePred s.hasPlace
  | .node n => inferInstanceAs (Decidable (n < s.nodes.size))
  | .list l => inferInstanceAs (Decidable (l < s.lists.size))
  | .table t => inferInstanceAs (Decidable (t < s.tables.size))
  | .agent i => inferInstanceAs (Decidable (i < s.agents.size))
  | .number _ => .isTrue trivial
  | .tuple _ => .isTrue trivial
  | .location _ => .isTrue trivial
  | .lint _ => .isTrue trivial

instance (s : Store) : DecidablePred s.Holds := fun v =>
  inferInstanceAs (Decidable (∀ c ∈ v.cells, s.hasPlace c))

theorem Holds.of_cells {s : Store} {v : Value} (h : v.cells = []) : s.Holds v := by
  intro c hc
  rw [h] at hc
  exact absurd hc (by simp)

/-- Only what has a place holds anything. -/
theorem contents_eq_nil {s : Store} {c : Cell} (h : c ∉ s.places) : s.contents c = [] := by
  simp only [places, List.mem_append, List.mem_map, List.mem_range, not_or] at h
  obtain ⟨⟨⟨hn, hl⟩, ht⟩, ha⟩ := h
  cases c with
  | node n =>
    have hsize : s.nodes.size ≤ n := Nat.le_of_not_lt fun h => hn ⟨n, h, rfl⟩
    rw [contents, node?, Array.getElem?_eq_none hsize]
    rfl
  | list l =>
    have hsize : s.lists.size ≤ l := Nat.le_of_not_lt fun h => hl ⟨l, h, rfl⟩
    rw [contents, list, Array.getElem?_eq_none hsize]
    rfl
  | table t =>
    have hsize : s.tables.size ≤ t := Nat.le_of_not_lt fun h => ht ⟨t, h, rfl⟩
    rw [contents, table, Array.getElem?_eq_none hsize]
    rfl
  | agent i =>
    have hsize : s.agents.size ≤ i := Nat.le_of_not_lt fun h => ha ⟨i, h, rfl⟩
    rw [contents, agent?, Array.getElem?_eq_none hsize]
    rfl
  | _ => rfl

theorem closed_iff_places {s : Store} :
    s.Closed ↔ ∀ c ∈ s.places, ∀ v ∈ s.contents c, ∀ k ∈ v.cells, s.hasPlace k := by
  refine ⟨fun h c _ => h c, fun h c v hv => ?_⟩
  by_cases hc : c ∈ s.places
  · exact h c hc v hv
  · rw [contents_eq_nil hc] at hv
    exact absurd hv (by simp)

instance (s : Store) : Decidable s.Closed := decidable_of_iff _ closed_iff_places.symm

theorem mem_cellsAll {xs : List Value} {x : Value} {c : Cell} (hx : x ∈ xs) (hc : c ∈ x.cells) :
    c ∈ Value.cellsAll xs := by
  induction xs with
  | nil => exact absurd hx (by simp)
  | cons y ys ih =>
    rw [Value.cellsAll]
    rcases List.mem_cons.mp hx with rfl | hx'
    · exact List.mem_append_left _ hc
    · exact List.mem_append_right _ (ih hx')

/-- What is named by one of several values, all of which are held, is there. -/
theorem hasPlace_of_cellsAll {s : Store} {xs : List Value} (h : ∀ x ∈ xs, s.Holds x) :
    ∀ c ∈ Value.cellsAll xs, s.hasPlace c := by
  induction xs with
  | nil =>
    intro c hc
    exact absurd hc (by simp [Value.cellsAll])
  | cons x xs ih =>
    intro c hc
    rw [Value.cellsAll] at hc
    rcases List.mem_append.mp hc with hx | hxs
    · exact h x (List.mem_cons_self ..) c hx
    · exact ih (fun y hy => h y (List.mem_cons_of_mem _ hy)) c hxs

theorem Holds.tuple {s : Store} {m : Nat} {xs : List Value} (h : s.Holds (.tuple m xs)) :
    ∀ x ∈ xs, s.Holds x := by
  intro x hx c hc
  refine h c ?_
  rw [Value.cells]
  exact mem_cellsAll hx hc

theorem Closed.list {s : Store} (h : s.Closed) (l : ListId) : ∀ v ∈ s.list l, s.Holds v :=
  h (.list l)

theorem Closed.key {s : Store} (h : s.Closed) (t : TableId) : ∀ e ∈ s.table t, s.Holds e.1 :=
  fun e he => h (.table t) e.1 (List.mem_append_left _ (List.mem_map_of_mem he))

theorem Closed.entry {s : Store} (h : s.Closed) (t : TableId) : ∀ e ∈ s.table t, s.Holds e.2 :=
  fun e he => h (.table t) e.2 (List.mem_append_right _ (List.mem_map_of_mem he))

/-- A cleared place holds nothing that could be named. -/
theorem Closed.held {s : Store} (h : s.Closed) (n : NodeId) :
    (∀ v ∈ (s.node n).held, s.Holds v) ∨ s.node n = {} := by
  have hn : ∀ v ∈ (s.node? n).elim [] Node.held, s.Holds v := h (.node n)
  unfold node
  cases hx : s.node? n with
  | none => exact Or.inr rfl
  | some x =>
    rw [hx] at hn
    exact Or.inl hn

/-- What a node holds is there. -/
theorem Closed.of_held {s : Store} (h : s.Closed) {n : NodeId} {v : Value}
    (hv : v ∈ (s.node n).held) : s.Holds v := by
  rcases h.held n with hheld | hbare
  · exact hheld v hv
  · rw [hbare] at hv
    obtain rfl : v = .null := by
      simpa [Node.held, Node.fields, Node.nodeClass, Form.fields, Backref.held] using hv
    exact .of_cells rfl

/-- Every part of a node's location is there. -/
theorem Closed.position {s : Store} (h : s.Closed) (n : NodeId) :
    s.Holds (s.node n).position.line ∧ s.Holds (s.node n).position.column ∧
      s.Holds (s.node n).position.file := by
  have hpart : ∀ {v}, v ∈ (s.node n).held → s.Holds v := h.of_held
  refine ⟨hpart ?_, hpart ?_, hpart ?_⟩ <;> simp [Node.held, Node.fields]

/-- The number of fields is that of the class. -/
theorem length_fieldNames (x : Node) : x.nodeClass.fieldNames.length = x.form.fields.length := by
  unfold Node.nodeClass
  cases hf : x.form with
  | bare => rfl
  | expression e => cases e <;> rfl
  | statement ch st =>
    cases st with
    | carrier c e => cases c <;> rfl
    | callable b n a p => cases b <;> rfl
    | _ => rfl

/-- The fields of a node are held by it. -/
theorem mem_held_of_field {x : Node} {v : Value} (h : v ∈ x.form.fields) : v ∈ x.held := by
  have hz : v ∈ (x.nodeClass.fieldNames.zip x.form.fields).map (·.2) := by
    rw [List.map_snd_zip (Nat.le_of_eq (length_fieldNames x).symm)]
    exact h
  simp only [Node.held, Node.fields, List.map_append, List.mem_append]
  exact Or.inl (Or.inl (Or.inl (Or.inr hz)))

theorem Closed.field {s : Store} (h : s.Closed) (n : NodeId) :
    ∀ v ∈ (s.node n).form.fields, s.Holds v := by
  intro v hv
  rcases h.held n with hh | he
  · exact hh v (mem_held_of_field hv)
  · rw [he] at hv
    exact absurd hv (by simp [Form.fields])

theorem Closed.note {s : Store} (h : s.Closed) (n : NodeId) :
    ∀ e ∈ (s.node n).notes, s.Holds e.2 := by
  intro e hv
  rcases h.held n with hh | he
  · refine hh e.2 ?_
    simp only [Node.held, List.mem_append]
    exact Or.inl (Or.inl (Or.inr (List.mem_map_of_mem hv)))
  · rw [he] at hv
    exact absurd hv (by simp)

/-! ## Stores that came later -/

end Store

/-- A node that has nothing below it, whatever else is in the store. -/
def Node.IsLeaf (x : Node) : Prop :=
  (x.form = .bare ∨ ∃ name, x.form = .expression (.variable name)) ∧ x.notes = []

namespace Store

/-- Whatever `s` had is in `t`, and what is new in `t` has nothing below it. -/
structure Extends (s t : Store) : Prop where
  nodes : s.nodes.size ≤ t.nodes.size
  form : ∀ n, n < s.nodes.size → (t.node n).form = (s.node n).form
  notes : ∀ n, n < s.nodes.size → (t.node n).notes = (s.node n).notes
  leaf : ∀ n, s.nodes.size ≤ n → (t.node n).IsLeaf
  lists : s.lists.size ≤ t.lists.size
  list : ∀ l, l < s.lists.size → t.list l = s.list l
  tables : s.tables.size ≤ t.tables.size
  table : ∀ k, k < s.tables.size → t.table k = s.table k

namespace Extends

variable {s t : Store}

theorem refl (s : Store) : s.Extends s where
  nodes := Nat.le_refl _
  form _ _ := rfl
  notes _ _ := rfl
  leaf n h := by
    rw [node_of_size_le h]
    exact ⟨Or.inl rfl, rfl⟩
  lists := Nat.le_refl _
  list _ _ := rfl
  tables := Nat.le_refl _
  table _ _ := rfl

/-- Extensions add up. -/
theorem trans {u : Store} (h : s.Extends t) (h' : t.Extends u) : s.Extends u where
  nodes := Nat.le_trans h.nodes h'.nodes
  form n hn := (h'.form n (Nat.lt_of_lt_of_le hn h.nodes)).trans (h.form n hn)
  notes n hn := (h'.notes n (Nat.lt_of_lt_of_le hn h.nodes)).trans (h.notes n hn)
  leaf n hn := by
    rcases Nat.lt_or_ge n t.nodes.size with hold | hnew
    · have hleaf := h.leaf n hn
      unfold Node.IsLeaf at hleaf ⊢
      rwa [h'.form n hold, h'.notes n hold]
    · exact h'.leaf n hnew
  lists := Nat.le_trans h.lists h'.lists
  list l hl := (h'.list l (Nat.lt_of_lt_of_le hl h.lists)).trans (h.list l hl)
  tables := Nat.le_trans h.tables h'.tables
  table k hk := (h'.table k (Nat.lt_of_lt_of_le hk h.tables)).trans (h.table k hk)

/-- Only the nodes differ, and in them neither form nor notes. -/
theorem of_nodes {u : Store} (h : s.Extends t) (size : t.nodes.size ≤ u.nodes.size)
    (same : ∀ n, (u.node n).form = (t.node n).form ∧ (u.node n).notes = (t.node n).notes)
    (lists : u.lists = t.lists) (tables : u.tables = t.tables) : s.Extends u where
  nodes := Nat.le_trans h.nodes size
  form n hn := (same n).1.trans (h.form n hn)
  notes n hn := (same n).2.trans (h.notes n hn)
  leaf n hn := by
    obtain ⟨hform, hnotes⟩ := h.leaf n hn
    unfold Node.IsLeaf
    rw [(same n).1, (same n).2]
    exact ⟨hform, hnotes⟩
  lists := by
    rw [lists]
    exact h.lists
  list l hl := by
    have := h.list l hl
    unfold Store.list at this ⊢
    rw [lists]
    exact this
  tables := by
    rw [tables]
    exact h.tables
  table k hk := by
    have := h.table k hk
    unfold Store.table at this ⊢
    rw [tables]
    exact this

/-- Completing a location changes no children. -/
theorem fill (h : s.Extends t) (c self : NodeId) : s.Extends (t.fill c self) := by
  refine h.of_nodes (by simp) ?_ (list_fill t c self) (tables_fill t c self)
  intro n
  rw [node_fill]
  by_cases hn : n = c ∧ t.isExpression c
  · rw [if_pos hn, hn.1]
    exact ⟨rfl, rfl⟩
  · rw [if_neg hn]
    exact ⟨rfl, rfl⟩

theorem setParent (h : s.Extends t) (c : NodeId) (p : Value) :
    s.Extends (t.setParent (.node c) p) := by
  refine h.of_nodes (by simp) ?_ rfl rfl
  intro n
  rw [node_setParent]
  split <;> exact ⟨rfl, rfl⟩

theorem note (h : s.Extends t) (m : Message) : s.Extends (t.note m) :=
  h.of_nodes (Nat.le_refl _) (fun _ => ⟨rfl, rfl⟩) rfl rfl

/-- A new node that has nothing below it extends a store. -/
theorem addNode (h : s.Extends t) {x : Node} (hx : x.IsLeaf) : s.Extends (t.addNode x) where
  nodes := by
    rw [size_addNode]
    exact Nat.le_succ_of_le h.nodes
  form n hn := by
    rw [node_addNode, if_neg (Nat.ne_of_lt (Nat.lt_of_lt_of_le hn h.nodes))]
    exact h.form n hn
  notes n hn := by
    rw [node_addNode, if_neg (Nat.ne_of_lt (Nat.lt_of_lt_of_le hn h.nodes))]
    exact h.notes n hn
  leaf n hn := by
    rw [node_addNode]
    split
    · exact hx
    · exact h.leaf n hn
  lists := h.lists
  list := h.list
  tables := h.tables
  table := h.table

end Extends

theorem truthy_extends {s t : Store} (h : s.Extends t) {v : Value} (hv : s.Holds v) :
    t.truthy v = s.truthy v := by
  cases v with
  | list l => rw [truthy, truthy, h.list l (hv (.list l) (by simp [Value.cells]))]
  | table k => rw [truthy, truthy, h.table k (hv (.table k) (by simp [Value.cells]))]
  | _ => rfl

/-- What counts as an expression does so for good. -/
theorem isExpression_extends {s t : Store} {n : NodeId} (hs : s.Closed) (h : s.Extends t)
    (hn : n < s.nodes.size) : t.isExpression n = s.isExpression n := by
  have hmark : (t.node n).expressionMark = (s.node n).expressionMark := by
    unfold Node.expressionMark
    rw [h.notes n hn, h.form n hn]
  unfold isExpression
  rw [hmark]
  refine truthy_extends h ?_
  unfold Node.expressionMark
  cases hl : (s.node n).notes.lookup "is_expression" with
  | none =>
    intro k hk
    exact absurd hk (by simp [Value.cells])
  | some v =>
    obtain ⟨before, after, hnotes, _⟩ := List.lookup_eq_some_iff.mp hl
    refine hs.note n ("is_expression", v) ?_
    rw [hnotes]
    exact List.mem_append_right _ (List.mem_cons_self ..)

end Store

end SheetLint
