import SheetLint.Document
import SheetLint.Proofs.Runs
import SheetLint.Proofs.Settling

/-!
# Locations are back-filled, and nothing else

Whatever is done with a document in the course of linting, one operation after the other, under any
policy, and whether each of them goes through or fails: what was there before is left as it was,
except that nodes are attached to parents and that expressions without a line may get what is
missing of their location (`operations_backfill`).

There are several places where locations are written. All of them respect `Store.Backfilled`, which
says what may have become of a store, and so does everything else that linters do: they make lists
and tables of their own, and write to the lists in which they keep their lints. No node may hold
such a list (`Store.LintsApart`): if one did, its own children would become more with each lint.
-/

namespace SheetLint

namespace Position

variable {p q r : Position}

/-- What is there of a location is there of another one. -/
structure PartOf (p q : Position) : Prop where
  line : p.line.isNull = false → p.line = q.line
  column : p.column.isNull = false → p.column = q.column
  file : p.file.isNull = false → p.file = q.file

theorem PartOf.refl (p : Position) : p.PartOf p := ⟨fun _ => rfl, fun _ => rfl, fun _ => rfl⟩

theorem PartOf.trans (h : p.PartOf q) (h' : q.PartOf r) : p.PartOf r where
  line hl := by
    have hq := h.line hl
    rw [hq] at hl ⊢
    exact h'.line hl
  column hc := by
    have hq := h.column hc
    rw [hq] at hc ⊢
    exact h'.column hc
  file hf := by
    have hq := h.file hf
    rw [hq] at hf ⊢
    exact h'.file hf

/-- Without a line all parts may come one by one. -/
theorem PartOf.towards (h : p.PartOf q) (hline : p.line.isNull = true) : p.Towards q where
  line hl := absurd hl (by simp [hline])
  column := h.column
  file := h.file

end Position

/-- A node of which nothing has changed but the parent and, if it counts as an expression, a
location without a line. -/
structure Node.Backfilled (isExpression : Bool) (x y : Node) : Prop where
  form : y.form = x.form
  notes : y.notes = x.notes
  fixed : isExpression = false → y.position = x.position
  towards : x.position.Towards y.position

theorem Node.Backfilled.of_position {b : Bool} {x y : Node} (form : y.form = x.form)
    (notes : y.notes = x.notes) (position : y.position = x.position) : x.Backfilled b y where
  form := form
  notes := notes
  fixed _ := position
  towards := by
    rw [position]
    exact .refl _

theorem Node.Backfilled.trans {b : Bool} {x y z : Node} (h : x.Backfilled b y)
    (h' : y.Backfilled b z) : x.Backfilled b z where
  form := h'.form.trans h.form
  notes := h'.notes.trans h.notes
  fixed hb := (h'.fixed hb).trans (h.fixed hb)
  towards := h.towards.trans h'.towards

/-! ## Lists of lints -/

/-- The list in which a linter keeps its lints. -/
def Agent.lintList? (a : Agent) : Option ListId :=
  match a.role with
  | .linter { lints := .list l, .. } => some l
  | _ => none

namespace Store

variable {s t s₀ : Store} {n : NodeId} {i : AgentId} {l : ListId}

/-- Some linter keeps its lints in a list. -/
def IsLintList (s : Store) (l : ListId) : Prop :=
  ∃ a ∈ s.agents, a.lintList? = some l

/-- The list to which a linter adds its lints counts as a list of lints. -/
theorem isLintList_of_lintsOf (h : s.lintsOf i = .list l) : s.IsLintList l := by
  unfold lintsOf linter? at h
  cases ha : s.agent? i with
  | none => simp [ha] at h
  | some a =>
    refine ⟨a, Array.mem_of_getElem? ha, ?_⟩
    obtain ⟨role, notes, parent, backing⟩ := a
    cases role with
    | linter k =>
      rw [ha] at h
      obtain ⟨behaviour, settings, lints, file⟩ := k
      obtain rfl : lints = .list l := h
      rfl
    | _ => simp [ha] at h

/-- Agents keep their attributes themselves, and no node holds the list in which a linter keeps its
lints. -/
structure LintsApart (s : Store) : Prop where
  unbacked : ∀ a ∈ s.agents, a.backing = none
  apart : ∀ a ∈ s.agents, ∀ l ∈ a.lintList?, ∀ n < s.nodes.size,
    .list l ∉ Value.cellsAll (s.node n).held

theorem lt_size_of_held {v : Value} (hv : v ∈ (s.node n).held) (hnull : v ≠ .null) :
    n < s.nodes.size := by
  by_contra hn
  rw [node_of_size_le (Nat.le_of_not_lt hn)] at hv
  simp [Node.held, Node.fields, Form.fields, Backref.held, hnull] at hv

theorem LintsApart.held (h : s.LintsApart) (hv : .list l ∈ (s.node n).held) : ¬s.IsLintList l := by
  rintro ⟨a, ha, hl⟩
  have hn := lt_size_of_held hv (by simp)
  exact h.apart a ha l hl n hn (mem_cellsAll hv (by simp [Value.cells]))

/-! ## What may become of a store -/

/-- Whatever `s` has that was there in `s₀` is as it was, except for parents, missing locations of
expressions and lists of lints. What lints go to is no other list that was there. -/
structure Backfilled (s₀ s : Store) : Prop where
  nodes : s₀.nodes.size ≤ s.nodes.size
  node : ∀ n < s₀.nodes.size, (s₀.node n).Backfilled (s₀.isExpression n) (s.node n)
  lists : s₀.lists.size ≤ s.lists.size
  list : ∀ l < s₀.lists.size, ¬s₀.IsLintList l → s.list l = s₀.list l
  tables : s₀.tables.size ≤ s.tables.size
  table : ∀ k < s₀.tables.size, s.table k = s₀.table k
  lints : ∀ l, s.IsLintList l → s₀.IsLintList l ∨ s₀.lists.size ≤ l
  unbacked : ∀ a ∈ s.agents, a.backing = none

namespace Backfilled

theorem refl (h : s.LintsApart) : s.Backfilled s where
  nodes := Nat.le_refl _
  node _ _ := .of_position rfl rfl rfl
  lists := Nat.le_refl _
  list _ _ _ := rfl
  tables := Nat.le_refl _
  table _ _ := rfl
  lints _ hl := Or.inl hl
  unbacked := h.unbacked

/-- What a node names is there, unless its place is cleared. -/
theorem holds_held (hs₀ : s₀.Closed) {v : Value} (hv : v ∈ (s₀.node n).held) (hnull : v ≠ .null) :
    s₀.Holds v := by
  rcases hs₀.held n with hheld | hempty
  · exact hheld v hv
  · rw [hempty] at hv
    simp [Node.held, Node.fields, Form.fields, Backref.held, hnull] at hv

section Reading

variable (hs₀ : s₀.Closed) (h : s₀.Backfilled s)
include hs₀ h

theorem table_held {k : TableId} (hv : .table k ∈ (s₀.node n).held) : s.table k = s₀.table k := by
  have hholds := holds_held hs₀ hv (by simp)
  exact h.table k (hholds (.table k) (by simp [Value.cells]))

variable (hapart : s₀.LintsApart)
include hapart

theorem list_held (hv : .list l ∈ (s₀.node n).held) : s.list l = s₀.list l := by
  have hholds := holds_held hs₀ hv (by simp)
  exact h.list l (hholds (.list l) (by simp [Value.cells])) (hapart.held hv)

/-- What counts as an expression is settled. -/
theorem isExpression (hn : n < s₀.nodes.size) : s.isExpression n = s₀.isExpression n := by
  have hmark : (s.node n).expressionMark = (s₀.node n).expressionMark := by
    unfold Node.expressionMark
    rw [(h.node n hn).notes, (h.node n hn).form]
  unfold Store.isExpression
  rw [hmark]
  unfold Node.expressionMark
  cases hl : (s₀.node n).notes.lookup "is_expression" with
  | none => rfl
  | some v =>
    have hv : v ∈ (s₀.node n).held := by
      obtain ⟨before, after, hnotes, _⟩ := List.lookup_eq_some_iff.mp hl
      simp [Node.held, hnotes]
    cases v with
    | list l => simp only [Option.getD_some, truthy, h.list_held hs₀ hapart hv]
    | table k => simp only [Option.getD_some, truthy, h.table_held hs₀ hv]
    | _ => rfl

/-- So are structural children. -/
theorem structural (hn : n < s₀.nodes.size) :
    (s.structural n).toOption = (s₀.structural n).toOption := by
  have hnode := h.node n hn
  rw [toOption_structural, toOption_structural, toOption_callable, toOption_callable,
    Store.notes, Store.notes, hnode.notes, hnode.form]
  rw [structuralIn_congr (s := s₀) (t := s) (fun v hv => items_congr ?_ ?_)
    (fun v hv => keywords_congr ?_ _)]
  · rintro l rfl
    exact h.list_held hs₀ hapart (mem_held_of_field hv)
  · rintro k rfl
    exact h.table_held hs₀ (mem_held_of_field hv)
  · rintro k rfl
    exact h.table_held hs₀ (mem_held_of_field hv)

end Reading

/-! ## Writing -/

/-- The nodes alone change. -/
theorem of_nodes (h : s₀.Backfilled s) (size : s.nodes.size ≤ t.nodes.size)
    (node : ∀ n < s₀.nodes.size, (s.node n).Backfilled (s₀.isExpression n) (t.node n))
    (lists : t.lists = s.lists) (tables : t.tables = s.tables) (agents : t.agents = s.agents) :
    s₀.Backfilled t where
  nodes := Nat.le_trans h.nodes size
  node n hn := (h.node n hn).trans (node n hn)
  lists := by
    rw [lists]
    exact h.lists
  list l hl hno := by
    rw [Store.list, lists]
    exact h.list l hl hno
  tables := by
    rw [tables]
    exact h.tables
  table k hk := by
    rw [Store.table, tables]
    exact h.table k hk
  lints l hl := by
    unfold IsLintList at hl
    rw [agents] at hl
    exact h.lints l hl
  unbacked := by
    rw [agents]
    exact h.unbacked

/-- The agents alone change: they still keep their attributes themselves, and no linter keeps its
lints in a list that was there for something else. -/
theorem of_agents (h : s₀.Backfilled s) (nodes : t.nodes = s.nodes) (lists : t.lists = s.lists)
    (tables : t.tables = s.tables)
    (agent : ∀ b ∈ t.agents, b.backing = none ∧
      ∀ l, b.lintList? = some l → s.IsLintList l ∨ s₀.lists.size ≤ l) :
    s₀.Backfilled t where
  nodes := by
    rw [nodes]
    exact h.nodes
  node n hn := by
    have hnode : t.node n = s.node n := by rw [Store.node, Store.node, node?, node?, nodes]
    rw [hnode]
    exact h.node n hn
  lists := by
    rw [lists]
    exact h.lists
  list l hl hno := by
    rw [Store.list, lists]
    exact h.list l hl hno
  tables := by
    rw [tables]
    exact h.tables
  table k hk := by
    rw [Store.table, tables]
    exact h.table k hk
  lints l := by
    rintro ⟨b, hb, hl⟩
    rcases (agent b hb).2 l hl with hlist | hnew
    · exact h.lints l hlist
    · exact Or.inr hnew
  unbacked b hb := (agent b hb).1

/-- Completing a location writes to nothing but what counts as an expression. -/
theorem fill (hs₀ : s₀.Closed) (hapart : s₀.LintsApart) (h : s₀.Backfilled s) (c self : NodeId) :
    s₀.Backfilled (s.fill c self) := by
  have hagents : (s.fill c self).agents = s.agents := by
    unfold Store.fill
    split <;> rfl
  refine h.of_nodes (by simp) (fun n hn => ?_) (list_fill s c self) (tables_fill s c self) hagents
  rw [node_fill]
  split
  · -- only what counts as an expression is written
    rename_i hc
    obtain ⟨rfl, hexpr⟩ := hc
    rw [h.isExpression hs₀ hapart hn] at hexpr
    refine ⟨rfl, rfl, fun hfalse => ?_, Position.towards_completed _ _⟩
    exact absurd hfalse (by simp [hexpr])
  · exact .of_position rfl rfl rfl

theorem addVariable (h : s₀.Backfilled s) (self : NodeId) (name : Value) :
    s₀.Backfilled (s.addVariable self name) := by
  refine h.of_nodes (by simp [Store.addVariable]) (fun n hn => ?_) rfl rfl rfl
  rw [node_addVariable (Nat.lt_of_lt_of_le hn h.nodes)]
  exact .of_position rfl rfl rfl

theorem note (h : s₀.Backfilled s) (m : Message) : s₀.Backfilled (s.note m) :=
  h.of_nodes (Nat.le_refl _) (fun _ _ => .of_position rfl rfl rfl) rfl rfl rfl

theorem mark (h : s₀.Backfilled s) : s₀.Backfilled { s with marks := s.marks + 1 } :=
  h.of_nodes (Nat.le_refl _) (fun _ _ => .of_position rfl rfl rfl) rfl rfl rfl

/-- Anything can be attached: a node, or an agent with a place for a parent. -/
theorem setParent (h : s₀.Backfilled s) (child parent : Value) :
    s₀.Backfilled (s.setParent child parent) := by
  cases child with
  | node c =>
    refine h.of_nodes (by simp) (fun n _ => ?_) rfl rfl rfl
    rw [node_setParent]
    split <;> exact .of_position rfl rfl rfl
  | agent i =>
    rw [Store.setParent]
    cases ha : s.agent? i with
    | none => exact h
    | some a =>
      have hmem := Array.mem_of_getElem? ha
      refine h.of_agents rfl rfl rfl fun b hb => ?_
      rcases Array.mem_or_eq_of_mem_setIfInBounds hb with hb | rfl
      · exact ⟨h.unbacked b hb, fun l hl => Or.inl ⟨b, hb, hl⟩⟩
      · exact ⟨h.unbacked a hmem, fun l hl => Or.inl ⟨a, hmem, hl⟩⟩
  | _ => exact h

/-- A new list is no list that was there. -/
theorem addList (h : s₀.Backfilled s) (items : List Value) : s₀.Backfilled (s.addList items) where
  nodes := h.nodes
  node := h.node
  lists := by
    simp only [Store.addList, Array.size_push]
    exact Nat.le_succ_of_le h.lists
  list l hl hno := by
    rw [list_addList, if_neg (Nat.ne_of_lt (Nat.lt_of_lt_of_le hl h.lists))]
    exact h.list l hl hno
  tables := h.tables
  table := h.table
  lints := h.lints
  unbacked := h.unbacked

/-- Nor is a new table. -/
theorem addTable (h : s₀.Backfilled s) (entries : Table) :
    s₀.Backfilled (s.addTable entries) where
  nodes := h.nodes
  node := h.node
  lists := h.lists
  list := h.list
  tables := by
    simp only [Store.addTable, Array.size_push]
    exact Nat.le_succ_of_le h.tables
  table k hk := by
    rw [table_addTable, if_neg (Nat.ne_of_lt (Nat.lt_of_lt_of_le hk h.tables))]
    exact h.table k hk
  lints := h.lints
  unbacked := h.unbacked

/-- Attaching writes one parent, or nothing. -/
theorem attach {child parent : Value} {policy : ParentPolicy} (h : s₀.Backfilled s)
    (ha : s.attach child parent policy = .ok t) : s₀.Backfilled t := by
  have hrefer : ∀ {u v : Store}, s₀.Backfilled u → u.refer child parent = .ok v →
      s₀.Backfilled v := by
    intro u v hu hv
    unfold refer at hv
    split at hv
    · cases hv
      exact hu.setParent child parent
    · exact absurd hv (by simp)
  simp only [Store.attach, bind, Except.bind, pure, Except.pure] at ha
  -- child and parent may be any values here, so the parts of attaching are gone through one by one
  cases hb : s.backref child with
  | error fault => simp [hb] at ha
  | ok reference =>
    cases hr : s.referent reference with
    | error fault => simp [hb, hr] at ha
    | ok found =>
      simp only [hb, hr] at ha
      cases found with
      | none =>
        simp only at ha
        split at ha
        · cases ha
          exact h
        · exact hrefer h ha
      | some current =>
        simp only at ha
        split at ha
        · cases ha
          exact h
        · cases policy with
          | strict => cases hsecond : s.secondParent child current <;> simp [hsecond] at ha
          | refresh =>
            cases hm : s.reparented child current parent with
            | error fault => simp [hm] at ha
            | ok m =>
              simp only [hm] at ha
              exact hrefer (h.note m) ha

/-- A lint goes to a list that holds no other things. -/
theorem append (h : s₀.Backfilled s) {v : Value} (ha : s.append (s.lintsOf i) v = .ok t) :
    s₀.Backfilled t := by
  obtain ⟨l, hl, rfl⟩ := append_inv ha
  refine ⟨h.nodes, h.node, ?_, fun k hk hno => ?_, h.tables, h.table, h.lints, h.unbacked⟩
  · simp only [Store.setList, Array.size_setIfInBounds]
    exact h.lists
  · -- what was there and is no list of lints is not written to
    have hne : ¬(l = k ∧ k < s.lists.size) := by
      rintro ⟨rfl, _⟩
      rcases h.lints l (isLintList_of_lintsOf hl) with hlist | hnew
      · exact hno hlist
      · exact absurd hk (Nat.not_lt.mpr hnew)
    rw [list_setList, if_neg hne]
    exact h.list k hk hno

/-- Letting go of parents is no change but to parents. -/
theorem keepParents (h : s₀.Backfilled s) (stays : Cell → Bool) :
    s₀.Backfilled (s.keepParents stays) := by
  have hnodes : s₀.Backfilled { s with nodes := (s.keepParents stays).nodes } := by
    refine h.of_nodes (Nat.le_of_eq (size_keepParents s stays).symm) (fun n _ => ?_) rfl rfl rfl
    have hnode := node_keepParents s stays n
    unfold Store.node node? at hnode ⊢
    rw [hnode]
    exact .of_position rfl rfl rfl
  refine hnodes.of_agents rfl rfl rfl fun b hb => ?_
  obtain ⟨a, ha, rfl⟩ := Array.mem_map.mp hb
  exact ⟨h.unbacked a ha, fun l hl => Or.inl ⟨a, ha, hl⟩⟩

/-- A linter that starts over keeps its lints in a list that is new. -/
theorem startedOver (h : s₀.Backfilled s) {a : Agent} {l : Linter} (ha : s.agent? i = some a)
    (file : Value) (stays : Cell → Bool) :
    s₀.Backfilled (Linter.startedOver s i a l file stays) := by
  refine keepParents ?_ stays
  refine (h.addList []).of_agents rfl rfl rfl fun b hb => ?_
  rcases Array.mem_or_eq_of_mem_setIfInBounds hb with hb | rfl
  · exact ⟨h.unbacked b hb, fun m hm => Or.inl ⟨b, hb, hm⟩⟩
  · refine ⟨h.unbacked a (Array.mem_of_getElem? ha), fun m hm => Or.inr ?_⟩
    cases hm
    exact h.lists

end Backfilled

end Store

open Store

/-! ## Edits -/

namespace Edit

variable {s t s₀ : Store}

/-- One location changed, and only where it was missing something. -/
structure Relocated (c : NodeId) (s t : Store) : Prop where
  size : t.nodes.size = s.nodes.size
  others : ∀ m, m ≠ c → t.node m = s.node m
  form : (t.node c).form = (s.node c).form
  notes : (t.node c).notes = (s.node c).notes
  position : (s.node c).position.PartOf (t.node c).position
  lists : t.lists = s.lists
  tables : t.tables = s.tables
  agents : t.agents = s.agents

theorem isLater_relocated (c : NodeId) : IsLater (Relocated c) where
  refl _ := ⟨rfl, fun _ _ => rfl, rfl, rfl, .refl _, rfl, rfl, rfl⟩
  trans h h' := {
    size := h'.size.trans h.size
    others := fun m hm => (h'.others m hm).trans (h.others m hm)
    form := h'.form.trans h.form
    notes := h'.notes.trans h.notes
    position := h.position.trans h'.position
    lists := h'.lists.trans h.lists
    tables := h'.tables.trans h.tables
    agents := h'.agents.trans h.agents }

/-- Writing a location that keeps what was there relocates a node. -/
theorem relocated_setNode {c : NodeId} {p : Position} (h : (s.node c).position.PartOf p) :
    Relocated c s (s.setNode c { s.node c with position := p }) := by
  refine ⟨size_setNode .., fun m hm => ?_, ?_, ?_, ?_, rfl, rfl, rfl⟩
  · rw [node_setNode, if_neg fun hc => hm hc.1.symm]
  · rw [node_setNode]
    split <;> rfl
  · rw [node_setNode]
    split <;> rfl
  · rw [node_setNode]
    split
    · exact h
    · exact .refl _

/-- Filling in one part of a location relocates a node, if only a missing part is written. -/
theorem moves_fillPart (c : NodeId) (container : Value) (part : String)
    {current : Position → Value} {write : Position → Value → Position}
    (hwrite : ∀ p v, (current p).isNull = true → p.PartOf (write p v)) :
    Moves (Relocated c) (fillPart c container part current write) := by
  intro s
  rw [fillPart, perform_bind_ok (perform_read _ s)]
  by_cases hnull : (current (s.node c).position).isNull = true
  · rw [if_pos hnull, perform_bind, perform_tryRead]
    cases s.getAttribute container part with
    | error fault => exact (isLater_relocated c).refl s
    | ok v => exact relocated_setNode (hwrite _ v hnull)
  · rw [if_neg hnull]
    exact (isLater_relocated c).refl s

/-- What is filled from something that is no node gets the parts of its location one by one. -/
theorem fill_other (c : NodeId) {container : Value} (h : ∀ n, container ≠ .node n) :
    fill (.node c) container = (do
      if ← read (·.wantsFilling c) then
        fillPart c container "line" (·.line) fun p v => { p with line := v }
        fillPart c container "column" (·.column) fun p v => { p with column := v }
        fillPart c container "filename" (·.file) fun p v => { p with file := v }) := by
  cases container with
  | node n => exact absurd rfl (h n)
  | _ => rfl

/-- So does filling in all three, and where one cannot be read the others before it stay filled
in. -/
theorem moves_fillParts (c : NodeId) (container : Value) : Moves (Relocated c) (do
    fillPart c container "line" (·.line) fun p v => { p with line := v }
    fillPart c container "column" (·.column) fun p v => { p with column := v }
    fillPart c container "filename" (·.file) fun p v => { p with file := v }) := by
  have hR := isLater_relocated c
  refine moves_bind hR (moves_fillPart c _ _ fun p v hnull => ?_) fun _ => ?_
  · exact ⟨fun h => absurd h (by simp [hnull]), fun _ => rfl, fun _ => rfl⟩
  refine moves_bind hR (moves_fillPart c _ _ fun p v hnull => ?_) fun _ => ?_
  · exact ⟨fun _ => rfl, fun h => absurd h (by simp [hnull]), fun _ => rfl⟩
  refine moves_fillPart c _ _ fun p v hnull => ?_
  exact ⟨fun _ => rfl, fun _ => rfl, fun h => absurd h (by simp [hnull])⟩

variable (hs₀ : s₀.Closed) (hapart : s₀.LintsApart)
include hs₀ hapart

theorem keeps_children (n : NodeId) (policy : ParentPolicy) :
    Keeps s₀.Backfilled (children n policy) := fun _ h =>
  children_keeps s₀.Backfilled (fun _ => True) (fun _ c h _ => h.fill hs₀ hapart c n)
    (fun _ name h => h.addVariable n name) (fun _ c h _ => h.setParent (.node c) _)
    (fun _ m h => h.note m) h (fun _ _ => trivial) policy

/-- A location may be completed from anything that has its parts, and that may fail midway. -/
theorem keeps_fill (target container : Value) : Keeps s₀.Backfilled (fill target container) := by
  intro s h
  cases target with
  | node c =>
    by_cases hnode : ∃ n, container = .node n
    · obtain ⟨n, rfl⟩ := hnode
      exact h.fill hs₀ hapart c n
    · -- something else may have any of the parts, or fail to have one after others were taken
      rw [fill_other c (not_exists.mp hnode), perform_bind_ok (perform_read _ s)]
      cases hwants : s.wantsFilling c with
      | false => exact h
      | true =>
        have hmoved := moves_fillParts c container s
        rw [wantsFilling, Bool.and_eq_true, Node.hasLine, Bool.not_not] at hwants
        refine h.of_nodes (Nat.le_of_eq hmoved.size.symm) (fun n hn => ?_) hmoved.lists
          hmoved.tables hmoved.agents
        by_cases hnc : n = c
        · subst hnc
          rw [h.isExpression hs₀ hapart hn] at hwants
          refine ⟨hmoved.form, hmoved.notes, fun hfalse => ?_, hmoved.position.towards hwants.2⟩
          exact absurd hfalse (by simp [hwants.1])
        · have hsame := hmoved.others n hnc
          exact .of_position (by rw [← hsame]; rfl) (by rw [← hsame]; rfl) (by rw [← hsame]; rfl)
  | _ => exact h

theorem keeps_fillArguments (args container : Value) :
    Keeps s₀.Backfilled (fillArguments args container) := by
  have hR := isLater_keeps s₀.Backfilled
  refine moves_bind hR (moves_tryRead hR _) fun items => moves_forM hR (fun arg => ?_) items
  exact moves_bind hR (moves_tryRead hR _) fun name => keeps_fill hs₀ hapart name container

end Edit

/-! ## Walks, linters and documents -/

section Operations

variable {s s₀ : Store} (hs₀ : s₀.Closed) (hapart : s₀.LintsApart)
include hs₀ hapart

namespace Linter

/-- The visits of a linter keep a document backfilled. -/
theorem progress_backfilled (i : AgentId) :
    Progress (fun s t => s₀.Backfilled s → s₀.Backfilled t) (fun _ _ => True) i where
  later := Edit.isLater_keeps _
  note _ m _ h := h.note m
  mark _ h := h.mark
  list _ items h := h.addList items
  table _ entries h := h.addTable entries
  stable _ _ := trivial
  children {s n} policy _ := Edit.keeps_children hs₀ hapart n policy s
  child _ _ _ _ := trivial
  append ha h := h.append ha

theorem keeps_visit (i : AgentId) (v : Value) : Edit.Keeps s₀.Backfilled (visit i v) := by
  have hR := Edit.isLater_keeps s₀.Backfilled
  exact Edit.moves_bind hR (Edit.moves_read hR id) fun s =>
    (progress_backfilled hs₀ hapart i).moves_visitAny (fun _ _ => trivial) (depth s) v

theorem keeps_visitBelow (i : AgentId) (v : Value) : Edit.Keeps s₀.Backfilled (visitBelow i v) := by
  have hR := Edit.isLater_keeps s₀.Backfilled
  have L := progress_backfilled hs₀ hapart i
  exact Edit.moves_bind hR (Edit.moves_read hR id) fun s =>
    L.moves_descend (fun _ _ => trivial) (L.moves_visitAny (fun _ _ => trivial) (depth s)) v

theorem run_backfills {i : AgentId} {a : Agent} {l : Linter} (ha : s.agent? i = some a)
    (hl : a.role = .linter l) (root file : Value) (h : s₀.Backfilled s) :
    s₀.Backfilled ((run i root file).perform s).2 := by
  have hb := h.unbacked a (Array.mem_of_getElem? ha)
  obtain ⟨stays, hreset⟩ := perform_reset ha hl hb file
  have hstarted : s₀.Backfilled (startedOver s i a l file stays) := h.startedOver ha file stays
  rw [store_run hreset]
  exact (progress_backfilled hs₀ hapart i).moves_visitAny (fun _ _ => trivial) _ root _ hstarted

end Linter

namespace Document

theorem keeps_runOne (linter root file : Value) :
    Edit.Keeps s₀.Backfilled (runOne linter root file) :=
  runOne_keeps (fun ha hl => Linter.run_backfills hs₀ hapart ha hl root file) linter

/-- All turns of the linters keep a document backfilled, by induction on those still to come. -/
theorem keeps_collectLints (settings root file : Value) : ∀ linters found : List Value,
    Edit.Keeps s₀.Backfilled (collectLints settings root file linters found)
  | [], _ => Edit.moves_pure (Edit.isLater_keeps _) _
  | linter :: rest, found => by
    have hR := Edit.isLater_keeps s₀.Backfilled
    have hread {γ : Type} (f : Store → Except Fault γ) := Edit.moves_tryRead hR f
    have henabled : Edit.Keeps s₀.Backfilled (isEnabled settings linter) := by
      refine Edit.moves_bind hR (hread _) fun _ => Edit.moves_bind hR (hread _) fun _ => ?_
      refine Edit.moves_bind hR (hread _) fun _ => Edit.moves_bind hR (hread _) fun _ => ?_
      exact Edit.moves_bind hR (Edit.moves_read hR id) fun _ => Edit.moves_pure hR _
    rw [collectLints]
    refine Edit.moves_bind hR henabled fun isOn => ?_
    cases isOn with
    | true =>
      refine Edit.moves_bind hR (keeps_runOne hs₀ hapart linter root file) fun lints => ?_
      exact Edit.moves_bind hR (hread _) fun found' =>
        keeps_collectLints settings root file rest found'
    | false =>
      refine Edit.moves_bind hR (hread _) fun _ => ?_
      refine Edit.moves_bind hR (Edit.moves_read hR _) fun _ => ?_
      exact Edit.moves_bind hR (fun _ h => h.note _) fun _ =>
        keeps_collectLints settings root file rest found

/-- Linting keeps a document backfilled. -/
theorem keeps_lint (linters : List Value) (settings root file : Value) :
    Edit.Keeps s₀.Backfilled (lint linters settings root file) := by
  have hR := Edit.isLater_keeps s₀.Backfilled
  refine Edit.moves_bind hR (keeps_collectLints hs₀ hapart settings root file linters []) ?_
  intro found
  refine Edit.moves_bind hR (Edit.moves_tryRead hR _) fun lints => ?_
  refine Edit.moves_bind hR (Edit.moves_tryRead hR _) fun errors => ?_
  refine Edit.moves_bind hR (Edit.moves_read hR _) fun name => ?_
  exact Edit.moves_bind hR (fun _ h => h.note _) fun _ => Edit.moves_pure hR _

end Document

end Operations

/-! ## One operation after the other -/

/-- What can be done with a document, its nodes and the linters. -/
inductive Operation where
  | children (v : Value) (policy : ParentPolicy)
  /-- A walk that is left after `limit` nodes. -/
  | walk (policy : ParentPolicy) (limit : Nat) (root : Value)
  | fill (target container : Value)
  | fillArguments (args container : Value)
  | attach (child parent : Value) (policy : ParentPolicy)
  | visit (linter v : Value)
  | visitBelow (linter v : Value)
  | run (linter root file : Value)
  | lint (linters : List Value) (settings root file : Value)

namespace Operation

/-- The store after an operation, whether it gave a result or failed. -/
def after : Operation → Store → Store
  | children v policy, s => ((Edit.childrenOf v policy).perform s).2
  | walk policy limit root, s => (Walk.start policy limit root s).store
  | fill target container, s => ((Edit.fill target container).perform s).2
  | fillArguments args container, s => ((Edit.fillArguments args container).perform s).2
  | attach child parent policy, s => ((Edit.attach child parent policy).perform s).2
  | visit linter v, s => (Edit.perform (do
      let i ← Edit.tryRead (·.linterOf linter "visit")
      Linter.visit i v) s).2
  | visitBelow linter v, s => (Edit.perform (do
      let i ← Edit.tryRead (·.linterOf linter "visit_children")
      Linter.visitBelow i v) s).2
  | run linter root file, s => ((Document.runOne linter root file).perform s).2
  | lint linters settings root file, s => ((Document.lint linters settings root file).perform s).2

/-- The store after several operations. -/
def afterAll (operations : List Operation) (s : Store) : Store :=
  operations.foldl (fun s o => o.after s) s

variable {s s₀ : Store}

/-- Each operation keeps a document backfilled, whatever comes of it. -/
theorem after_backfills (hs₀ : s₀.Closed) (hapart : s₀.LintsApart) (h : s₀.Backfilled s)
    (o : Operation) : s₀.Backfilled (o.after s) := by
  have hR := Edit.isLater_keeps s₀.Backfilled
  cases o with
  | children v policy =>
    cases v with
    | node n => exact Edit.keeps_children hs₀ hapart n policy s h
    | _ => exact h
  | walk policy limit root =>
    exact Walk.start_keeps (Edit.keeps_children hs₀ hapart · policy) limit root h
  | fill target container => exact Edit.keeps_fill hs₀ hapart target container s h
  | fillArguments args container => exact Edit.keeps_fillArguments hs₀ hapart args container s h
  | attach child parent policy => exact Edit.moves_change hR (fun _ _ ha h => h.attach ha) s h
  | visit linter v =>
    exact Edit.moves_bind hR (Edit.moves_tryRead hR _)
      (fun i => Linter.keeps_visit hs₀ hapart i v) s h
  | visitBelow linter v =>
    exact Edit.moves_bind hR (Edit.moves_tryRead hR _)
      (fun i => Linter.keeps_visitBelow hs₀ hapart i v) s h
  | run linter root file => exact Document.keeps_runOne hs₀ hapart linter root file s h
  | lint linters settings root file =>
    exact Document.keeps_lint hs₀ hapart linters settings root file s h

theorem afterAll_backfills (hs₀ : s₀.Closed) (hapart : s₀.LintsApart) :
    ∀ (operations : List Operation) {s : Store}, s₀.Backfilled s →
      s₀.Backfilled (afterAll operations s)
  | [], _, h => h
  | o :: operations, _, h =>
    afterAll_backfills hs₀ hapart operations (after_backfills hs₀ hapart h o)

end Operation

/-- Whatever is done one after the other, under any policies and whether it goes through or fails,
locations are back-filled and nothing else becomes of what was there. A node has the class, the
fields and the structural children that it had, and a list or table has what was in it, lists of
lints apart. What does not count as an expression stands where it stood. Of an expression every part
of its location that was there is there still, and all of it is as it was if there was a line. -/
theorem operations_backfill {s t : Store} (hs : s.Closed) (hapart : s.LintsApart)
    {operations : List Operation} (ht : Operation.afterAll operations s = t) :
    (∀ n < s.nodes.size,
      (t.node n).nodeClass = (s.node n).nodeClass ∧ (t.node n).form = (s.node n).form ∧
      (t.node n).notes = (s.node n).notes ∧
      (t.structural n).toOption = (s.structural n).toOption ∧
      (s.isExpression n = false → (t.node n).position = (s.node n).position) ∧
      ((s.node n).position.line ≠ .null → (t.node n).position = (s.node n).position) ∧
      ((s.node n).position.column ≠ .null →
        (t.node n).position.column = (s.node n).position.column) ∧
      ((s.node n).position.file ≠ .null →
        (t.node n).position.file = (s.node n).position.file)) ∧
    (∀ l < s.lists.size, ¬s.IsLintList l → t.list l = s.list l) ∧
    ∀ k < s.tables.size, t.table k = s.table k := by
  have h := Operation.afterAll_backfills hs hapart operations (.refl hapart)
  rw [ht] at h
  have hnull : ∀ {v : Value}, v ≠ .null → v.isNull = false := by
    intro v hv
    cases hn : v.isNull with
    | false => rfl
    | true => exact absurd (Position.eq_null hn) hv
  refine ⟨fun n hn => ?_, h.list, h.table⟩
  obtain ⟨hform, hnotes, hfixed, htowards⟩ := h.node n hn
  refine ⟨?_, hform, hnotes, h.structural hs hapart hn, hfixed, fun hl => ?_, fun hc => ?_,
    fun hf => ?_⟩
  · rw [Node.nodeClass, Node.nodeClass, hform]
  · exact (htowards.line (hnull hl)).symm
  · exact (htowards.column (hnull hc)).symm
  · exact (htowards.file (hnull hf)).symm

/-- A mixin with an argument and a keyword. The argument has a column but no line, the expression of
the keyword a line but no column. -/
def mixinSheet : Store where
  nodes := #[
    some { position := { line := .int 3 }
           form := .statement (.list 0)
             (.mixin (.text "button") (.list 1) (.table 0) .null .null) },
    some { position := { column := .int 7 }, form := .expression (.variable (.text "size")) },
    some { position := { line := .int 4 }, form := .expression (.literal (.text "red")) }]
  lists := #[[], [.node 1], []]
  tables := #[[(.text "color", .node 2)]]
  agents := #[{ role := .linter {
    behaviour := LinterClass.base.derive "Naming" none none
      [("script_variable", [.lint (.text "name") none false, .descend])]
    settings := .null
    lints := .list 2 } }]

/-- A walk that is left early, a run, a parent that is refused, a visit of something that is no
node, and settings that are none. -/
theorem operations_backfill_mixin :
    mixinSheet.Closed ∧ mixinSheet.LintsApart ∧ ∃ t, Operation.afterAll
        [.walk .refresh 2 (.node 0), .run (.agent 0) (.node 0) (.text "a.scss"),
          .attach (.node 1) (.node 2) .strict, .visit (.agent 0) (.text "a.scss"),
          .lint [.agent 0] .null (.node 0) (.text "a.scss")] mixinSheet = t ∧
      (t.node 0).position = { line := .int 3 } ∧ (t.node 1).position.column = .int 7 ∧
      (t.node 2).position = { line := .int 4 } ∧ t.list 1 = [.node 1] ∧
      t.table 0 = [(.text "color", .node 2)] := by
  have hclosed : mixinSheet.Closed := by decide
  have hapart : mixinSheet.LintsApart := ⟨by decide, by decide⟩
  have hfree : ¬mixinSheet.IsLintList 1 := by
    rintro ⟨a, ha, hl⟩
    have hall : ∀ a ∈ mixinSheet.agents, a.lintList? ≠ some 1 := by decide
    exact hall a ha hl
  refine ⟨hclosed, hapart, _, rfl, ?_⟩
  generalize ht : Operation.afterAll _ mixinSheet = t
  obtain ⟨hnodes, hlists, htables⟩ := operations_backfill hclosed hapart ht
  obtain ⟨_, _, _, _, hstatement, _⟩ := hnodes 0 (by decide)
  obtain ⟨_, _, _, _, _, _, hcolumn, _⟩ := hnodes 1 (by decide)
  obtain ⟨_, _, _, _, _, hline, _⟩ := hnodes 2 (by decide)
  exact ⟨hstatement rfl, hcolumn nofun, hline nofun, hlists 1 (by decide) hfree,
    htables 0 (by decide)⟩

end SheetLint
