import SheetLint.Proofs.Below
import SheetLint.Proofs.Runs

/-!
# Every visited node has a line

An expression without a line takes that of the node that contains it when the children of that node
are computed, and nothing is visited before it is computed as a child. So if the root has a line
and so has everything below it that is no expression, then every node has a line by the time it is
visited, by a walk or by a linter, and so do its children once they are computed. A lint can then be
placed at each of them (`visited_nodes_located`).

The invariant is that no line is ever lost (`Lined`), and that what is visited has a line and is
below the root or new (`IsReady`); one computation of children passes it on to them
(`children_ready`).
-/

namespace SheetLint

namespace Fault

/-- Whether a fault means that the tree is malformed. -/
def isMalformed : Fault → Bool
  | strayChild .. => true
  | secondParent .. => true
  | noLine _ => true
  | _ => false

end Fault

namespace Store

variable {s t s₀ : Store} {n c root : NodeId} {policy : ParentPolicy} {cs : List NodeId}

/-- A lint can be placed at a node: it has a line, a location is made of it if no part of it was
lost, and whatever keeps one from being made is no flaw of the tree. -/
structure Located (s : Store) (n : NodeId) : Prop where
  line : (s.node n).hasLine = true
  location : ∀ length, (s.node n).position.Present → ∃ mark column t,
    (Edit.locationOf (.node n) length).perform s =
      (.ok (.location mark (s.node n).position.line column length), t)
  sound : ∀ length fault t, (Edit.locationOf (.node n) length).perform s = (.error fault, t) →
    fault.isMalformed = false

/-- What keeps an attribute from being read is that it was lost. -/
theorem orMissing_error {v w : Value} {name : String} {fault : Fault}
    (h : s.orMissing v name (some w) = .error fault) : fault.isMalformed = false := by
  cases w with
  | missing owner lost =>
    cases h
    rfl
  | _ => simp [orMissing] at h

/-- The line and column of a node with a line can be read unless one of them was lost. -/
theorem lineAndColumn_error (h : (s.node n).hasLine = true) {fault : Fault}
    (hfault : s.lineAndColumn (.node n) = .error fault) : fault.isMalformed = false := by
  unfold Node.hasLine at h
  rw [lineAndColumn, getAttribute_line, getAttribute_column] at hfault
  cases hl : s.orMissing (.node n) "line" (some (s.node n).position.line) with
  | error fault' =>
    rw [hl] at hfault
    cases hfault
    exact orMissing_error hl
  | ok line =>
    rw [hl] at hfault
    rw [orMissing_ok hl] at h
    cases hc : s.orMissing (.node n) "column" (some (s.node n).position.column) with
    | error fault' =>
      rw [hc] at hfault
      cases line with
      | null => simp [Value.isNull] at h
      | _ =>
        cases hfault
        exact orMissing_error hc
    | ok column =>
      rw [hc] at hfault
      cases line with
      | null => simp [Value.isNull] at h
      | _ => simp at hfault

/-- A lint can be placed at a node that has a line. -/
theorem located_of_hasLine (h : (s.node n).hasLine = true) : s.Located n where
  line := h
  location length hpresent := by
    obtain ⟨hl, hc, _⟩ := hpresent
    simp only [Edit.locationOf, Edit.perform_bind, Edit.perform_tryRead, lineAndColumn,
      getAttribute_line, getAttribute_column, orMissing_of_present _ _ _ hl,
      orMissing_of_present _ _ _ hc]
    unfold Node.hasLine at h
    cases hline : (s.node n).position.line with
    | null => simp [hline, Value.isNull] at h
    | _ => exact ⟨_, _, _, rfl⟩
  sound length fault t hfault := by
    rw [Edit.locationOf, Edit.perform_bind, Edit.perform_tryRead] at hfault
    cases hp : s.lineAndColumn (.node n) with
    | error fault' =>
      rw [hp] at hfault
      cases hfault
      exact lineAndColumn_error h hp
    | ok place =>
      rw [hp] at hfault
      cases hfault

/-! ## No line is lost -/

theorem hasLine_completed {own container : Position} (h : own.line.isNull = false) :
    (own.completed container).line.isNull = false := by
  unfold Position.completed
  rw [if_neg (by simp [h])]
  exact h

/-- Completing locations takes no line away. -/
theorem hasLine_fill (h : (s.node n).hasLine = true) (c self : NodeId) :
    ((s.fill c self).node n).hasLine = true := by
  rw [node_fill]
  split
  · rename_i hc
    rw [hc.1] at h
    simp only [Node.hasLine, Bool.not_eq_true'] at h ⊢
    exact hasLine_completed h
  · exact h

theorem hasLine_setParent (h : (s.node n).hasLine = true) (c : NodeId) (p : Value) :
    ((s.setParent (.node c) p).node n).hasLine = true := by
  rw [node_setParent]
  split <;> exact h

theorem lt_size_of_hasLine (h : (s.node n).hasLine = true) : n < s.nodes.size := by
  rcases Nat.lt_or_ge n s.nodes.size with hn | hn
  · exact hn
  · rw [node_of_size_le hn] at h
    exact absurd h (by simp [Node.hasLine, Value.isNull])

theorem hasLine_addNode (h : (s.node n).hasLine = true) (x : Node) :
    ((s.addNode x).node n).hasLine = true := by
  rw [node_addNode, if_neg (Nat.ne_of_lt (lt_size_of_hasLine h))]
  exact h

/-- What a store that came out of `s₀` still has: all that was there, and every line. -/
structure Lined (s₀ s : Store) : Prop where
  extends_ : s₀.Extends s
  line : ∀ n, (s₀.node n).hasLine = true → (s.node n).hasLine = true

namespace Lined

theorem refl (s : Store) : s.Lined s := ⟨.refl s, fun _ h => h⟩

theorem fill (h : s₀.Lined s) (c self : NodeId) : s₀.Lined (s.fill c self) :=
  ⟨h.extends_.fill c self, fun n hn => hasLine_fill (h.line n hn) c self⟩

theorem addVariable (h : s₀.Lined s) (self : NodeId) (name : Value) :
    s₀.Lined (s.addVariable self name) :=
  ⟨addVariable_extends h.extends_ self name, fun n hn => hasLine_addNode (h.line n hn) _⟩

theorem setParent (h : s₀.Lined s) (c : NodeId) (p : Value) :
    s₀.Lined (s.setParent (.node c) p) :=
  ⟨h.extends_.setParent c p, fun n hn => hasLine_setParent (h.line n hn) c p⟩

theorem note (h : s₀.Lined s) (m : Message) : s₀.Lined (s.note m) :=
  ⟨h.extends_.note m, h.line⟩

theorem collected (h : s₀.Lined s) (n : NodeId) (filled : List NodeId) (names : List Value) :
    s₀.Lined ((s.fillAll n filled).addVariables n names) :=
  addVariables_keeps (fun _ name h => h.addVariable n name) names
    (fillAll_keeps (fun _ => True) (fun _ c h _ => h.fill c n) filled h
      fun _ _ => trivial)

theorem children (h : s₀.Lined s) (n : NodeId) (policy : ParentPolicy) :
    s₀.Lined ((Edit.children n policy).perform s).2 :=
  Edit.children_keeps s₀.Lined (fun _ => True) (fun _ c h _ => h.fill c n)
    (fun _ name h => h.addVariable n name) (fun _ c h _ => h.setParent c _)
    (fun _ m h => h.note m) h (fun _ _ => trivial) policy

end Lined

/-! ## Children get a line -/

/-- The root has a line, and everything below it has one that is no expression. -/
def LinedFrom (s : Store) (root : NodeId) : Prop :=
  (s.node root).hasLine = true ∧
    ∀ n, s.Below root n → s.isExpression n = false → (s.node n).hasLine = true

/-- A node that may be visited: it has a line and is below the root, or new. -/
def IsReady (s₀ : Store) (root : NodeId) (s : Store) (n : NodeId) : Prop :=
  (s.node n).hasLine = true ∧ (s₀.Below root n ∨ s₀.nodes.size ≤ n)

/-- What holds while the children of a node are adopted: each of them has a line, or is an
expression and gets one. -/
structure Adopting (s₀ : Store) (n : NodeId) (cs : List NodeId) (s : Store) : Prop where
  lined : s₀.Lined s
  container : (s.node n).hasLine = true
  child : ∀ c ∈ cs, (s.node c).hasLine = true ∨ c < s₀.nodes.size ∧ s₀.isExpression c = true

namespace Adopting

theorem fill (h : s₀.Adopting n cs s) (c : NodeId) : s₀.Adopting n cs (s.fill c n) where
  lined := h.lined.fill c n
  container := hasLine_fill h.container c n
  child c' hc' := (h.child c' hc').imp_left fun hl => hasLine_fill hl c n

theorem setParent (h : s₀.Adopting n cs s) (c : NodeId) (p : Value) :
    s₀.Adopting n cs (s.setParent (.node c) p) where
  lined := h.lined.setParent c p
  container := hasLine_setParent h.container c p
  child c' hc' := (h.child c' hc').imp_left fun hl => hasLine_setParent hl c p

theorem note (h : s₀.Adopting n cs s) (m : Message) : s₀.Adopting n cs (s.note m) :=
  ⟨h.lined.note m, h.container, h.child⟩

/-- A child whose location was completed has a line. -/
theorem hasLine_child (hs₀ : s₀.Closed) (h : s₀.Adopting n cs s) (hc : c ∈ cs) :
    ((s.fill c n).node c).hasLine = true := by
  rcases h.child c hc with hline | ⟨hsize, hexpr⟩
  · exact hasLine_fill hline c n
  · rw [node_fill, if_pos ⟨rfl, by rw [isExpression_extends hs₀ h.lined.extends_ hsize, hexpr]⟩]
    have hn := h.container
    simp only [Node.hasLine, Bool.not_eq_true'] at hn ⊢
    cases hown : (s.node c).position.line.isNull with
    | true => simpa [Position.completed, hown] using hn
    | false => exact hasLine_completed hown

end Adopting

/-- Adopting the children of a node with a line leaves each of them with a line. -/
theorem forM_adopt_hasLine (hs₀ : s₀.Closed) (h : s₀.Adopting n cs s)
    (hloop : (cs.forM (Edit.adopt n policy)).perform s = (.ok ⟨⟩, t)) :
    ∀ c ∈ cs, (t.node c).hasLine = true := by
  have hall := Edit.forM_establishes (P := s₀.Adopting n cs)
    (Q := fun c t => c ∈ cs → (t.node c).hasLine = true)
    (fun c => Edit.adopt_keeps policy (fun _ h => h.fill c) (fun _ h => h.setParent c _)
      fun _ m h => h.note m) ?establish ?stable h hloop
  case establish =>
    intro c s t hs hadopt hc
    have hline := hs.hasLine_child hs₀ hc
    exact Edit.attach_keeps (P := fun u => (u.node c).hasLine = true)
      (fun _ h => hasLine_setParent h c _) (fun _ _ h => h) hline (Edit.of_adopt_ok hadopt)
  case stable =>
    intro c c'
    refine Edit.adopt_keeps policy ?_ ?_ ?_
    · exact fun s ⟨h, hc⟩ => ⟨h.fill c', fun hmem => hasLine_fill (hc hmem) c' n⟩
    · exact fun s ⟨h, hc⟩ => ⟨h.setParent c' _, fun hmem => hasLine_setParent (hc hmem) c' _⟩
    · exact fun s m ⟨h, hc⟩ => ⟨h.note m, hc⟩
  exact fun c hc => hall c hc hc

/-- A child that was listed all along has a line, or is an expression. -/
theorem child_of_kid (hs₀ : s₀.Closed) (hlined : s₀.LinedFrom root) (hs : s₀.Lined s)
    (hn : s₀.Below root n ∨ s₀.nodes.size ≤ n) {ks : List Kid} (hks : s.kids n = some ks)
    (hc : .node c ∈ ks) :
    (s₀.node c).hasLine = true ∨ c < s₀.nodes.size ∧ s₀.isExpression c = true := by
  rcases hn with hbelow | hnew
  · have hsize := hbelow.lt_size hs₀ (lt_size_of_hasLine hlined.1)
    rw [kids_extends hs₀ hs.extends_ hsize] at hks
    have hleads : s₀.Leads n c := ⟨ks, hks, hc⟩
    cases hexpr : s₀.isExpression c with
    | false => exact Or.inl (hlined.2 c (hbelow.tail hleads) hexpr)
    | true => exact Or.inr ⟨hleads.lt_size hs₀, rfl⟩
  · -- a variable that was made on the way lists nothing
    rw [kids_new hs.extends_ hnew] at hks
    cases hks
    exact absurd hc (by simp)

/-- A variable has a line as soon as it is made, from the node it is made for. -/
theorem hasLine_variable (hline : (s.node n).hasLine = true) {names : List Value} {c : Nat}
    (hc : s.nodes.size ≤ c ∧ c < s.nodes.size + names.length) :
    ((s.addVariables n names).node c).hasLine = true := by
  obtain ⟨k, rfl⟩ := Nat.exists_eq_add_of_le hc.1
  have hk : k < names.length := by omega
  rw [node_addVariables_new names (lt_size_of_hasLine hline) (List.getElem?_eq_getElem hk)]
  exact hline

/-- One computation of children: from a node that may be visited to children that may be. -/
theorem children_ready (hs₀ : s₀.Closed) (hlined : s₀.LinedFrom root) (hs : s₀.Lined s)
    (hn : s₀.IsReady root s n) (hcs : (Edit.children n policy).perform s = (.ok cs, t)) :
    ∀ c ∈ cs, s₀.IsReady root t c := by
  obtain ⟨hline, hbelow⟩ := hn
  obtain ⟨ks, filled, hks, hplaces, _, hloop⟩ := Edit.children_ok hcs
  have hcollected : s₀.Adopting n cs ((s.fillAll n filled).addVariables n (Kid.names ks)) := by
    refine ⟨hs.collected n filled _, ((Lined.refl s).collected n filled _).line n hline, ?_⟩
    intro c hc
    rw [hplaces] at hc
    rcases Kid.mem_places hc with hk | hnew
    · rcases child_of_kid hs₀ hlined hs hbelow hks hk with hl | hexpr
      · exact Or.inl ((hs.collected n filled _).line c hl)
      · exact Or.inr hexpr
    · refine Or.inl (hasLine_variable ?_ (by simpa using hnew))
      rw [Node.hasLine, position_fillAll]
      exact hline
  have hall := forM_adopt_hasLine hs₀ hcollected hloop
  exact fun c hc => ⟨hall c hc, below_child hs₀ hs.extends_ hbelow hcs hc⟩

/-! ## Visits -/

theorem IsReady.later (h : s₀.IsReady root s n) (ht : s.Lined t) : s₀.IsReady root t n :=
  ⟨ht.line n h.1, h.2⟩

/-- A value is a node at which a lint can be placed, and one can be placed at each of its children
once they are computed. -/
def VisitedWell (s : Store) (v : Value) : Prop :=
  ∃ n, v = .node n ∧ s.Located n ∧ ∀ policy cs t,
    (Edit.children n policy).perform s = (.ok cs, t) → ∀ c ∈ cs, t.Located c

theorem IsReady.visitedWell (hs₀ : s₀.Closed) (hlined : s₀.LinedFrom root) (hs : s₀.Lined s)
    (hn : s₀.IsReady root s n) : s.VisitedWell (.node n) := by
  refine ⟨n, rfl, located_of_hasLine hn.1, fun policy cs t hcs c hc => ?_⟩
  exact located_of_hasLine (children_ready hs₀ hlined hs hn hcs c hc).1

end Store

/-- A walk visits well if what is on its stack may be visited. -/
theorem Walk.fromStack_visits {s₀ : Store} {root : NodeId} (policy : ParentPolicy)
    (hs₀ : s₀.Closed) (hlined : s₀.LinedFrom root) : ∀ (limit : Nat) (stack : List NodeId)
      (s : Store), s₀.Lined s → (∀ n ∈ stack, s₀.IsReady root s n) →
        ∀ e ∈ (fromStack policy limit stack s).visits, e.2.VisitedWell e.1
  | 0, _, _, _, _ => by simp [fromStack]
  | _ + 1, [], _, _, _ => by simp [fromStack]
  | 1, n :: rest, s, hs, hstack => by
    have hn := (hstack n (List.mem_cons_self ..)).visitedWell hs₀ hlined hs
    simpa [fromStack] using hn
  | k + 2, n :: rest, s, hs, hstack => by
    have hready := hstack n (List.mem_cons_self ..)
    have hn := hready.visitedWell hs₀ hlined hs
    rw [fromStack]
    cases hcs : (Edit.children n policy).perform s with
    | mk r t =>
      cases r with
      | error fault => simpa using hn
      | ok cs =>
        have hlater : s.Lined t := by
          have := (Store.Lined.refl s).children n policy
          rwa [hcs] at this
        have ht : s₀.Lined t := by
          have := hs.children n policy
          rwa [hcs] at this
        -- what waits on the stack keeps its line, and the children got theirs
        have hnext : ∀ c ∈ cs ++ rest, s₀.IsReady root t c := by
          intro c hc
          rcases List.mem_append.mp hc with hc | hc
          · exact Store.children_ready hs₀ hlined hs hready hcs c hc
          · exact (hstack c (List.mem_cons_of_mem _ hc)).later hlater
        have ih := fromStack_visits policy hs₀ hlined (k + 1) (cs ++ rest) t ht hnext
        simpa [visiting, hn] using ih

/-! ## Runs -/

namespace Linter

open Store

variable {s t s₀ : Store} {root n : NodeId} {i : AgentId}

/-- What holds during a run: no line was lost, and the lints go to a list of their own. -/
structure Running (s₀ : Store) (i : AgentId) (s : Store) : Prop where
  lined : s₀.Lined s
  lints : ∀ l, s.lintsOf i = .list l → s₀.lists.size ≤ l

/-- A later store of a run. -/
def LaterLined (s₀ : Store) (i : AgentId) (s t : Store) : Prop :=
  Running s₀ i s → Running s₀ i t ∧ ∀ n, (s.node n).hasLine = true → (t.node n).hasLine = true

theorem LaterLined.of_rest (nodes : t.nodes = s.nodes) (agents : t.agents = s.agents)
    (h : s₀.Extends s → s₀.Extends t) : LaterLined s₀ i s t := by
  intro hs
  have hnode : ∀ n, t.node n = s.node n := fun n => by rw [node, node?, nodes]; rfl
  have hlints : t.lintsOf i = s.lintsOf i := by rw [lintsOf, linter?, agent?, agents]; rfl
  refine ⟨⟨⟨h hs.lined.extends_, fun n hn => ?_⟩, fun l hl => hs.lints l (hlints ▸ hl)⟩,
    fun n hn => ?_⟩
  · rw [hnode]
    exact hs.lined.line n hn
  · rwa [hnode]

/-- The visits of a linter lose no line, and lead to nodes that have one: what is below the root has
it, and what is new gets that of its container. -/
theorem progress_lined (hs₀ : s₀.Closed) (hlined : s₀.LinedFrom root) (i : AgentId) :
    Progress (LaterLined s₀ i) (fun s n => Running s₀ i s ∧ s₀.IsReady root s n) i where
  later := {
    refl := fun _ hs => ⟨hs, fun _ hn => hn⟩
    trans := fun hst htu hs =>
      ⟨(htu (hst hs).1).1, fun n hn => (htu (hst hs).1).2 n ((hst hs).2 n hn)⟩ }
  stable := fun ⟨hs, hn⟩ hst => ⟨(hst hs).1, (hst hs).2 _ hn.1, hn.2⟩
  children {s n} policy _ := by
    intro hs
    refine ⟨⟨hs.lined.children n policy, fun l hl => hs.lints l ?_⟩,
      ((Lined.refl s).children n policy).line⟩
    rw [lintsOf, linter?, agent?, (agents_marks_children s n policy).1] at hl
    exact hl
  child {s t n policy cs} := fun ⟨hs, hn⟩ hcs c hc => by
    have ht : Running s₀ i t := by
      refine ⟨?_, fun l hl => hs.lints l ?_⟩
      · have := hs.lined.children n policy
        rwa [hcs] at this
      · have := (agents_marks_children s n policy).1
        rw [hcs] at this
        rw [lintsOf, linter?, agent?, this] at hl
        exact hl
    exact ⟨ht, children_ready hs₀ hlined hs.lined hn hcs c hc⟩
  mark s := .of_rest rfl rfl fun h => h.of_rest rfl rfl rfl
  list s items := .of_rest rfl rfl fun h => h.addList items
  table s entries := .of_rest rfl rfl fun h => h.addTable entries
  note s m _ := .of_rest rfl rfl fun h => h.note m
  append {s t v} happend := by
    intro hs
    obtain ⟨l, hl, rfl⟩ := append_inv happend
    exact LaterLined.of_rest rfl rfl (fun h => h.setList (hs.lints l hl) _) hs

/-- A run starts with its lints in a new list and every line where it was. -/
theorem running_startedOver {a : Agent} {l : Linter} (ha : s.agent? i = some a) (file : Value)
    (stays : Cell → Bool) : Running s i (startedOver s i a l file stays) where
  lined := by
    refine ⟨startedOver_extends (Extends.refl s) a l file stays, fun n hn => ?_⟩
    rw [startedOver, node_keepParents]
    exact hn
  lints := lintsOf_startedOver_new ha (Nat.le_refl _) file stays

/-- With a guard that only lets through what is visited well, a run is what it is without. -/
theorem runGuarded_visitedWell (hs : s.Closed) (hlined : s.LinedFrom root) (hi : s.IsLinter i)
    (file : Value) (fault : Fault) :
    (runGuarded (fun v => Edit.require (·.VisitedWell v) fault) i (.node root) file).perform s =
      (run i (.node root) file).perform s := by
  obtain ⟨a, l, ha, hl, hb⟩ := hi
  obtain ⟨stays, hreset⟩ := perform_reset ha hl hb file
  have hrunning := running_startedOver (l := l) ha file stays
  have hagrees := (progress_lined hs hlined i).visitGuarded_agrees
    (fun v => Edit.require (·.VisitedWell v) fault)
    (fun ⟨hs', hn⟩ => Edit.perform_require (hn.visitedWell hs hlined hs'.lined) fault)
  rw [runGuarded, perform_run hreset, Edit.perform_bind_ok hreset,
    Edit.perform_bind_ok (Edit.perform_get _), Edit.perform_bind,
    (hagrees _ root _ ⟨hrunning, hrunning.lined.line root hlined.1, Or.inl .refl⟩).1]
  cases (visitTo i _ (.node root)).perform _ with
  | mk r t =>
    cases r with
    | error fault => rfl
    | ok _ => exact Edit.perform_tryRead _ t

end Linter

/-- From a root with a line, below which all that is no expression has a line, every node is visited
well: when a walk gives it, however early the walk is left, and when a linter visits it, whatever
the class of the linter does. It then has a line, so that a lint can be placed at it, and so have
its children once they are computed.

For a linter this is said by a guard before each of its visits that fails with any given fault if
the visit is not of that sort: it never does, since the run does not notice the guard. -/
theorem visited_nodes_located {s : Store} (hs : s.Closed) {root : NodeId}
    (hlined : s.LinedFrom root) :
    (∀ policy limit, ∀ e ∈ (Walk.start policy limit (.node root) s).visits,
      e.2.VisitedWell e.1) ∧
    ∀ i file fault, s.IsLinter i →
      (Linter.runGuarded (fun v => Edit.require (·.VisitedWell v) fault) i (.node root)
        file).perform s = (Linter.run i (.node root) file).perform s := by
  constructor
  · intro policy limit
    refine Walk.fromStack_visits policy hs hlined limit [root] s (.refl s) fun n hn => ?_
    cases List.mem_singleton.mp hn
    exact ⟨hlined.1, Or.inl .refl⟩
  · intro i file fault hi
    exact Linter.runGuarded_visitedWell hs hlined hi file fault

/-- A loop with a variable to be made, over a list without a line that contains itself, and a linter
that has something to say about variables. -/
def cyclicSheet : Store where
  nodes := #[
    some { position := { line := .int 1 }
           form := .statement (.list 0) (.each (.list 1) (.node 2)) },
    some { position := { line := .int 2 }
           form := .statement (.list 2) (.prop (.list 2) (.node 2)) },
    some { position := { column := .int 4 }
           form := .expression (.list (.list 3) (.text "space")) },
    some { form := .expression (.variable (.text "colors")) }]
  lists := #[[.node 1], [.text "color"], [], [.node 3, .node 2], []]
  agents := #[{ role := .linter {
    behaviour := LinterClass.base.derive "Naming" none none
      [("script_variable", [.lint (.text "name") none false])]
    settings := .null
    lints := .list 4 } }]

/-- The list that contains itself has no line of its own, but at every visit it has that of the
loop. -/
theorem visited_nodes_located_cyclic :
    cyclicSheet.Closed ∧ cyclicSheet.LinedFrom 0 ∧ cyclicSheet.IsLinter 0 ∧
      (∀ policy limit, ∀ e ∈ (Walk.start policy limit (.node 0) cyclicSheet).visits,
        e.2.VisitedWell e.1) ∧
      ∀ fault, (Linter.runGuarded (fun v => Edit.require (·.VisitedWell v) fault) 0 (.node 0)
        (.text "a.scss")).perform cyclicSheet =
          (Linter.run 0 (.node 0) (.text "a.scss")).perform cyclicSheet := by
  have hclosed : cyclicSheet.Closed := by decide
  have hall : ∀ n < cyclicSheet.nodes.size, cyclicSheet.isExpression n = false →
      (cyclicSheet.node n).hasLine = true := by decide
  have hlined : cyclicSheet.LinedFrom 0 :=
    ⟨by decide, fun n hn => hall n (hn.lt_size hclosed (by decide))⟩
  have hlinter : cyclicSheet.IsLinter 0 := ⟨_, _, rfl, rfl, rfl⟩
  obtain ⟨hwalk, hrun⟩ := visited_nodes_located hclosed hlined
  exact ⟨hclosed, hlined, hlinter, hwalk, fun fault => hrun 0 _ fault hlinter⟩

end SheetLint
