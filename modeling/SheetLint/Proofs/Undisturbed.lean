import SheetLint.Document
import SheetLint.Proofs.Containers
import SheetLint.Proofs.Equivalence

/-!
# Traversal does not disturb equality

Whether two values are equal depends on nothing that is done while trees are traversed. Computing
children, walking and running linters complete locations, write parents and make nodes, lists and
tables of their own. None of this is compared, nor is the location of a node when it is changed from
outside. So values are equal after any such operations if they were before (`equality_undisturbed`),
and what `SheetLint.Proofs.Equivalence` says about them is true at every moment.

No table may back a node or a linter (`Store.Unbacked`): otherwise a location would be a value in
that table, and the table might be what is compared.
-/

namespace SheetLint

namespace Position

/-- A part of a location. -/
inductive Part where
  | line
  | column
  | file

/-- The name of the attribute that a part is. -/
def Part.name : Part → String
  | .line => "line"
  | .column => "column"
  | .file => "filename"

/-- A location with another value for one part. -/
def replaced (p : Position) : Part → Value → Position
  | .line, v => { p with line := v }
  | .column, v => { p with column := v }
  | .file, v => { p with file := v }

end Position

namespace Store

variable {s t s₀ : Store} {n : NodeId} {i : AgentId}

/-- Nodes and agents keep their attributes themselves. -/
structure Unbacked (s : Store) : Prop where
  flag : s.hasBacked = false
  node : ∀ n, (s.node n).backing = none
  agent : ∀ a ∈ s.agents, a.backing = none

namespace Unbacked

/-- The nodes alone change. -/
theorem of_nodes (h : s.Unbacked) (flag : t.hasBacked = s.hasBacked) (agents : t.agents = s.agents)
    (node : ∀ n, (t.node n).backing = none) : t.Unbacked where
  flag := flag.trans h.flag
  node := node
  agent := by
    rw [agents]
    exact h.agent

/-- Whether anything is backed can be told by looking at what is there. -/
theorem of_all (flag : s.hasBacked = false)
    (node : ∀ n < s.nodes.size, (s.node n).backing = none)
    (agent : ∀ a ∈ s.agents, a.backing = none) : s.Unbacked where
  flag := flag
  node n := by
    rcases Nat.lt_or_ge n s.nodes.size with hn | hn
    · exact node n hn
    · rw [node_of_size_le hn]
  agent := agent

/-- Neither nodes nor agents change. -/
theorem of_rest (h : s.Unbacked) (flag : t.hasBacked = s.hasBacked) (nodes : t.nodes = s.nodes)
    (agents : t.agents = s.agents) : t.Unbacked := by
  refine h.of_nodes flag agents fun n => ?_
  rw [Store.node, node?, nodes]
  exact h.node n

theorem fill (h : s.Unbacked) (c self : NodeId) : (s.fill c self).Unbacked := by
  refine h.of_nodes ?_ ?_ fun n => ?_
  · unfold Store.fill
    split <;> rfl
  · unfold Store.fill
    split <;> rfl
  · rw [node_fill]
    split <;> exact h.node _

theorem addVariable (h : s.Unbacked) (self : NodeId) (name : Value) :
    (s.addVariable self name).Unbacked := by
  refine h.of_nodes rfl rfl fun n => ?_
  rw [Store.addVariable, node_addNode]
  split
  · rfl
  · exact h.node n

theorem setParent (h : s.Unbacked) (c : NodeId) (p : Value) :
    (s.setParent (.node c) p).Unbacked := by
  refine h.of_nodes rfl rfl fun n => ?_
  rw [node_setParent]
  split <;> exact h.node _

theorem note (h : s.Unbacked) (m : Message) : (s.note m).Unbacked := h.of_rest rfl rfl rfl

theorem keepParents (h : s.Unbacked) (stays : Cell → Bool) : (s.keepParents stays).Unbacked where
  flag := h.flag
  node n := by
    rw [node_keepParents]
    exact h.node n
  agent b hb := by
    obtain ⟨a, ha, rfl⟩ := Array.mem_map.mp hb
    exact h.agent a ha

/-- A linter that starts over still keeps its attributes itself. -/
theorem startedOver (h : s.Unbacked) {a : Agent} {l : Linter} (ha : s.agent? i = some a)
    (file : Value) (stays : Cell → Bool) : (Linter.startedOver s i a l file stays).Unbacked := by
  refine Unbacked.keepParents (s := (s.addList []).setAgent i _)
    ⟨h.flag, h.node, fun b hb => ?_⟩ stays
  rcases Array.mem_or_eq_of_mem_setIfInBounds hb with hb | rfl
  · exact h.agent b hb
  · exact h.agent a (Array.mem_of_getElem? ha)

end Unbacked

/-- A later store, in which all that was there is compared as it was. -/
structure Undisturbed (s₀ s : Store) : Prop where
  extends_ : s₀.Extends s
  unbacked : s.Unbacked

theorem Undisturbed.children (h : s₀.Undisturbed s) (n : NodeId) (policy : ParentPolicy) :
    s₀.Undisturbed ((Edit.children n policy).perform s).2 :=
  Edit.children_keeps s₀.Undisturbed (fun _ => True)
    (fun _ c h _ => ⟨h.extends_.fill c n, h.unbacked.fill c n⟩)
    (fun _ name h => ⟨addVariable_extends h.extends_ n name, h.unbacked.addVariable n name⟩)
    (fun _ c h _ => ⟨h.extends_.setParent c _, h.unbacked.setParent c _⟩)
    (fun _ m h => ⟨h.extends_.note m, h.unbacked.note m⟩) h (fun _ _ => trivial) policy

/-- Writing a part of a location changes nothing else. -/
theorem setAttribute_part (hn : (s.node n).backing = none) (part : Position.Part) (v : Value) :
    s.setAttribute (.node n) part.name v =
      .ok (s.setNode n { s.node n with position := (s.node n).position.replaced part v }) := by
  cases part <;>
    simp [Position.Part.name, Position.replaced, setAttribute, setNodeAttribute, specialFault?, hn,
      Node.write, Node.setField?]

/-- Where a node stands plays no part. -/
theorem Undisturbed.setNode (h : s₀.Undisturbed s) (p : Position) :
    s₀.Undisturbed (s.setNode n { s.node n with position := p }) := by
  refine ⟨h.extends_.of_nodes (by simp) (fun m => ?_) rfl rfl,
    h.unbacked.of_nodes rfl rfl fun m => ?_⟩
  · rw [node_setNode]
    split
    · rename_i hm
      rw [hm.1]
      exact ⟨rfl, rfl⟩
    · exact ⟨rfl, rfl⟩
  · rw [node_setNode]
    split
    · exact h.unbacked.node n
    · exact h.unbacked.node m

end Store

open Store

/-! ## Walks and runs -/

namespace Linter

variable {s s₀ : Store} {i : AgentId}

/-- In the course of a run lints go to a list that is new. -/
theorem progress_undisturbed (s₀ : Store) (i : AgentId) :
    Progress (fun s t => Apart s₀ i s ∧ s.Unbacked → Apart s₀ i t ∧ t.Unbacked) (fun _ _ => True)
      i where
  later := Edit.isLater_keeps _
  note s m _ := fun ⟨h, hu⟩ => ⟨h.of_rest (s := s) rfl fun h => h.note m, hu.note m⟩
  mark s := fun ⟨h, hu⟩ =>
    ⟨h.of_rest (s := s) rfl fun h => h.of_rest rfl rfl rfl, hu.of_rest (s := s) rfl rfl rfl⟩
  list s items := fun ⟨h, hu⟩ =>
    ⟨h.of_rest (s := s) rfl fun h => h.addList items, hu.of_rest (s := s) rfl rfl rfl⟩
  table s entries := fun ⟨h, hu⟩ =>
    ⟨h.of_rest (s := s) rfl fun h => h.addTable entries, hu.of_rest (s := s) rfl rfl rfl⟩
  stable _ _ := trivial
  children {s n} policy _ := fun ⟨h, hu⟩ =>
    ⟨h.children n policy, (Undisturbed.children ⟨h.extends_, hu⟩ n policy).unbacked⟩
  child _ _ _ _ := trivial
  append {s t v} happend := fun ⟨h, hu⟩ => by
    obtain ⟨l, hl, rfl⟩ := append_inv happend
    exact ⟨h.of_rest (s := s) rfl fun hext => hext.setList (h.lints l hl) _,
      hu.of_rest (s := s) rfl rfl rfl⟩

/-- A run leaves all that was there to be compared as it was. -/
theorem run_undisturbed {a : Agent} {l : Linter} (ha : s.agent? i = some a)
    (hl : a.role = .linter l) (root file : Value) (h : s₀.Undisturbed s) :
    s₀.Undisturbed ((run i root file).perform s).2 := by
  obtain ⟨stays, hreset⟩ :=
    perform_reset ha hl (h.unbacked.agent a (Array.mem_of_getElem? ha)) file
  have hstarted : Apart s₀ i (startedOver s i a l file stays) ∧
      (startedOver s i a l file stays).Unbacked :=
    ⟨⟨startedOver_extends h.extends_ a l file stays,
        lintsOf_startedOver_new ha h.extends_.lists file stays⟩,
      h.unbacked.startedOver ha file stays⟩
  have hvisited := (progress_undisturbed s₀ i).moves_visitAny (fun _ _ => trivial)
    (depth (startedOver s i a l file stays)) root _ hstarted
  rw [store_run hreset]
  exact ⟨hvisited.1.extends_, hvisited.2⟩

end Linter

/-! ## One passage after the other -/

/-- What is done with nodes that leaves no trace in what they are compared by. -/
inductive Passage where
  | children (v : Value) (policy : ParentPolicy)
  /-- A walk that is left after `limit` nodes. -/
  | walk (policy : ParentPolicy) (limit : Nat) (root : Value)
  | run (linter root file : Value)
  /-- A part of the location of a node is written. -/
  | relocate (n : NodeId) (part : Position.Part) (v : Value)

namespace Passage

/-- The store after a passage, whether it gave a result or failed. -/
def after : Passage → Store → Store
  | children v policy, s => ((Edit.childrenOf v policy).perform s).2
  | walk policy limit root, s => (Walk.start policy limit root s).store
  | run linter root file, s => ((Document.runOne linter root file).perform s).2
  | relocate n part v, s =>
    ((Edit.change fun s => s.setAttribute (.node n) part.name v).perform s).2

/-- The store after several passages. -/
def afterAll (passages : List Passage) (s : Store) : Store :=
  passages.foldl (fun s p => p.after s) s

variable {s s₀ : Store}

/-- Whatever is done to a document leaves all that was there to be compared as it was. -/
theorem after_undisturbed (h : s₀.Undisturbed s) (p : Passage) : s₀.Undisturbed (p.after s) := by
  cases p with
  | children v policy =>
    cases v with
    | node n => exact h.children n policy
    | _ => exact h
  | walk policy limit root =>
    exact Walk.start_keeps (P := s₀.Undisturbed) (fun n _ h => h.children n policy) limit root h
  | run linter root file =>
    exact Document.runOne_keeps (fun ha hl => Linter.run_undisturbed ha hl root file) linter s h
  | relocate n part v =>
    simp only [after, Edit.perform_change, setAttribute_part (h.unbacked.node n)]
    exact h.setNode _

theorem afterAll_undisturbed : ∀ (passages : List Passage) {s : Store}, s₀.Undisturbed s →
    s₀.Undisturbed (afterAll passages s)
  | [], _, h => h
  | p :: passages, _, h => afterAll_undisturbed passages (after_undisturbed h p)

end Passage

/-- Equality is an equivalence among plain values, and it always gives an answer. Nodes of different
classes are never equal; plain nodes of one class are if they are equal in the parts that their
class is compared by, and bare nodes if they are one node.

Whatever passages there are over whatever nodes, values that were there before are compared as they
were. -/
theorem equality_undisturbed {s : Store} {marked : Nat → List Value} (hs : s.Closed)
    (hunbacked : s.Unbacked) :
    (∀ a b, s.trySame a b = .ok (s.same a b)) ∧
    (∀ a, s.Plain marked a → s.same a a = true) ∧
    (∀ a b, s.Plain marked a → s.Plain marked b → s.same a b = s.same b a) ∧
    (∀ a b c, s.Plain marked a → s.Plain marked b → s.Plain marked c →
      s.same a b = true → s.same b c = true → s.same a c = true) ∧
    (∀ n m, s.same (.node n) (.node m) = true →
      (s.node n).nodeClass = (s.node m).nodeClass) ∧
    (∀ n m, s.Plain marked (.node n) → s.Plain marked (.node m) →
      (s.same (.node n) (.node m) = true ↔ (s.node n).nodeClass = (s.node m).nodeClass ∧
        ((s.node n).form = .bare → n = m) ∧
        Value.pairwise s.same (s.compared n) (s.compared m) = true)) ∧
    ∀ passages a b, s.Holds a → s.Holds b →
      (Passage.afterAll passages s).trySame a b = s.trySame a b := by
  have hanswer {u : Store} (hu : u.Unbacked) (a b : Value) : u.trySame a b = .ok (u.same a b) := by
    rw [trySame, equalityFault?_of_unbacked hu.flag]
  refine ⟨hanswer hunbacked, fun a ha => ha.same_self, fun a b ha hb => ?symm,
    fun a b c ha hb hc => ha.same_trans hb hc, fun n m h => ?classes, fun n m hn hm => ?parts,
    fun passages a b ha hb => ?after⟩
  case symm => exact Bool.eq_iff_iff.mpr ⟨ha.same_symm hb, hb.same_symm ha⟩
  case classes =>
    obtain ⟨m', hm, hsame⟩ := same_node.mp h
    cases hm
    exact class_of_sameNode hsame
  case parts =>
    rw [← Plain.sameNode_iff hn hm, same_node]
    exact ⟨fun ⟨_, he, h⟩ => by cases he; exact h, fun h => ⟨m, rfl, h⟩⟩
  case after =>
    have ht := Passage.afterAll_undisturbed passages ⟨.refl s, hunbacked⟩
    rw [hanswer ht.unbacked, hanswer hunbacked, same_extends hs ht.extends_ ha hb]

/-- Two calls of a function with an argument and two keywords. They stand in different places, their
keywords come in different orders, and one number is a truth value in the other. -/
def callSheet : Store where
  nodes := #[
    some { position := { line := .int 1 }
           form := .expression
             (.funcall (.text "mix") (.list 0) (.table 0) .null (.node 2)) },
    some { form := .expression (.funcall (.text "mix") (.list 1) (.table 1) .null (.node 2)) },
    some { form := .expression (.literal (.tuple 7 [.int 1])) },
    some { form := .expression (.literal (.bool true)), parent := .to (.node 0) }]
  lists := #[[.node 3], [.node 3], []]
  tables := #[[(.text "weight", .int 1), (.int 2, .null)],
    [(.int 2, .null), (.text "weight", .bool true)]]
  agents := #[{ role := .linter {
    behaviour := LinterClass.base.derive "Naming" none none
      [("script_funcall", [.lint (.text "call") none false, .descend])]
    settings := .null
    lints := .list 2 } }]

/-- The calls are equal before and after they are computed, walked, linted and moved. -/
theorem equality_undisturbed_calls :
    callSheet.Closed ∧ callSheet.Unbacked ∧
      callSheet.Plain (fun _ => [.int 1]) (.node 0) ∧
      callSheet.Plain (fun _ => [.int 1]) (.node 1) ∧
      callSheet.Holds (.node 0) ∧ callSheet.Holds (.node 1) ∧
      callSheet.same (.node 0) (.node 1) = true ∧ callSheet.same (.node 1) (.node 0) = true ∧
      callSheet.same (.node 0) (.node 2) = false ∧
      (Passage.afterAll [.children (.node 0) .strict, .walk .refresh 9 (.node 1),
        .run (.agent 0) (.node 0) (.text "a.scss"), .relocate 1 .line (.int 9)]
          callSheet).trySame (.node 0) (.node 1) = .ok true := by
  have hclosed : callSheet.Closed := by decide
  have hunbacked : callSheet.Unbacked := .of_all rfl (by decide) (by decide)
  let marked : Nat → List Value := fun _ => [.int 1]
  have hone : callSheet.Plain marked (.int 1) := .number rfl (by decide)
  have htrue : callSheet.Plain marked (.bool true) := .number rfl (by decide)
  have htuple : callSheet.Plain marked (.tuple 7 [.int 1]) :=
    .tuple rfl fun x hx => List.mem_singleton.mp hx ▸ hone
  have hsplat : callSheet.Plain marked (.node 2) :=
    .node fun v hv => List.mem_singleton.mp hv ▸ htuple
  have hargument : callSheet.Plain marked (.node 3) :=
    .node fun v hv => List.mem_singleton.mp hv ▸ htrue
  have harguments : ∀ l < 2, callSheet.Plain marked (.list l) := by
    intro l hl
    refine .list fun x hx => ?_
    match l, hl with
    | 0, _ => exact List.mem_singleton.mp hx ▸ hargument
    | 1, _ => exact List.mem_singleton.mp hx ▸ hargument
  have hweight : Value.IsKey (.text "weight") := .text _
  have htwo : Value.IsKey (.int 2) := .number rfl (by decide)
  have hkeywords : callSheet.Plain marked (.table 0) := by
    refine .table ⟨List.forall_mem_cons.mpr ⟨hweight, ?_⟩, by decide⟩
      (List.forall_mem_cons.mpr ⟨hone, ?_⟩)
    · exact fun e he => List.mem_singleton.mp he ▸ htwo
    · exact fun v hv => List.mem_singleton.mp hv ▸ .null
  have hkeywords' : callSheet.Plain marked (.table 1) := by
    refine .table ⟨List.forall_mem_cons.mpr ⟨htwo, ?_⟩, by decide⟩
      (List.forall_mem_cons.mpr ⟨.null, ?_⟩)
    · exact fun e he => List.mem_singleton.mp he ▸ hweight
    · exact fun v hv => List.mem_singleton.mp hv ▸ htrue
  have hcall : callSheet.Plain marked (.node 0) := by
    refine .node fun v hv => ?_
    have hv : v ∈ [Value.text "mix", .list 0, .table 0, .null, .node 2] := hv
    simp only [List.mem_cons, List.not_mem_nil, or_false] at hv
    rcases hv with rfl | rfl | rfl | rfl | rfl
    exacts [.text _, harguments 0 (by decide), hkeywords, .null, hsplat]
  have hcall' : callSheet.Plain marked (.node 1) := by
    refine .node fun v hv => ?_
    have hv : v ∈ [Value.text "mix", .list 1, .table 1, .null, .node 2] := hv
    simp only [List.mem_cons, List.not_mem_nil, or_false] at hv
    rcases hv with rfl | rfl | rfl | rfl | rfl
    exacts [.text _, harguments 1 (by decide), hkeywords', .null, hsplat]
  have hsame : callSheet.same (.node 0) (.node 1) = true := by decide
  obtain ⟨hanswer, _, hsymm, _, hclasses, _, hafter⟩ :=
    @equality_undisturbed callSheet marked hclosed hunbacked
  refine ⟨hclosed, hunbacked, hcall, hcall', by decide, by decide, hsame, ?_, ?_, ?_⟩
  · rw [← hsymm _ _ hcall hcall', hsame]
  · rw [Bool.eq_false_iff]
    exact fun h => absurd (hclasses 0 2 h) (by decide)
  · rw [hafter _ _ _ (by decide) (by decide), hanswer, hsame]

end SheetLint
