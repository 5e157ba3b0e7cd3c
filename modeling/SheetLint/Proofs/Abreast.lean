import SheetLint.Proofs.Choices
import SheetLint.Proofs.Kids
import SheetLint.Proofs.Pictures

/-!
# Two stores abreast

While a linter runs, its lints go to a list of its own. A walk over the same document knows no such
list. `Store.Abreast` says of two stores that they differ in nothing but that list, the lints and
files of linters, marks, and what was logged beside re-parentings, where nothing that belongs to the
document leads to the list (`Store.Shuns`).

Whatever is read of such stores while children are computed is the same in both, down to the fault
if it cannot be read: attributes (`Abreast.getAttribute`), items, the nodes of nests
(`Abreast.flattenAll`) and how a value is printed (`Abreast.tryQuoted`). The last two go down to a
depth that is different in the two stores, but great enough in both.
-/

namespace SheetLint

namespace Value

/-- A value that does not name a list. -/
def Avoids (L : ListId) (v : Value) : Prop := Cell.list L ∉ v.cells

variable {L : ListId} {v : Value}

theorem avoids_of_cells (h : v.cells = []) : v.Avoids L := by
  rw [Avoids, h]
  exact List.not_mem_nil

theorem avoidsAll_iff {xs : List Value} :
    Cell.list L ∉ cellsAll xs ↔ ∀ x ∈ xs, x.Avoids L := by
  induction xs with
  | nil => simp [cellsAll]
  | cons x xs ih =>
    rw [cellsAll, List.mem_append, not_or, ih, List.forall_mem_cons]
    rfl

theorem Avoids.inner (h : v.Avoids L) : ∀ x ∈ v.inner, x.Avoids L := by
  cases v with
  | tuple m xs => exact avoidsAll_iff.mp h
  | location m l c n => simp_all [Avoids, inner, cells]
  | lint m source file loc description severity fixable => simp_all [Avoids, inner, cells]
  | _ => exact fun x hx => absurd hx (by simp [inner])

theorem avoids_list {l : ListId} : (Value.list l).Avoids L ↔ l ≠ L := by
  rw [Avoids, cells, List.mem_singleton, Cell.list.injEq]
  exact ⟨fun h he => h he.symm, fun h he => h he.symm⟩

theorem avoids_list_of_mem {xs : List Value} (hxs : ∀ x ∈ xs, x.Avoids L) {l : ListId}
    (hl : Cell.list l ∈ cellsAll xs) : (Value.list l).Avoids L :=
  avoids_list.mpr fun he => avoidsAll_iff.mpr hxs (he ▸ hl)

section Leaf

variable {enter : ListId → Except Stray (List NodeId)}

mutual

/-- The leaf that keeps a nest from being flattened leads to a list no more than the nest does. -/
theorem leaf_avoids
    (henter : ∀ l, (Value.list l).Avoids L → ∀ w, enter l = .error (.leaf w) → w.Avoids L) :
    ∀ (v : Value), v.Avoids L → ∀ {w : Value},
    flattenWith enter v = .error (.leaf w) → w.Avoids L
  | v, hv, w, h => by
    cases v with
    | null => simp [flattenWith] at h
    | node n => simp [flattenWith] at h
    | list l => exact henter l hv w h
    | tuple m xs => exact leafAll_avoids henter xs (avoidsAll_iff.mp hv) h
    | _ =>
      cases h
      exact hv

/-- Neither does a leaf that keeps any of several nests from being flattened. -/
theorem leafAll_avoids
    (henter : ∀ l, (Value.list l).Avoids L → ∀ w, enter l = .error (.leaf w) → w.Avoids L) :
    ∀ (xs : List Value), (∀ x ∈ xs, x.Avoids L) → ∀ {w : Value},
    flattenAllWith enter xs = .error (.leaf w) → w.Avoids L
  | [], _, _, h => by simp [flattenAllWith] at h
  | x :: xs, hxs, w, h => by
    rw [flattenAllWith] at h
    cases hx : flattenWith enter x with
    | error stray =>
      rw [hx] at h
      cases h
      exact leaf_avoids henter x (hxs x (List.mem_cons_self ..)) hx
    | ok ns =>
      rw [hx] at h
      cases hr : flattenAllWith enter xs with
      | ok ms => simp [hr] at h
      | error stray =>
        rw [hr] at h
        cases h
        exact leafAll_avoids henter xs (fun y hy => hxs y (List.mem_cons_of_mem _ hy)) hr

end

end Leaf

end Value

namespace Store

/-- The names under which an agent shows what changes when a linter starts over. -/
def agentNames : List String := ["_lints", "_filename", "_parent_ref", "__weakref__"]

/-- Nothing leads to a list but the list itself and the linter whose lints it has. -/
structure Shuns (L : ListId) (s : Store) : Prop where
  held : ∀ n, ∀ v ∈ (s.node n).held, v.Avoids L
  list : ∀ l, l ≠ L → ∀ v ∈ s.list l, v.Avoids L
  table : ∀ t, ∀ e ∈ s.table t, e.1.Avoids L ∧ e.2.Avoids L
  agent : ∀ i a name v, s.agent? i = some a → name ∉ agentNames → a.own? name = some v → v.Avoids L

/-- Two stores that differ only in a list that nothing leads to, the lints and files of linters,
marks, and what was logged beside re-parentings. -/
structure Abreast (L : ListId) (s t : Store) : Prop where
  nodes : t.nodes = s.nodes
  tables : t.tables = s.tables
  list : ∀ l, l ≠ L → t.list l = s.list l
  size : t.agents.size = s.agents.size
  agents : ∀ i, Option.Rel Agent.Alike (s.agent? i) (t.agent? i)
  log : t.log.filter Message.isReparenting = s.log.filter Message.isReparenting
  shuns : s.Shuns L
  named : s.Named
  unbacked : s.hasBacked = false
  unbacked' : t.hasBacked = false

variable {L : ListId} {s t : Store} {v x : Value} {n : NodeId} {name : String}

/-- Only nodes and agents can have a kind. -/
theorem getAttribute_kind_cases {w : Value} (h : s.getAttribute v "kind" = .ok w) :
    (∃ n, v = .node n) ∨ ∃ i, v = .agent i := by
  cases v with
  | node n => exact Or.inl ⟨n, rfl⟩
  | agent i => exact Or.inr ⟨i, rfl⟩
  | _ => cases h

namespace Shuns

variable (h : s.Shuns L)
include h

theorem field : ∀ v ∈ (s.node n).form.fields, v.Avoids L :=
  fun v hv => h.held n v (mem_held_of_field hv)

theorem position : (s.node n).position.line.Avoids L ∧ (s.node n).position.column.Avoids L ∧
    (s.node n).position.file.Avoids L := by
  refine ⟨h.held n _ ?_, h.held n _ ?_, h.held n _ ?_⟩ <;> simp [Node.held, Node.fields]

theorem note {e : String × Value} (he : e ∈ (s.node n).notes) : e.2.Avoids L := by
  refine h.held n _ ?_
  simp only [Node.held, List.mem_append]
  exact Or.inl (Or.inl (Or.inr (List.mem_map_of_mem he)))

theorem lookup_note (hw : (s.node n).notes.lookup name = some v) : v.Avoids L := by
  obtain ⟨before, after, hnotes, _⟩ := List.lookup_eq_some_iff.mp hw
  exact h.note (e := (name, v)) (by rw [hnotes]; simp)

/-- What an agent has under a name does not lead to the list. Left out are the names that a run
changes, and the policy, which is asked of the settings. -/
theorem agentAttribute {i : AgentId} {w : Value} (hname : name ∉ agentNames)
    (hpolicy : name ≠ "parent_policy") (hw : s.getAttribute (.agent i) name = .ok w) :
    w.Avoids L := by
  have hnames := hname
  simp only [agentNames, List.mem_cons, List.not_mem_nil, or_false, not_or] at hname
  cases ha : s.agent? i with
  | none =>
    rw [show s.getAttribute (.agent i) name = s.agentAttribute _ i name from rfl,
      Store.agentAttribute, ha] at hw
    cases hw
  | some a =>
    have hget : (s.getAttribute (.agent i) name).toOption = some w := by rw [hw]; rfl
    rw [show s.getAttribute (.agent i) name = s.agentAttribute _ i name from rfl,
      toOption_agentAttribute ha hpolicy hname.2.2.1 hname.2.2.2] at hget
    split at hget
    · cases hget
      exact Value.avoids_of_cells rfl
    · obtain ⟨hfound, _⟩ := Option.filter_eq_some_iff.mp hget
      cases hown : a.own? name with
      | some x =>
        rw [hown] at hfound
        cases hfound
        exact h.agent i a name _ ha hnames hown
      | none =>
        rw [hown] at hfound
        exact Value.avoids_of_cells (Linter.member_cells hfound)

/-- The items of what does not lead to the list do not lead to it either. -/
theorem items (hv : v.Avoids L) {xs : List Value} (hi : s.items v = .ok xs) :
    ∀ x ∈ xs, x.Avoids L := by
  cases v with
  | list l =>
    cases hi
    refine h.list l fun hl => hv ?_
    rw [hl, Value.cells]
    exact List.mem_singleton_self _
  | tuple m ys =>
    cases hi
    exact hv.inner
  | text t =>
    cases hi
    intro x hx
    obtain ⟨c, _, rfl⟩ := List.mem_map.mp hx
    exact Value.avoids_of_cells rfl
  | table t =>
    cases hi
    intro x hx
    obtain ⟨e, he, rfl⟩ := List.mem_map.mp hx
    exact (h.table t e he).1
  | _ => simp [Store.items] at hi

theorem keywords {wanted : String} {entries : Table} (hk : s.keywords v wanted = .ok entries) :
    ∀ e ∈ entries, e.1.Avoids L ∧ e.2.Avoids L := by
  cases v with
  | table t =>
    cases hk
    exact h.table t
  | _ => simp [Store.keywords] at hk

theorem structuralIn {ops : List Operand} (hops : s.structuralIn (s.node n).form = .ok ops) :
    ∀ x ∈ ops.flatMap Operand.values, x.Avoids L := by
  intro x hx
  rcases structuralIn_mem hops x hx with hfield | ⟨v, hv, ⟨xs, hi, hxs⟩ | ⟨t, hk, ht⟩⟩
  · exact h.field x hfield
  · exact h.items (h.field v hv) hi x hxs
  · obtain ⟨e, he, rfl⟩ := List.mem_map.mp ht
    exact (h.keywords hk e he).2

theorem leaf_of_list : ∀ {d : Nat} {l : ListId}, l ≠ L → ∀ {w : Value},
    s.flattenList d l = .error (.leaf w) → w.Avoids L
  | 0, _, _, _, hw => by simp [flattenList] at hw
  | _ + 1, l, hl, _, hw =>
    Value.leafAll_avoids (fun _ hk _ => leaf_of_list (Value.avoids_list.mp hk)) _ (h.list l hl) hw

/-- The kind of anything does not lead to the list. -/
theorem kind {w : Value} (hw : s.getAttribute v "kind" = .ok w) : w.Avoids L := by
  rcases getAttribute_kind_cases hw with ⟨n, rfl⟩ | ⟨i, rfl⟩
  · rw [getAttribute_kind] at hw
    cases hw
    unfold Node.kind
    cases hk : (s.node n).notes.lookup "kind" with
    | none => exact Value.avoids_of_cells rfl
    | some w => exact h.lookup_note hk
  · exact h.agentAttribute (by decide) (by decide) hw

/-- The line of what has a kind does not lead to the list. -/
theorem line {w : Value} (hv : (∃ n, v = .node n) ∨ ∃ i, v = .agent i)
    (hw : s.getAttribute v "line" = .ok w) : w.Avoids L := by
  rcases hv with ⟨n, rfl⟩ | ⟨i, rfl⟩
  · rw [getAttribute_line] at hw
    rw [← orMissing_ok hw]
    exact h.position.1
  · exact h.agentAttribute (by decide) (by decide) hw

/-- What is drawn of a value leads to the list no more than the value does. -/
theorem drawn (hv : v.Avoids L) : ∀ x ∈ s.drawn v, x.Avoids L := by
  cases v with
  | list l => exact h.items hv rfl
  | table k =>
    intro x hx
    rcases List.mem_append.mp hx with hx | hx
    · obtain ⟨e, he, rfl⟩ := List.mem_map.mp hx
      exact (h.table k e he).1
    · obtain ⟨e, he, rfl⟩ := List.mem_map.mp hx
      exact (h.table k e he).2
  | node n =>
    intro x hx
    refine h.held n x ?_
    simp only [Node.held, List.mem_append]
    exact Or.inl (Or.inl (Or.inl hx))
  | agent i =>
    intro x hx
    obtain ⟨a, ha, rfl⟩ := List.mem_map.mp hx
    cases hname : a.own? "name" with
    | none => exact Value.avoids_of_cells rfl
    | some w => exact h.agent i a "name" w (by simpa using ha) (by decide) hname
  | _ => exact hv.inner

end Shuns

namespace Abreast

variable (h : s.Abreast L t)
include h

/-! ## What is there -/

theorem node (n : NodeId) : t.node n = s.node n := by
  unfold Store.node node?
  rw [h.nodes]

theorem table (k : TableId) : t.table k = s.table k := by
  unfold Store.table
  rw [h.tables]

theorem list_of_avoids {l : ListId} (hl : (Value.list l).Avoids L) : t.list l = s.list l := by
  refine h.list l fun he => hl ?_
  rw [he, Value.cells]
  exact List.mem_singleton_self _

/-- An agent of one store is alike in the other. -/
theorem agent_cases (i : AgentId) : s.agent? i = none ∧ t.agent? i = none ∨
    ∃ a lints file parent, s.agent? i = some a ∧
      t.agent? i = some { a with role := a.role.inRun lints file, parent } := by
  have hi := h.agents i
  cases hs : s.agent? i with
  | none =>
    rw [hs] at hi
    cases ht : t.agent? i with
    | none => exact Or.inl ⟨rfl, rfl⟩
    | some b =>
      rw [ht] at hi
      cases hi
  | some a =>
    rw [hs] at hi
    cases ht : t.agent? i with
    | none =>
      rw [ht] at hi
      cases hi
    | some b =>
      rw [ht] at hi
      cases hi with
      | some hab =>
        obtain ⟨lints, file, parent, rfl⟩ := hab
        exact Or.inr ⟨a, lints, file, parent, rfl, rfl⟩

theorem typeName (v : Value) : t.typeName v = s.typeName v := by
  cases v with
  | node n => rw [Store.typeName, Store.typeName, h.node]
  | agent i =>
    show t.agentClass i = s.agentClass i
    rcases h.agent_cases i with ⟨hs, ht⟩ | ⟨a, lints, file, parent, hs, ht⟩
    · rw [agentClass, agentClass, show s.agents[i]? = none from hs,
        show t.agents[i]? = none from ht]
    · rw [agentClass, agentClass, show s.agents[i]? = some a from hs,
        show t.agents[i]? = some _ from ht]
      obtain ⟨role, _, _, _⟩ := a
      cases role <;> rfl
  | _ => rfl

/-- No agent is its own name in the other store either. -/
theorem named' : t.Named := by
  intro i b v hb hv
  rcases h.agent_cases i with ⟨_, ht⟩ | ⟨a, lints, file, parent, hs, ht⟩
  · rw [ht] at hb
    cases hb
  · rw [ht] at hb
    cases hb
    have hown := Agent.Alike.own? (a := a) ⟨lints, file, parent, rfl⟩
      (by decide : "name" ≠ "_lints" ∧ "name" ≠ "_filename")
    exact h.named i a v hs (hown ▸ hv)

/-! ## Attributes -/

theorem orMissing (v : Value) (name : String) (found : Option Value) :
    t.orMissing v name found = s.orMissing v name found := by
  unfold Store.orMissing
  cases found with
  | none => rw [h.typeName]
  | some w => cases w <;> rfl

theorem callFault (v : Value) (name : String) (found : Except Fault Value) :
    t.callFault v name found = s.callFault v name found := by
  unfold Store.callFault
  cases found with
  | error fault => rfl
  | ok w => cases w <;> simp only [h.typeName]

theorem referent (r : Backref) : t.referent r = s.referent r := by
  cases r <;> simp only [Store.referent, h.typeName]

/-- A node has the same attributes, given that asking further finds the same. -/
theorem nodeAttribute {ask ask' : Value → String → Except Fault Value}
    (hask : ∀ v name, name ∉ agentNames → ask' v name = ask v name) (n : NodeId)
    (hname : name ∉ agentNames) : t.nodeAttribute ask' n name = s.nodeAttribute ask n name := by
  simp only [agentNames, List.mem_cons, List.not_mem_nil, or_false, not_or] at hname
  unfold Store.nodeAttribute Store.parent?
  simp only [h.node, h.referent, h.orMissing]
  split
  · rfl
  · rename_i v _
    unfold underscored
    split
    · rfl
    · rw [h.callFault, hask _ _ (by decide)]
  · rfl
  · rfl
  · rfl
  · exact absurd rfl hname.2.2.2
  · rfl
  · rfl

/-- So has an agent. -/
theorem agentAttribute {ask ask' : Value → String → Except Fault Value}
    (hask : ∀ v name, name ∉ agentNames → ask' v name = ask v name) (i : AgentId)
    (hname : name ∉ agentNames) : t.agentAttribute ask' i name = s.agentAttribute ask i name := by
  have hask' := fun v => hask v name hname
  simp only [agentNames, List.mem_cons, List.not_mem_nil, or_false, not_or] at hname
  rcases h.agent_cases i with ⟨hs, ht⟩ | ⟨a, lints, file, parent, hs, ht⟩
  · have hclass : t.agentClass i = s.agentClass i := h.typeName (.agent i)
    simp only [Store.agentAttribute, hs, ht, hclass]
  · have halike : a.Alike { a with role := a.role.inRun lints file, parent } :=
      ⟨lints, file, parent, rfl⟩
    have hown := halike.own? ⟨hname.1, hname.2.1⟩
    have hmember := halike.member name
    unfold Store.agentAttribute
    rw [hs, ht]
    simp only [hown, hmember, h.orMissing]
    obtain ⟨role, notes, _, _⟩ := a
    by_cases hpolicy : name = "parent_policy"
    · subst hpolicy
      cases role with
      | standIn x => simp [Role.inRun]
      | _ => simp only [Role.inRun, hask']
    · split
      · exact absurd rfl hpolicy
      · exact absurd rfl hpolicy
      · exact absurd rfl hname.2.2.2
      · simp
      · exact absurd rfl hname.2.2.1
      · split <;> simp_all

/-- Asking along a chain of settings finds the same, by induction on the length of the chain. -/
theorem attributeAlong : ∀ (chain : Nat) (v : Value) (name : String), name ∉ agentNames →
    t.attributeAlong chain v name = s.attributeAlong chain v name
  | 0, _, _, _ => rfl
  | chain + 1, v, name, hname => by
    have hask := attributeAlong chain
    have hweak : (name == "__weakref__") = false := by
      simp only [agentNames, List.mem_cons, List.not_mem_nil, or_false, not_or] at hname
      simpa using hname.2.2.2
    cases v with
    | node n => exact h.nodeAttribute hask n hname
    | agent i => exact h.agentAttribute hask i hname
    | location m l c n =>
      simp only [Store.attributeAlong, h.orMissing, List.lookup_cons, List.lookup_nil, hweak]
    | lint m source file loc description severity fixable =>
      simp only [Store.attributeAlong, h.orMissing, List.lookup_cons, List.lookup_nil, hweak]
    | missing owner lost => rfl
    | _ => simp only [Store.attributeAlong, h.orMissing]

/-- What can be read by name is the same, and so is the fault if nothing can. -/
theorem getAttribute (v : Value) (hname : name ∉ agentNames) :
    t.getAttribute v name = s.getAttribute v name := by
  unfold Store.getAttribute
  rw [h.size]
  exact h.attributeAlong _ v name hname

theorem methodFault (v : Value) (hname : name ∉ agentNames) :
    t.methodFault v name = s.methodFault v name := by
  rw [Store.methodFault, Store.methodFault, h.callFault, h.getAttribute v hname]

theorem callable (n : NodeId) (method : String) :
    t.callable (.node n) method = s.callable (.node n) method := by
  unfold Store.callable
  simp only [Store.notes, h.node, h.typeName]

/-! ## Values in print -/

/-- A value is printed alike, although the stores differ in weight. -/
theorem quoted (hv : v.Avoids L) : t.quoted v = s.quoted v := by
  refine congrArg Data.quoted (s.descent_picture.alike_all t.descent_picture h.shuns.drawn
    (fun _ _ => rfl) ?_ (h.named.ends _) (h.named'.ends _) hv)
  intro isWithin inner v hv
  cases v with
  | list l => rw [pictureStep, pictureStep, h.list_of_avoids hv]
  | table k => rw [pictureStep, pictureStep, h.table]
  | node n => rw [pictureStep, pictureStep, h.node]
  | agent i =>
    rcases h.agent_cases i with ⟨hs, ht⟩ | ⟨a, lints, file, parent, hs, ht⟩
    · simp only [pictureStep, hs, ht]
    · have hown := Agent.Alike.own? (a := a) ⟨lints, file, parent, rfl⟩
        (by decide : "name" ≠ "_lints" ∧ "name" ≠ "_filename")
      simp only [pictureStep, hs, ht, hown]
      cases a.role <;> rfl
  | _ => rfl

theorem bare (hv : v.Avoids L) : t.bare v = s.bare v := by
  cases v with
  | text x => rfl
  | _ => exact h.quoted hv

/-- What is looked at before printing is the same. -/
theorem searched (hv : v.Avoids L) : t.searched v = s.searched v := by
  cases v with
  | list l => rw [Store.searched, Store.searched, h.list_of_avoids hv]
  | table k => rw [Store.searched, Store.searched, h.table]
  | node n => rw [Store.searched, Store.searched, h.node]
  | agent i =>
    rcases h.agent_cases i with ⟨hs, ht⟩ | ⟨a, lints, file, parent, hs, ht⟩
    · simp only [Store.searched, hs, ht]
    · have hown := Agent.Alike.own? (a := a) ⟨lints, file, parent, rfl⟩
        (by decide : "name" ≠ "_lints" ∧ "name" ≠ "_filename")
      obtain ⟨role, notes, parent', backing⟩ := a
      rw [Store.searched, Store.searched, hs, ht]
      cases role with
      | settings table policy => rfl
      | _ => exact congrArg Option.toList hown
  | _ => rfl

/-- The same keeps a value from being printed. -/
theorem printFault? (hv : v.Avoids L) : t.printFault? v = s.printFault? v := by
  have hlost : t.hasMissing = s.hasMissing := by
    simp only [hasMissing, h.unbacked, h.unbacked', Bool.false_and]
  exact s.descent_printFault.alike_all t.descent_printFault h.shuns.drawn (fun _ _ => rfl)
    (fun isWithin inner {v} hv =>
      printFaultStep_of_searched hlost (h.searched hv) isWithin inner)
    (h.named.ends _) (h.named'.ends _) hv

theorem tryQuoted (hv : v.Avoids L) : t.tryQuoted v = s.tryQuoted v := by
  rw [Store.tryQuoted, Store.tryQuoted, h.printFault? hv, h.quoted hv]

theorem tryBare (hv : v.Avoids L) : t.tryBare v = s.tryBare v := by
  rw [Store.tryBare, Store.tryBare, h.printFault? hv, h.bare hv]

/-! ## Items and nests -/

theorem truthy (hv : v.Avoids L) : t.truthy v = s.truthy v := by
  cases v with
  | list l => rw [Store.truthy, Store.truthy, h.list_of_avoids hv]
  | table k => rw [Store.truthy, Store.truthy, h.table]
  | _ => rfl

theorem items (hv : v.Avoids L) : t.items v = s.items v := by
  cases v with
  | list l => rw [Store.items, Store.items, h.list_of_avoids hv]
  | table k => rw [Store.items, Store.items, h.table]
  | _ => simp only [Store.items, h.typeName]

theorem keywords (v : Value) {wanted : String} (hwanted : wanted ∉ agentNames) :
    t.keywords v wanted = s.keywords v wanted := by
  cases v with
  | table k => rw [Store.keywords, Store.keywords, h.table]
  | _ => simp only [Store.keywords, h.methodFault _ hwanted]

theorem scripts (hv : v.Avoids L) : t.scripts v = s.scripts v := by
  cases v with
  | null => rfl
  | _ => simp only [Store.scripts, h.items hv, h.node]

theorem flattenList {l : ListId} (hl : (Value.list l).Avoids L) : ∀ d,
    t.flattenList d l = s.flattenList d l
  | 0 => rfl
  | d + 1 => by
    rw [Store.flattenList, Store.flattenList, h.list_of_avoids hl]
    refine Value.flattenAllWith_congr (P := fun _ => True) (fun _ => trivial) _ (fun k hk _ => ?_)
      trivial
    exact flattenList (Value.avoids_list_of_mem (h.shuns.list l (Value.avoids_list.mp hl)) hk) d

/-- The nodes of nests are the same, and so is the leaf that is no node, as it is printed. -/
theorem flattenAll {xs : List Value} (hxs : ∀ x ∈ xs, x.Avoids L) :
    t.flattenAll xs = s.flattenAll xs := by
  have hwith : Value.flattenAllWith (t.flattenList t.nesting) xs =
      Value.flattenAllWith (s.flattenList s.nesting) xs := by
    refine Value.flattenAllWith_congr (P := fun _ => True) (fun _ => trivial) _ (fun l hl _ => ?_)
      trivial
    rw [← flattenList_rest (Nat.le_max_left t.nesting s.nesting),
      ← flattenList_rest (Nat.le_max_right t.nesting s.nesting),
      h.flattenList (Value.avoids_list_of_mem hxs hl)]
  rw [Store.flattenAll, Store.flattenAll, hwith]
  cases hr : Value.flattenAllWith (s.flattenList s.nesting) xs with
  | ok ns => rfl
  | error stray =>
    cases stray with
    | endless => rfl
    | leaf v =>
      have hv : v.Avoids L := Value.leafAll_avoids
        (fun l hl w => h.shuns.leaf_of_list (Value.avoids_list.mp hl)) xs hxs hr
      simp only [strayFault, h.tryQuoted hv, h.typeName]

/-! ## Structural children -/

/-- An expression has the same operands. -/
theorem operands {e : Expression} (he : ∀ v ∈ e.fields, v.Avoids L) :
    t.operands e = s.operands e := by
  cases e with
  | funcall name args keywords splat keywordSplat =>
    rw [Store.operands, Store.operands, h.keywords keywords (by decide)]
  | list elements separator =>
    rw [Store.operands, Store.operands, h.items (he elements (by simp [Expression.fields]))]
  | map pairs =>
    rw [Store.operands, Store.operands, h.items (he pairs (by simp [Expression.fields]))]
  | _ => rfl

theorem structuralIn (n : NodeId) :
    t.structuralIn (s.node n).form = s.structuralIn (s.node n).form := by
  have hfields : ∀ v ∈ (s.node n).form.fields, v.Avoids L := h.shuns.field
  cases hf : (s.node n).form with
  | bare => rfl
  | expression e =>
    rw [hf] at hfields
    exact h.operands hfields
  | statement ch st =>
    rw [hf] at hfields
    rw [Store.structuralIn, Store.structuralIn, h.items (hfields ch (by simp [Form.fields]))]

/-- The structural children of a node are the same. -/
theorem base (n : NodeId) : t.base n = s.base n := by
  rw [Store.base, Store.base, structural, structural, h.callable, h.node, h.structuralIn]
  cases s.callable (.node n) "structural_children" with
  | error fault => rfl
  | ok _ =>
    cases hops : s.structuralIn (s.node n).form with
    | error fault => rfl
    | ok ops => exact h.flattenAll (h.shuns.structuralIn hops)

/-! ## Locations and parents -/

theorem isExpression (n : NodeId) : t.isExpression n = s.isExpression n := by
  rw [Store.isExpression, Store.isExpression, h.node]
  refine h.truthy ?_
  unfold Node.expressionMark
  cases hw : (s.node n).notes.lookup "is_expression" with
  | none => exact Value.avoids_of_cells rfl
  | some w => exact h.shuns.lookup_note hw

theorem kindOf (v : Value) : t.kindOf v = s.kindOf v := by
  rw [Store.kindOf, Store.kindOf, h.getAttribute v (by decide)]
  cases hw : s.getAttribute v "kind" with
  | error fault => rfl
  | ok w => exact h.tryBare (h.shuns.kind hw)

/-- What has no kind is not asked for its line. -/
theorem lineOf {kind : String} (hk : s.kindOf v = .ok kind) : t.lineOf v = s.lineOf v := by
  rw [Store.lineOf, Store.lineOf, h.getAttribute v (by decide)]
  cases hw : s.getAttribute v "line" with
  | error fault => rfl
  | ok w =>
    refine h.tryBare (h.shuns.line ?_ hw)
    rw [Store.kindOf] at hk
    cases hkind : s.getAttribute v "kind" with
    | error fault =>
      rw [hkind] at hk
      cases hk
    | ok x => exact getAttribute_kind_cases hkind

/-- The fault of a second parent is the same: no value that it tells leads to the list. -/
theorem secondParent (child current : Value) :
    t.secondParent child current = s.secondParent child current := by
  unfold Store.secondParent
  rw [h.kindOf child, h.kindOf current]
  cases hchild : s.kindOf child with
  | error fault => rfl
  | ok kind =>
    rw [h.lineOf hchild]
    cases s.lineOf child with
    | error fault => rfl
    | ok line =>
      cases hcurrent : s.kindOf current with
      | error fault => rfl
      | ok parentKind => rw [h.lineOf hcurrent]

/-- The message that a child has moved is the same: no value that it tells leads to the list. -/
theorem reparented (child current parent : Value) :
    t.reparented child current parent = s.reparented child current parent := by
  unfold Store.reparented
  simp only [h.getAttribute _ (by decide : "kind" ∉ agentNames),
    h.getAttribute _ (by decide : "line" ∉ agentNames)]
  cases hkind : s.getAttribute child "kind" with
  | error fault => rfl
  | ok kind =>
    cases hline : s.getAttribute child "line" with
    | error fault => rfl
    | ok line =>
      have hline' := h.shuns.line (getAttribute_kind_cases hkind) hline
      cases hfrom : s.getAttribute current "kind" with
      | error fault => rfl
      | ok fromKind =>
        cases hto : s.getAttribute parent "kind" with
        | error fault => rfl
        | ok toKind =>
          change Except.ok (Message.reparented _ _ _ _) = .ok (.reparented _ _ _ _)
          rw [h.bare (h.shuns.kind hkind), h.bare hline', h.bare (h.shuns.kind hfrom),
            h.bare (h.shuns.kind hto)]

end Abreast

end Store

end SheetLint
