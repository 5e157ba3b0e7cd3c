import SheetLint.Document
import SheetLint.Proofs.Visits

/-!
# Runs of a linter

A run first makes the linter forget its lints: it gets a new list for them and the file, and what
only the old ones led to is let go, which may end references to parents but changes nothing else.
`perform_reset` says so for a linter whose attributes no table backs; that is what every linter is
unless its attributes were replaced.

What a single step keeps, the whole keeps: a walk what each computation of children keeps
(`fromStack_keeps`), a turn what each run keeps (`runOne_keeps`).
-/

namespace SheetLint

namespace Store

variable {s t s₀ : Store}

/-- An agent is a linter and keeps its attributes itself. -/
def IsLinter (s : Store) (i : AgentId) : Prop :=
  ∃ a l, s.agent? i = some a ∧ a.role = .linter l ∧ a.backing = none

/-- The agent with a new list of lints, in a file. -/
def restarted (a : Agent) (l : Linter) (lints : ListId) (file : Value) : Agent :=
  { a with role := .linter { l with lints := .list lints, file } }

/-- Only the references to parents change when something is let go. -/
theorem node_keepParents (s : Store) (stays : Cell → Bool) (n : NodeId) :
    (s.keepParents stays).node n =
      { s.node n with parent := keepParent stays (s.node n).parent } := by
  unfold node node? keepParents
  rw [Array.getElem?_map]
  cases s.nodes[n]? with
  | none => rfl
  | some x => cases x <;> rfl

@[simp] theorem size_keepParents (s : Store) (stays : Cell → Bool) :
    (s.keepParents stays).nodes.size = s.nodes.size := by
  simp [keepParents]

theorem Extends.keepParents (h : s₀.Extends s) (stays : Cell → Bool) :
    s₀.Extends (s.keepParents stays) := by
  refine h.of_nodes (by simp) (fun n => ?_) rfl rfl
  rw [node_keepParents]
  exact ⟨rfl, rfl⟩

/-- A new list extends a store. -/
theorem Extends.addList (h : s₀.Extends s) (items : List Value) : s₀.Extends (s.addList items) where
  nodes := h.nodes
  form := h.form
  notes := h.notes
  leaf := h.leaf
  lists := by
    simp only [Store.addList, Array.size_push]
    exact Nat.le_succ_of_le h.lists
  list l hl := by
    rw [list_addList, if_neg (Nat.ne_of_lt (Nat.lt_of_lt_of_le hl h.lists))]
    exact h.list l hl
  tables := h.tables
  table := h.table

/-- So does a new table. -/
theorem Extends.addTable (h : s₀.Extends s) (entries : Table) :
    s₀.Extends (s.addTable entries) where
  nodes := h.nodes
  form := h.form
  notes := h.notes
  leaf := h.leaf
  lists := h.lists
  list := h.list
  tables := by
    simp only [Store.addTable, Array.size_push]
    exact Nat.le_succ_of_le h.tables
  table k hk := by
    rw [table_addTable, if_neg (Nat.ne_of_lt (Nat.lt_of_lt_of_le hk h.tables))]
    exact h.table k hk

/-- Writing to a list that is new leaves alone what was there. -/
theorem Extends.setList (h : s₀.Extends s) {l : ListId} (hl : s₀.lists.size ≤ l)
    (items : List Value) : s₀.Extends (s.setList l items) where
  nodes := h.nodes
  form := h.form
  notes := h.notes
  leaf := h.leaf
  lists := by
    simp only [Store.setList, Array.size_setIfInBounds]
    exact h.lists
  list k hk := by
    have hne : ¬(l = k ∧ k < s.lists.size) := by
      rintro ⟨rfl, _⟩
      exact absurd hk (Nat.not_lt.mpr hl)
    rw [list_setList, if_neg hne]
    exact h.list k hk
  tables := h.tables
  table := h.table

/-- Agents, marks and the log play no part. -/
theorem Extends.of_rest (h : s₀.Extends s) (nodes : t.nodes = s.nodes) (lists : t.lists = s.lists)
    (tables : t.tables = s.tables) : s₀.Extends t := by
  refine h.of_nodes (Nat.le_of_eq (by rw [nodes])) (fun n => ?_) lists tables
  unfold node node?
  rw [nodes]
  exact ⟨rfl, rfl⟩

theorem Extends.setAgent (h : s₀.Extends s) (i : AgentId) (a : Agent) :
    s₀.Extends (s.setAgent i a) :=
  h.of_rest rfl rfl rfl

end Store

namespace Linter

open Edit Store

variable {s : Store} {i : AgentId}

theorem setAttribute_linter {a : Agent} {l : Linter} (ha : s.agent? i = some a)
    (hl : a.role = .linter l) (hb : a.backing = none) (lints : Value) :
    s.setAttribute (.agent i) "_lints" lints =
      .ok (s.setAgent i { a with role := .linter { l with lints } }) := by
  simp [setAttribute, setAgentAttribute, ha, hl, hb, Role.computed, specialFault?, Agent.write,
    Role.setPart?]

theorem setAttribute_file {a : Agent} {l : Linter} (ha : s.agent? i = some a)
    (hl : a.role = .linter l) (hb : a.backing = none) (file : Value) :
    s.setAttribute (.agent i) "_filename" file =
      .ok (s.setAgent i { a with role := .linter { l with file } }) := by
  simp [setAttribute, setAgentAttribute, ha, hl, hb, Role.computed, specialFault?, Agent.write,
    Role.setPart?]

theorem agent?_setAgent {a b : Agent} (ha : s.agent? i = some a) :
    (s.setAgent i b).agent? i = some b := by
  unfold agent? at ha ⊢
  obtain ⟨hi, _⟩ := Array.getElem?_eq_some_iff.mp ha
  rw [setAgent, Array.getElem?_setIfInBounds, if_pos rfl, if_pos hi]

theorem setAgent_setAgent (a b : Agent) : (s.setAgent i a).setAgent i b = s.setAgent i b := by
  simp [setAgent]

/-- The store in which a linter has started over: its lints go to a new list, and the parents that
do not stay are let go. -/
def startedOver (s : Store) (i : AgentId) (a : Agent) (l : Linter) (file : Value)
    (stays : Cell → Bool) : Store :=
  ((s.addList []).setAgent i (restarted a l s.lists.size file)).keepParents stays

/-- A linter that has started over has a new list for its lints, and the file. -/
theorem linter?_startedOver {a : Agent} {l : Linter} (ha : s.agent? i = some a) (file : Value)
    (stays : Cell → Bool) : (startedOver s i a l file stays).linter? i =
      some { l with lints := .list s.lists.size, file } := by
  have hagent : ∀ u : Store, u.agent? i = some (restarted a l s.lists.size file) →
      (u.keepParents stays).linter? i = some { l with lints := .list s.lists.size, file } := by
    intro u hu
    unfold agent? at hu
    simp [linter?, agent?, keepParents, hu, restarted]
  exact hagent _ (agent?_setAgent (s := s.addList []) ha)

theorem lintsOf_startedOver {a : Agent} {l : Linter} (ha : s.agent? i = some a) (file : Value)
    (stays : Cell → Bool) : (startedOver s i a l file stays).lintsOf i = .list s.lists.size := by
  rw [lintsOf, linter?_startedOver ha]
  rfl

/-- The list in which a linter starts over is new. -/
theorem lintsOf_startedOver_new {a : Agent} {l : Linter} (ha : s.agent? i = some a) {size : Nat}
    (hsize : size ≤ s.lists.size) (file : Value) (stays : Cell → Bool) (k : ListId)
    (hk : (startedOver s i a l file stays).lintsOf i = .list k) : size ≤ k := by
  rw [lintsOf_startedOver ha] at hk
  cases hk
  exact hsize

theorem startedOver_extends {s₀ : Store} (h : s₀.Extends s) (a : Agent) (l : Linter) (file : Value)
    (stays : Cell → Bool) : s₀.Extends (startedOver s i a l file stays) :=
  ((h.addList []).setAgent i _).keepParents stays

/-- A linter starts over with a new list, in the file, and some parents may be let go. -/
theorem perform_reset {a : Agent} {l : Linter} (ha : s.agent? i = some a)
    (hl : a.role = .linter l) (hb : a.backing = none) (file : Value) :
    ∃ stays, (reset i file).perform s = (.ok (), startedOver s i a l file stays) := by
  have ha' : (s.addList []).agent? i = some a := ha
  have hfile := setAttribute_file (agent?_setAgent (b :=
    { a with role := .linter { l with lints := .list s.nextList } }) ha') rfl hb file
  simp only [reset, perform_bind, perform_read, perform_newList, perform_change,
    setAttribute_linter ha' hl hb]
  rw [hfile]
  simp only [setAgent_setAgent, perform_modify]
  exact ⟨_, rfl⟩

/-- A run visits the root from where the linter has started over, and gives what was recorded. -/
theorem perform_run {u : Store} {file : Value} (h : (reset i file).perform s = (.ok (), u))
    (root : Value) : (run i root file).perform s =
      match (visitTo i (depth u) root).perform u with
      | (.ok _, t) => (t.items (t.lintsOf i), t)
      | (.error fault, t) => (.error fault, t) := by
  rw [run, perform_bind_ok h, visit, perform_bind, perform_bind_ok (perform_get u)]
  cases (visitTo i (depth u) root).perform u with
  | mk r t =>
    cases r with
    | error fault => rfl
    | ok _ => exact perform_tryRead _ t

/-- Giving the lints changes nothing any more. -/
theorem store_run {u : Store} {file : Value} (h : (reset i file).perform s = (.ok (), u))
    (root : Value) :
    ((run i root file).perform s).2 = ((visitTo i (depth u) root).perform u).2 := by
  rw [perform_run h]
  cases (visitTo i (depth u) root).perform u with
  | mk r t => cases r <;> rfl

end Linter

/-! ## Walks and turns -/

namespace Walk

variable {P : Store → Prop} {Q : NodeId → Prop} {policy : ParentPolicy}

/-- However a walk ends, of its store holds what computing children keeps, as long as that is asked
for nodes of which `Q` holds: those on the stack at first, and children of such nodes after that. -/
theorem fromStack_keeps
    (hchildren : ∀ {s n}, P s → Q n → P ((Edit.children n policy).perform s).2)
    (hchild : ∀ {s t n cs}, P s → Q n → (Edit.children n policy).perform s = (.ok cs, t) →
      ∀ c ∈ cs, Q c) :
    ∀ (limit : Nat) (stack : List NodeId) {s : Store}, P s → (∀ n ∈ stack, Q n) →
      P (fromStack policy limit stack s).store
  | 0, _, _, hs, _ => hs
  | _ + 1, [], _, hs, _ => by simpa [fromStack] using hs
  | 1, _ :: _, _, hs, _ => hs
  | k + 2, n :: rest, s, hs, hstack => by
    have hn := hstack n (List.mem_cons_self ..)
    have ht := hchildren hs hn
    rw [fromStack]
    cases hcs : (Edit.children n policy).perform s with
    | mk r t =>
      rw [hcs] at ht
      cases r with
      | error fault => exact ht
      | ok cs =>
        refine fromStack_keeps hchildren hchild (k + 1) (cs ++ rest) ht fun m hm => ?_
        rcases List.mem_append.mp hm with hm | hm
        · exact hchild hs hn hcs m hm
        · exact hstack m (List.mem_cons_of_mem _ hm)

/-- From a value that is no node there is nothing to compute. -/
theorem start_keeps (hchildren : ∀ n, Edit.Keeps P (Edit.children n policy)) (limit : Nat)
    (root : Value) {s : Store} (hs : P s) : P (start policy limit root s).store := by
  cases root with
  | node n =>
    exact fromStack_keeps (Q := fun _ => True) (fun hs _ => hchildren _ _ hs)
      (fun _ _ _ _ _ => trivial) limit [n] hs fun _ _ => trivial
  | _ =>
    match limit with
    | 0 => exact hs
    | 1 => exact hs
    | _ + 2 => exact hs

end Walk

/-- Only a linter does anything in its turn: a stand-in hands out what it has, and what is neither
is refused. -/
theorem Document.runOne_keeps {P : Store → Prop} {root file : Value}
    (hrun : ∀ {s i a l}, s.agent? i = some a → a.role = .linter l → P s →
      P ((Linter.run i root file).perform s).2) (linter : Value) :
    Edit.Keeps P (runOne linter root file) := by
  intro s hs
  rw [runOne, Edit.perform_bind_ok (Edit.perform_get s), Edit.perform_bind, Edit.perform_tryRead]
  cases s.checkMethod linter "run" with
  | error fault => exact hs
  | ok _ =>
    cases linter with
    | agent i =>
      simp only
      split
      · rename_i l _ _ _ ha
        exact hrun ha rfl hs
      · rw [Edit.perform_tryRead]
        exact hs
      · exact hs
    | _ => exact hs

end SheetLint
