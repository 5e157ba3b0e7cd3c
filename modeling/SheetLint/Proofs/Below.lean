import Mathlib.Logic.Relation
import SheetLint.Proofs.Adopt

/-!
# What is below a node

`Store.Leads` is the relation that walks and linters follow: a node lists another as a child.
`Store.Below` is its closure, and `Store.AcyclicFrom` says that nothing below a node is below
itself. A store has finitely many nodes, so without a cycle there is a bound on how deep anything
below a node is (`endsWithin_of_acyclic`); variables that are made on the way have nothing below
them.

All of this is a matter of the table of children, which later stores share: `child_leads`.
-/

namespace SheetLint

open Relation

namespace Store

variable {s t : Store} {n c root : NodeId} {policy : ParentPolicy} {cs : List NodeId}

/-- A node lists another one as a child. -/
def Leads (s : Store) (n c : NodeId) : Prop :=
  ∃ ks, s.kids n = some ks ∧ .node c ∈ ks

/-- A node is `root` or somewhere below it. -/
def Below (s : Store) (root n : NodeId) : Prop :=
  ReflTransGen s.Leads root n

/-- Nothing that can be reached from a node is below itself. -/
def AcyclicFrom (s : Store) (root : NodeId) : Prop :=
  ∀ n, s.Below root n → ¬TransGen s.Leads n n

/-- Every way down from a node ends after less than `depth` steps. -/
def EndsWithin (s : Store) : (depth : Nat) → NodeId → Prop
  | 0, _ => False
  | d + 1, n => ∀ c, s.Leads n c → s.EndsWithin d c

theorem Leads.lt_size (hs : s.Closed) (h : s.Leads n c) : c < s.nodes.size := by
  obtain ⟨ks, hks, hc⟩ := h
  exact kids_held hs hks _ hc

/-- Only what is there lists anything. -/
theorem Leads.self_lt_size (h : s.Leads n c) : n < s.nodes.size := by
  obtain ⟨ks, hks, hc⟩ := h
  rcases Nat.lt_or_ge n s.nodes.size with hn | hn
  · exact hn
  · rw [kids_new (.refl s) hn] at hks
    cases hks
    exact absurd hc (by simp)

/-- What is below something that is there is there. -/
theorem Below.lt_size (hs : s.Closed) (hroot : root < s.nodes.size) (h : s.Below root n) :
    n < s.nodes.size := by
  rcases ReflTransGen.cases_tail h with rfl | ⟨m, _, hm⟩
  · exact hroot
  · exact hm.lt_size hs

/-- A way down that repeats nothing is no longer than there are nodes. -/
theorem endsWithin_of_path (hs : s.Closed) (hacyclic : s.AcyclicFrom root) :
    ∀ (d : Nat) {n : NodeId} (path : List NodeId), s.Below root n → path.Nodup →
      (∀ p ∈ path, p < s.nodes.size ∧ TransGen s.Leads p n) → s.nodes.size < d + path.length →
      s.EndsWithin d n
  | 0, n, path, _, hnodup, hpath, hlong => by
    have hsub : path ⊆ List.range s.nodes.size := fun p hp => List.mem_range.mpr (hpath p hp).1
    have hle := hnodup.length_le_of_subset hsub
    rw [List.length_range] at hle
    omega
  | d + 1, n, path, hn, hnodup, hpath, hlong => by
    intro c hc
    have hfresh : n ∉ path := fun hmem => hacyclic n hn (hpath n hmem).2
    refine endsWithin_of_path hs hacyclic d (n :: path) (hn.tail hc)
      (List.nodup_cons.mpr ⟨hfresh, hnodup⟩) ?_ (by simp only [List.length_cons]; omega)
    intro p hp
    rcases List.mem_cons.mp hp with rfl | hp
    · exact ⟨hc.self_lt_size, .single hc⟩
    · exact ⟨(hpath p hp).1, (hpath p hp).2.tail hc⟩

/-- Without a cycle every way down ends, after no more steps than there are nodes. -/
theorem endsWithin_of_acyclic (hs : s.Closed) (hacyclic : s.AcyclicFrom root) :
    s.EndsWithin (s.nodes.size + 1) root :=
  endsWithin_of_path hs hacyclic _ [] .refl List.nodup_nil (fun p hp => absurd hp (by simp))
    (by simp)

/-- The children that a node lists and that are there. -/
def offspring (s : Store) (n : NodeId) : List NodeId :=
  ((s.kids n).getD []).filterMap fun k =>
    match k with
    | .node c => some c
    | .variable _ => none

/-- The children that a node leads to are its offspring. -/
theorem leads_iff_offspring : s.Leads n c ↔ c ∈ s.offspring n := by
  unfold Leads offspring
  cases s.kids n with
  | none => simp
  | some ks =>
    simp only [Option.some.injEq, exists_eq_left', Option.getD_some, List.mem_filterMap]
    constructor
    · exact fun h => ⟨_, h, rfl⟩
    · rintro ⟨k, hk, hc⟩
      cases k with
      | node m =>
        cases hc
        exact hk
      | _ => simp at hc

/-- There is no cycle where every child comes before its container in some order. -/
theorem acyclicFrom_of_rank (rank : NodeId → Nat)
    (h : ∀ n < s.nodes.size, ∀ c ∈ s.offspring n, rank c < rank n) (root : NodeId) :
    s.AcyclicFrom root := by
  intro n _ hcycle
  have hlt : ∀ {m}, TransGen s.Leads n m → rank m < rank n := by
    intro m hm
    induction hm with
    | single hc => exact h n hc.self_lt_size _ (leads_iff_offspring.mp hc)
    | tail _ hc ih => exact Nat.lt_trans (h _ hc.self_lt_size _ (leads_iff_offspring.mp hc)) ih
  exact Nat.lt_irrefl _ (hlt hcycle)

/-! ## Later stores -/

theorem addVariable_extends {s₀ : Store} (h : s₀.Extends s) (self : NodeId) (name : Value) :
    s₀.Extends (s.addVariable self name) :=
  h.addNode ⟨Or.inr ⟨name, rfl⟩, rfl⟩

/-- The store after the computation of children still has all that was there. -/
theorem children_extends {s₀ : Store} (h : s₀.Extends s) (n : NodeId) (policy : ParentPolicy) :
    s₀.Extends ((Edit.children n policy).perform s).2 :=
  Edit.children_keeps s₀.Extends (fun _ => True) (fun _ c h _ => h.fill c n)
    (fun _ name h => addVariable_extends h n name) (fun _ c h _ => h.setParent c _)
    (fun _ m h => h.note m) h (fun _ _ => trivial) policy

theorem extends_of_children {s₀ : Store} {r : Except Fault (List NodeId)} (h : s₀.Extends s)
    (hcs : (Edit.children n policy).perform s = (r, t)) : s₀.Extends t := by
  have ht := children_extends h n policy
  rwa [hcs] at ht

/-- Children are computed without the agents, and take no marks. -/
theorem agents_marks_children (s : Store) (n : NodeId) (policy : ParentPolicy) :
    ((Edit.children n policy).perform s).2.agents = s.agents ∧
      ((Edit.children n policy).perform s).2.marks = s.marks := by
  refine Edit.children_keeps (fun t => t.agents = s.agents ∧ t.marks = s.marks) (fun _ => True)
    (fun t c h _ => ?_) (fun _ _ h => h) (fun _ _ h _ => h) (fun _ _ h => h) ⟨rfl, rfl⟩
    (fun _ _ => trivial) policy
  rw [Store.fill]
  split <;> exact h

/-- A child that is listed in a later store was there all along. -/
theorem kid_lt_size {s₀ : Store} (hs : s₀.Closed) (h : s₀.Extends s) {ks : List Kid}
    (hks : s.kids n = some ks) (hc : .node c ∈ ks) : c < s₀.nodes.size := by
  rcases Nat.lt_or_ge n s₀.nodes.size with hn | hn
  · rw [kids_extends hs h hn] at hks
    exact kids_held hs hks _ hc
  · rw [kids_new h hn] at hks
    cases hks
    exact absurd hc (by simp)

/-- A child that is computed in a later store was listed all along, or is new. -/
theorem child_leads {s₀ : Store} (hs : s₀.Closed) (h : s₀.Extends s)
    (hcs : (Edit.children n policy).perform s = (.ok cs, t)) (hc : c ∈ cs) :
    s₀.Leads n c ∨ s₀.nodes.size ≤ c := by
  obtain ⟨ks, _, hks, rfl, _⟩ := Edit.children_ok hcs
  rcases Kid.mem_places hc with hk | hnew
  · rcases Nat.lt_or_ge n s₀.nodes.size with hn | hn
    · rw [kids_extends hs h hn] at hks
      exact Or.inl ⟨ks, hks, hk⟩
    · rw [kids_new h hn] at hks
      cases hks
      exact absurd hk (by simp)
  · exact Or.inr (Nat.le_trans h.nodes hnew.1)

/-- A child of what is below a node, or new, is so too. -/
theorem below_child {s₀ : Store} (hs : s₀.Closed) (h : s₀.Extends s)
    (hn : s₀.Below root n ∨ s₀.nodes.size ≤ n)
    (hcs : (Edit.children n policy).perform s = (.ok cs, t)) (hc : c ∈ cs) :
    s₀.Below root c ∨ s₀.nodes.size ≤ c := by
  rcases child_leads hs h hcs hc with hleads | hnew
  · rcases hn with hbelow | hn
    · exact Or.inl (hbelow.tail hleads)
    · exact absurd hleads.self_lt_size (Nat.not_lt.mpr hn)
  · exact Or.inr hnew

/-- A stack of what is below a node, or new, stays one when its first entry is replaced by its
children. -/
theorem below_stack {s₀ : Store} {rest : List NodeId} (hs : s₀.Closed) (h : s₀.Extends s)
    (hstack : ∀ m ∈ n :: rest, s₀.Below root m ∨ s₀.nodes.size ≤ m)
    (hcs : (Edit.children n policy).perform s = (.ok cs, t)) :
    ∀ m ∈ cs ++ rest, s₀.Below root m ∨ s₀.nodes.size ≤ m := by
  intro m hm
  rcases List.mem_append.mp hm with hm | hm
  · exact below_child hs h (hstack n (List.mem_cons_self ..)) hcs hm
  · exact hstack m (List.mem_cons_of_mem _ hm)

/-- What is new has no children. -/
theorem children_of_new {s₀ : Store} (h : s₀.Extends s) (hn : s₀.nodes.size ≤ n)
    (hcs : (Edit.children n policy).perform s = (.ok cs, t)) : cs = [] := by
  obtain ⟨ks, _, hks, rfl, _⟩ := Edit.children_ok hcs
  rw [kids_new h hn] at hks
  cases hks
  rfl

end Store

end SheetLint
