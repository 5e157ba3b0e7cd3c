import Mathlib.Data.Set.Card
import SheetLint.Proofs.Attaching

/-!
# How often a walk visits a node

A walk keeps no record of what it has visited: it comes to a node once for each way down to it. A
way (`Store.Way`) says at each node which of the children that are listed there to go to, by their
number, so that a child that is listed twice is on two ways. The account that holds all along a
tour is that the visits of a node so far and the ways to it from what is left on the stack are
together as many as the ways to it from the stack at first (`Tour.count_visits`).

So a walk that is done has counted the ways. It cannot be done where there is a cycle: whatever a
tour leaves nothing of has an end to all ways down (`Tour.acc`). Nor can it fail under the
refreshing policy, where all that is referred to is nodes (`Referring`). It goes on for ever.
-/

namespace SheetLint

open Relation

namespace Store

variable {s s₀ t u : Store} {root m n c : NodeId} {ks : List Kid} {policy : ParentPolicy}

/-! ## Ways down -/

/-- A way from a node to one below it: the numbers of the children to go to, each among the children
that are listed where one is. -/
inductive Way (s : Store) : NodeId → List Nat → NodeId → Prop where
  | here {n : NodeId} : Way s n [] n
  | down {m c n : NodeId} {ks : List Kid} {i : Nat} {is : List Nat} :
      s.kids m = some ks → ks[i]? = some (.node c) → Way s c is n → Way s m (i :: is) n

/-- The ways from a node to another. -/
def ways (s : Store) (m n : NodeId) : Set (List Nat) := {is | s.Way m is n}

/-- The ways to a node that begin with one of these children, of which the first has the
number `i`. -/
def waysVia (s : Store) (n : NodeId) (i : Nat) (ks : List Kid) : Set (List Nat) :=
  {is | ∃ j c js, ks[j]? = some (.node c) ∧ s.Way c js n ∧ is = (i + j) :: js}

/-- How many ways lead to a node from a child that is listed. Variables that are made lead
nowhere. -/
noncomputable def waysFrom (s : Store) (n : NodeId) : Kid → ℕ∞
  | .node c => (s.ways c n).encard
  | .variable _ => 0

theorem waysVia_nil (s : Store) (n : NodeId) (i : Nat) : s.waysVia n i [] = ∅ := by
  ext is
  simp [waysVia]

/-- A listed child opens the ways that begin with its place. -/
theorem waysVia_node (s : Store) (n : NodeId) (i : Nat) (c : NodeId) (ks : List Kid) :
    s.waysVia n i (.node c :: ks) = List.cons i '' s.ways c n ∪ s.waysVia n (i + 1) ks := by
  ext is
  constructor
  · rintro ⟨j, d, js, hj, hway, rfl⟩
    cases j with
    | zero =>
      cases hj
      exact Or.inl ⟨js, hway, rfl⟩
    | succ j => exact Or.inr ⟨j, d, js, hj, hway, by rw [Nat.add_right_comm, Nat.add_assoc]⟩
  · rintro (⟨js, hway, rfl⟩ | ⟨j, d, js, hj, hway, rfl⟩)
    · exact ⟨0, c, js, rfl, hway, rfl⟩
    · exact ⟨j + 1, d, js, hj, hway, by rw [Nat.add_right_comm, Nat.add_assoc]⟩

/-- A variable that is yet to be made opens none. -/
theorem waysVia_variable (s : Store) (n : NodeId) (i : Nat) (name : Value) (ks : List Kid) :
    s.waysVia n i (.variable name :: ks) = s.waysVia n (i + 1) ks := by
  ext is
  constructor
  · rintro ⟨j, d, js, hj, hway, rfl⟩
    cases j with
    | zero => cases hj
    | succ j => exact ⟨j, d, js, hj, hway, by rw [Nat.add_right_comm, Nat.add_assoc]⟩
  · rintro ⟨j, d, js, hj, hway, rfl⟩
    exact ⟨j + 1, d, js, hj, hway, by rw [Nat.add_right_comm, Nat.add_assoc]⟩

/-- Ways that begin with different children are different. -/
theorem encard_waysVia (s : Store) (n : NodeId) : ∀ (ks : List Kid) (i : Nat),
    (s.waysVia n i ks).encard = (ks.map (s.waysFrom n)).sum := by
  intro ks
  induction ks with
  | nil =>
    intro i
    simp [waysVia_nil]
  | cons k ks ih =>
    intro i
    match k with
    | .variable name => simp [waysVia_variable, waysFrom, ih]
    | .node c =>
      have hapart : Disjoint (List.cons i '' s.ways c n) (s.waysVia n (i + 1) ks) := by
        rw [Set.disjoint_left]
        rintro _ ⟨js, _, rfl⟩ ⟨j, d, js', _, _, heq⟩
        have hfirst := (List.cons.inj heq).1
        omega
      rw [waysVia_node, Set.encard_union_eq hapart, List.cons_injective.encard_image, ih,
        List.map_cons, List.sum_cons]
      rfl

/-- A way stays where it is or begins with one of the children that are listed. -/
theorem ways_eq (hks : s.kids m = some ks) :
    s.ways m n = (if m = n then {[]} else ∅) ∪ s.waysVia n 0 ks := by
  ext is
  constructor
  · intro hway
    cases hway with
    | here => simp
    | @down _ c _ ks' i js hks' hc hway =>
      rw [hks] at hks'
      cases hks'
      exact Or.inr ⟨i, c, js, hc, hway, by rw [Nat.zero_add]⟩
  · rintro (hhere | ⟨j, c, js, hj, hway, rfl⟩)
    · by_cases hmn : m = n
      · rw [if_pos hmn] at hhere
        cases hhere
        rw [hmn]
        exact .here
      · rw [if_neg hmn] at hhere
        exact absurd hhere (Set.notMem_empty _)
    · rw [Nat.zero_add]
      exact .down hks hj hway

theorem encard_ways (hks : s.kids m = some ks) (n : NodeId) :
    (s.ways m n).encard = (if m = n then 1 else 0) + (ks.map (s.waysFrom n)).sum := by
  have hapart : Disjoint (if m = n then {[]} else ∅ : Set (List Nat)) (s.waysVia n 0 ks) := by
    rw [Set.disjoint_left]
    rintro is hhere ⟨j, c, js, _, _, rfl⟩
    by_cases hmn : m = n <;> simp [hmn] at hhere
  rw [ways_eq hks, Set.encard_union_eq hapart, encard_waysVia]
  by_cases hmn : m = n <;> simp [hmn]

/-- From what is not there no way leads to what is. -/
theorem encard_ways_new (hn : n < s.nodes.size) (hm : s.nodes.size ≤ m) :
    (s.ways m n).encard = 0 := by
  have hne : m ≠ n := Nat.ne_of_gt (Nat.lt_of_lt_of_le hn hm)
  rw [encard_ways (kids_new (.refl s) hm) n, if_neg hne]
  rfl

/-- The children that are given have as many ways as those that are listed. -/
theorem sum_places (hn : n < s₀.nodes.size) : ∀ (ks : List Kid) (next : NodeId),
    s₀.nodes.size ≤ next →
    ((Kid.places next ks).map fun c => (s₀.ways c n).encard).sum =
      (ks.map (s₀.waysFrom n)).sum := by
  intro ks
  induction ks with
  | nil =>
    intro next _
    rfl
  | cons k ks ih =>
    intro next hnext
    match k with
    | .node c =>
      rw [Kid.places, List.map_cons, List.sum_cons, ih next hnext, List.map_cons, List.sum_cons]
      rfl
    | .variable name =>
      rw [Kid.places, List.map_cons, List.sum_cons, ih (next + 1) (by omega), List.map_cons,
        List.sum_cons, encard_ways_new hn hnext]
      rfl

/-- What is computed in a later store was listed all along, and new nodes list nothing. -/
theorem kids_of_later (hs₀ : s₀.Closed) (hs : s₀.Extends s) (hks : s.kids m = some ks) :
    s₀.kids m = some ks := by
  by_cases hm : m < s₀.nodes.size
  · rwa [kids_extends hs₀ hs hm] at hks
  · have hnew := Nat.le_of_not_lt hm
    rw [kids_new hs hnew] at hks
    rw [kids_new (.refl s₀) hnew, hks]

/-! ## Ways that end -/

/-- Below a node from which all ways down end there is no cycle. -/
theorem acyclicFrom_of_acc (h : Acc (fun c n => s.Leads n c) root) : s.AcyclicFrom root := by
  have hbelow : ∀ n, s.Below root n → Acc (fun c n => s.Leads n c) n := by
    intro n hn
    induction hn with
    | refl => exact h
    | tail _ hleads ih => exact ih.inv hleads
  intro n hn
  have hacc := hbelow n hn
  clear hn
  induction hacc with
  | intro n _ ih =>
    -- a cycle through a node goes through one of its children as well
    intro hcycle
    obtain ⟨c, hleads, hback⟩ := TransGen.head'_iff.mp hcycle
    exact ih c hleads (.tail' hback hleads)

/-! ## What is referred to -/

/-- Whether a node may be given as a child: one that something below the root lists, or a new
one. -/
def IsGiven (s : Store) (root c : NodeId) : Prop :=
  (∃ n, s.Contains root n c) ∨ s.nodes.size ≤ c

/-- A store in the course of a walk in which whatever may be given refers to a node, or to
nothing. -/
structure Referring (s₀ : Store) (root : NodeId) (s : Store) : Prop where
  intact : s₀.Intact s
  nodal : ∀ c, s₀.IsGiven root c →
    s.parent? c = .ok none ∨ ∃ m, s.parent? c = .ok (some (.node m))

/-- What is given where children are computed. -/
theorem isGiven_of_kid (hs₀ : s₀.Closed) (hs : s₀.Extends s)
    (hn : s₀.Below root n ∨ s₀.nodes.size ≤ n) (hks : s.kids n = some ks)
    (hc : c ∈ Kid.places s.nodes.size ks) : s₀.IsGiven root c := by
  have hks₀ := kids_of_later hs₀ hs hks
  rcases Kid.mem_places hc with hlisted | hnew
  · rcases hn with hbelow | hn
    · exact Or.inl ⟨n, hbelow, ks, hks₀, hlisted⟩
    · rw [kids_new (.refl s₀) hn] at hks₀
      cases hks₀
      exact absurd hlisted (by simp)
  · exact Or.inr (Nat.le_trans hs.nodes hnew.1)

namespace Referring

/-- Nothing but the references matters. -/
theorem of_parent (h : s₀.Referring root s) (ht : s₀.Intact t)
    (hparent : ∀ c, (t.node c).parent = (s.node c).parent) : s₀.Referring root t where
  intact := ht
  nodal c hc := by
    refine (h.nodal c hc).imp (parent?_congr (hparent c)).mpr ?_
    rintro ⟨m, hm⟩
    exact ⟨m, (parent?_congr (hparent c)).mpr hm⟩

theorem fill (h : s₀.Referring root s) (c self : NodeId) : s₀.Referring root (s.fill c self) :=
  h.of_parent (h.intact.fill c self) (parent_fill s c self)

theorem note (h : s₀.Referring root s) (m : Message) : s₀.Referring root (s.note m) :=
  h.of_parent (h.intact.note m) fun _ => rfl

/-- A new variable refers to nothing. -/
theorem addVariable (h : s₀.Referring root s) (self : NodeId) (name : Value) :
    s₀.Referring root (s.addVariable self name) where
  intact := h.intact.addVariable self name
  nodal c hc := by
    by_cases hnew : c = s.nodes.size
    · -- the variable itself, which is not attached yet
      refine Or.inl (parent?_eq_none.mpr (Or.inl ?_))
      rw [Store.addVariable, node_addNode, if_pos hnew]
    · have hsame : ((s.addVariable self name).node c).parent = (s.node c).parent := by
        rw [Store.addVariable, node_addNode, if_neg hnew]
      refine (h.nodal c hc).imp (parent?_congr hsame).mpr ?_
      rintro ⟨m, hm⟩
      exact ⟨m, (parent?_congr hsame).mpr hm⟩

/-- Whatever is attached to a node refers to a node. -/
theorem setParent (h : s₀.Referring root s) (c self : NodeId) :
    s₀.Referring root (s.setParent (.node c) (.node self)) where
  intact := h.intact.setParent c _
  nodal d hd := by
    by_cases hdc : c = d ∧ d < s.nodes.size
    · refine Or.inr ⟨self, parent?_eq_some.mpr ?_⟩
      rw [node_setParent, if_pos hdc]
    · have hsame : ((s.setParent (.node c) (.node self)).node d).parent = (s.node d).parent := by
        rw [node_setParent, if_neg hdc]
      refine (h.nodal d hd).imp (parent?_congr hsame).mpr ?_
      rintro ⟨m, hm⟩
      exact ⟨m, (parent?_congr hsame).mpr hm⟩

/-- Computing children gives nothing a parent that is no node, whatever comes of it. -/
theorem children (h : s₀.Referring root s) (n : NodeId) (policy : ParentPolicy) :
    s₀.Referring root ((Edit.children n policy).perform s).2 := by
  refine Edit.children_keeps (s₀.Referring root) (fun _ => True) ?_ ?_ ?_ ?_ h
    (fun _ _ => trivial) policy
  · intro u c hu _
    exact hu.fill c n
  · intro u name hu
    exact hu.addVariable n name
  · intro u c hu _
    exact hu.setParent c n
  · intro u m hu
    exact hu.note m

/-- What is given can be taken over from wherever it is. -/
theorem attach_refresh (h : s₀.Referring root s) (hc : s₀.IsGiven root c) {fault : Fault} :
    s.attach (.node c) (.node n) .refresh ≠ .error fault := by
  intro ha
  rcases h.nodal c hc with hnone | ⟨m, hsome⟩
  · rw [attach_of_none hnone] at ha
    cases ha
  · rcases Store.attach_fails ha with herror | ⟨current, hcurrent, _, hstrict | ⟨_, herror⟩⟩
    · rw [hsome] at herror
      cases herror
    · exact absurd hstrict.1 (by simp)
    · rw [hsome] at hcurrent
      cases hcurrent
      have hok := s.reparented_node (h.intact.present c).1 m n
      rw [hok] at herror
      cases herror

/-- So the refreshing policy never fails. -/
theorem children_refresh (hs₀ : s₀.WellFormed root) (h : s₀.Referring root s)
    (hn : s₀.Below root n ∨ s₀.nodes.size ≤ n) {fault : Fault} :
    (Edit.children n .refresh).perform s ≠ (.error fault, t) := by
  intro hfail
  obtain ⟨ks, hks⟩ := hs₀.exists_kids h.intact.extends_ hn
  obtain ⟨c, hc, u, hu, ha⟩ := Edit.children_fails (s₀.Referring root) (s₀.IsGiven root)
    (fun _ c hu _ => hu.fill c n) (fun _ name hu => hu.addVariable n name)
    (fun _ _ c hu _ ha => Edit.attach_keeps (fun _ hu => hu.setParent c n) (fun _ m hu => hu.note m)
      hu ha)
    h hks (h.intact.present n)
    (fun c hc => isGiven_of_kid hs₀.closed h.intact.extends_ hn hks hc) hfail
  exact hu.attach_refresh (isGiven_of_kid hs₀.closed h.intact.extends_ hn hks hc) ha

end Referring

end Store

namespace Walk

variable {s s₀ t u : Store} {root n : NodeId} {policy : ParentPolicy} {stack left : List NodeId}
  {visits : List (Value × Store)}

namespace Tour

/-- What was visited so far and what is left to be visited is all there is to be visited. -/
theorem count_visits (hs₀ : s₀.Closed) (hn : n < s₀.nodes.size)
    (h : Tour policy stack s visits left u) (hs : s₀.Extends s) :
    ((visits.countP fun e => e.1.node? == some n : Nat) : ℕ∞) +
        (left.map fun m => (s₀.ways m n).encard).sum =
      (stack.map fun m => (s₀.ways m n).encard).sum := by
  induction h with
  | rest => simp
  | @step m rest cs left s t u visits hcs _ ih =>
    have ht := Store.extends_of_children hs hcs
    obtain ⟨ks, _, hks, rfl, _⟩ := Edit.children_ok hcs
    have hgiven := Store.sum_places hn ks s.nodes.size hs.nodes
    have hlater := ih ht
    rw [List.map_append, List.sum_append, hgiven] at hlater
    rw [List.map_cons, List.sum_cons, Store.encard_ways (Store.kids_of_later hs₀ hs hks), add_assoc,
      ← hlater, List.countP_cons, ← add_assoc]
    by_cases hmn : m = n
    · simp [hmn, Value.node?, add_comm]
    · simp [hmn, Value.node?]

/-- A tour that leaves nothing behind has come to the end of all ways down. -/
theorem acc (hs₀ : s₀.Closed) (h : Tour policy stack s visits left u) (hs : s₀.Extends s)
    (hleft : left = []) : ∀ m ∈ stack, Acc (fun c n => s₀.Leads n c) m := by
  induction h with
  | rest =>
    intro m hm
    rw [hleft] at hm
    exact absurd hm (by simp)
  | @step n rest cs left s t u visits hcs _ ih =>
    have hlater := ih (Store.extends_of_children hs hcs) hleft
    intro m hm
    rcases List.mem_cons.mp hm with rfl | hrest
    · refine .intro m fun c hleads => hlater c (List.mem_append_left _ ?_)
      exact (Store.mem_children_iff hs₀ hs hcs (hleads.lt_size hs₀)).mpr hleads
    · exact hlater m (List.mem_append_right _ hrest)

theorem referring (h : Tour policy stack s visits left u) (hs : s₀.Referring root s) :
    s₀.Referring root u := by
  refine h.keeps (P := fun _ _ s => s₀.Referring root s) ?_ [] hs
  intro before n rest s cs t hs hcs
  have ht := hs.children n policy
  rwa [hcs] at ht

end Tour

/-- A walk that is left because of its limit made as many visits. -/
theorem length_visits_of_limit : ∀ {limit : Nat} {stack : List NodeId} {s : Store},
    (fromStack policy limit stack s).finish = .limit →
      (fromStack policy limit stack s).visits.length = limit := by
  intro limit stack s h
  induction limit using Nat.strongRecOn generalizing stack s with
  | ind limit ih =>
    match limit, stack with
    | 0, _ => rfl
    | _ + 1, [] => simp [fromStack] at h
    | 1, n :: rest => rfl
    | k + 2, n :: rest =>
      rw [fromStack] at h ⊢
      cases hcs : (Edit.children n policy).perform s with
      | mk r t =>
        rw [hcs] at h
        cases r with
        | error fault => simp at h
        | ok cs =>
          have hlater : (fromStack policy (k + 1) (cs ++ rest) t).visits.length = k + 1 :=
            ih (k + 1) (by omega) h
          simp [visiting, hlater]

/-- A refreshing walk does not fail where all that is referred to is nodes, cycles or not. -/
theorem refresh_goes_on (hs : s.WellFormed root) (href : s.Referring root s) (limit : Nat)
    (fault : Fault) : (fromStack .refresh limit [root] s).finish ≠ .failed fault := by
  intro hfault
  obtain ⟨before, n, rest, u, t, htour, hfail⟩ := tour_of_failed hfault
  have hstack := (htour.met_below hs.closed (.refl s) (Tour.mem_root s root)).2
  exact (htour.referring href).children_refresh hs (hstack n (List.mem_cons_self ..)) hfail

end Walk

/-- A refreshing walk ends exactly where there is no cycle below its root, whatever is shared there
and wherever the nodes are attached. If it ends, it has visited each node as often as there are ways
to it from the root. If there is a cycle, it never ends, however many visits are asked for. -/
theorem refresh_walk_ways {s : Store} {root : NodeId} (hs : s.WellFormed root)
    (hnodes : ∀ n c, s.Contains root n c →
      s.parent? c = .ok none ∨ ∃ m, s.parent? c = .ok (some (.node m))) :
    (s.AcyclicFrom root → ∃ w : Walk,
      (∀ limit, Walk.start .refresh limit (.node root) s = w.cut s limit) ∧ w.finish = .done ∧
      ∀ n < s.nodes.size,
        (s.ways root n).encard = (w.visits.countP fun e => e.1.node? == some n : Nat)) ∧
    (¬s.AcyclicFrom root → ∀ limit,
      (Walk.start .refresh limit (.node root) s).visits.length = limit) := by
  have href : s.Referring root s := by
    refine ⟨.refl hs, fun c hc => ?_⟩
    rcases hc with ⟨n, hcontains⟩ | hnew
    · exact hnodes n c hcontains
    · refine Or.inl (Store.parent?_eq_none.mpr (Or.inl ?_))
      rw [Store.node_of_size_le hnew]
  constructor
  · intro hacyclic
    obtain ⟨w, hend, hcut⟩ := Walk.exists_whole .refresh hs.closed hacyclic
    have hdone : w.finish = .done := by
      cases hf : w.finish with
      | done => rfl
      | limit => exact absurd hf hend
      | failed fault =>
        rw [← Walk.fromStack_whole hcut] at hf
        exact absurd hf (Walk.refresh_goes_on hs href _ fault)
    refine ⟨w, hcut, hdone, fun n hn => ?_⟩
    have hcount := (Walk.tour_of_whole hcut hdone).count_visits hs.closed hn (.refl s)
    simpa using hcount.symm
  · intro hcyclic limit
    rw [Walk.start]
    cases hf : (Walk.fromStack .refresh limit [root] s).finish with
    | limit => exact Walk.length_visits_of_limit hf
    | failed fault => exact absurd hf (Walk.refresh_goes_on hs href limit fault)
    | done =>
      have hacc := (Walk.tour_of_done hf).acc hs.closed (.refl s) rfl root
        (List.mem_singleton_self _)
      exact absurd (Store.acyclicFrom_of_acc hacc) hcyclic

/-- A loop that lists a property twice. The variable it goes through is the value of the property
too. -/
def repeatedSheet : Store where
  nodes := #[
    some { position := { line := .int 1 }
           form := .statement (.list 0) (.each (.list 1) (.node 2)) },
    some { position := { line := .int 2 }
           form := .statement (.list 2) (.prop (.list 2) (.node 2)), parent := .to (.node 2) },
    some { form := .expression (.variable (.text "colors")), parent := .gone }]
  lists := #[[.node 1, .node 1], [.text "color"], []]

/-- Two rules that list each other. -/
def ringSheet : Store where
  nodes := #[
    some { position := { line := .int 1 }, form := .statement (.list 0) (.rule (.list 2)) },
    some { position := { line := .int 2 }, form := .statement (.list 1) (.rule (.list 2)) }]
  lists := #[[.node 1], [.node 0], []]

/-- A node with three ways to it is visited three times, and two rules that list each other are
visited as often as one likes. -/
theorem refresh_walk_ways_repeated :
    repeatedSheet.WellFormed 0 ∧ repeatedSheet.AcyclicFrom 0 ∧
      (repeatedSheet.ways 0 2).encard = 3 ∧
      (∃ w : Walk, (∀ limit, Walk.start .refresh limit (.node 0) repeatedSheet =
          w.cut repeatedSheet limit) ∧ w.finish = .done ∧
        (w.visits.countP fun e => e.1.node? == some 2) = 3) ∧
      ringSheet.WellFormed 0 ∧ ¬ringSheet.AcyclicFrom 0 ∧
      ∀ limit, (Walk.start .refresh limit (.node 0) ringSheet).visits.length = limit := by
  have hwell : repeatedSheet.WellFormed 0 :=
    Store.wellFormed_of_nodes (by decide) rfl (by decide) (by decide)
  have hacyclic : repeatedSheet.AcyclicFrom 0 :=
    Store.acyclicFrom_of_rank (fun n => [2, 1, 0].getD n 0) (by decide) 0
  have hnodes : ∀ n c, repeatedSheet.Contains 0 n c → repeatedSheet.parent? c = .ok none ∨
      ∃ m, repeatedSheet.parent? c = .ok (some (.node m)) := by
    rintro n c ⟨_, hleads⟩
    have hsize : c < 3 := hleads.lt_size hwell.closed
    match c, hsize with
    | 0, _ => exact Or.inl rfl
    | 1, _ => exact Or.inr ⟨2, rfl⟩
    | 2, _ => exact Or.inl rfl
  have hring : ringSheet.WellFormed 0 :=
    Store.wellFormed_of_nodes (by decide) rfl (by decide) (by decide)
  have hcyclic : ¬ringSheet.AcyclicFrom 0 := by
    intro hacyclic
    have hdown : ringSheet.Leads 0 1 := Store.leads_iff_offspring.mpr (by decide)
    have hup : ringSheet.Leads 1 0 := Store.leads_iff_offspring.mpr (by decide)
    exact hacyclic 0 .refl (.tail (.single hdown) hup)
  have hloose : ∀ n c, ringSheet.Contains 0 n c → ringSheet.parent? c = .ok none ∨
      ∃ m, ringSheet.parent? c = .ok (some (.node m)) := by
    rintro n c ⟨_, hleads⟩
    have hsize : c < 2 := hleads.lt_size hring.closed
    match c, hsize with
    | 0, _ => exact Or.inl rfl
    | 1, _ => exact Or.inl rfl
  obtain ⟨w, hcut, hdone, hways⟩ := (refresh_walk_ways hwell hnodes).1 hacyclic
  -- nine visits are asked for, which is more than there are
  have hlength : w.visits.length < 9 := by
    by_contra hle
    have hends : (Walk.start .refresh 9 (.node 0) repeatedSheet).finish = .done := rfl
    rw [hcut 9, Walk.cut, if_pos (Nat.le_of_not_lt hle)] at hends
    cases hends
  have hwhole : Walk.start .refresh 9 (.node 0) repeatedSheet = w := by
    rw [hcut 9, Walk.cut, if_neg (Nat.not_le.mpr hlength)]
  have hcount : (w.visits.countP fun e => e.1.node? == some 2) = 3 := by
    rw [← hwhole]
    decide
  refine ⟨hwell, hacyclic, ?_, ⟨w, hcut, hdone, hcount⟩, hring, hcyclic,
    (refresh_walk_ways hring hloose).2 hcyclic⟩
  rw [hways 2 (by decide), hcount]
  rfl

end SheetLint
