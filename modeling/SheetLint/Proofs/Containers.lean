import SheetLint.Proofs.Attaching
import SheetLint.Proofs.Parents
import SheetLint.Proofs.Runs

/-!
# Whose child a node is

A child is attached when the children of its container are computed, and visited only after the
earlier ones and all that is below them. In between it may be attached to something else, if it is a
child of several nodes. In the end it refers to the last node visited that has it as a child
(`refresh_walk_parents`), whatever references there were before the walk.

Where nothing is a child of two nodes, nothing happens in between: at the very moment a node is
visited it refers to the node that gave it, during a walk (`Walk.visited_parent`) and during the run
of a linter (`Linter.runTracked_attached`). What is made on the way is given once, so it makes no
difference.
-/

namespace SheetLint

open Store

variable {s t u s₀ : Store} {root n m c : NodeId} {policy : ParentPolicy}
  {left rest : List NodeId} {visits before : List (Value × Store)}

/-! ## Walks -/

namespace Walk

/-- Whatever gives a node is a container of it, unless the node is new. -/
theorem Tour.exists_giver (h : Tour policy [root] s visits left u) (hs : s.Closed)
    {e : Value × Store} (he : e ∈ visits) (hgives : e.2.gives policy e.1 c = true) :
    ∃ n, e.1 = .node n ∧ (s.Contains root n c ∨ s.nodes.size ≤ c) := by
  obtain ⟨n, cs, t, hn, hext, hcs⟩ := h.children_of_visit (.refl s) e he
  refine ⟨n, hn, ?_⟩
  obtain ⟨v, w⟩ := e
  obtain rfl : v = .node n := hn
  rcases Nat.lt_or_ge c s.nodes.size with hc | hc
  · have hleads := (h.gives_iff_leads hs (.refl s) he hc).mp hgives
    rcases (h.met_below hs (.refl s) (Tour.mem_root s root)).1 n w he with hbelow | hnew
    · exact Or.inl ⟨hbelow, hleads⟩
    · exact absurd hleads.self_lt_size (Nat.not_lt.mpr hnew)
  · exact Or.inr hc

/-- Where nothing is shared whatever gives a node is one and the same. -/
theorem Tour.giver_unique (h : Tour policy [root] s visits left u) (hs : s.Closed)
    (hshares : ¬s.SharesBelow root) {e f : Value × Store} (he : e ∈ visits) (hf : f ∈ visits)
    (hegives : e.2.gives policy e.1 c = true) (hfgives : f.2.gives policy f.1 c = true) :
    e.1 = f.1 := by
  rcases Nat.lt_or_ge c s.nodes.size with hc | hnew
  · obtain ⟨n, hn, hnc | hnew⟩ := h.exists_giver hs he hegives
    · obtain ⟨m, hm, hmc | hnew⟩ := h.exists_giver hs hf hfgives
      · rw [hn, hm, hnc.unique hshares hmc]
      · exact absurd hc (Nat.not_lt.mpr hnew)
    · exact absurd hc (Nat.not_lt.mpr hnew)
  · exact h.gives_once hs (.refl s) hnew e he f hf hegives hfgives

/-- What was given refers to the last visit that gave it. -/
theorem Tour.parent_last (h : Tour policy [root] s visits left u) (hs : s.Closed)
    (hgiven : ∃ e ∈ visits, e.2.gives policy e.1 c = true) :
    ∃ e, (visits.filter fun e => e.2.gives policy e.1 c).getLast? = some e ∧
      u.parent? c = .ok (some e.1) := by
  have hparent := h.parent_eq hs (.refl s) (Or.inr hgiven)
  cases hlast : (visits.filter fun e => e.2.gives policy e.1 c).getLast? with
  | none =>
    obtain ⟨e, he, hgives⟩ := hgiven
    have hmem : e ∈ visits.filter fun e => e.2.gives policy e.1 c :=
      List.mem_filter.mpr ⟨he, hgives⟩
    rw [List.getLast?_eq_none_iff.mp hlast] at hmem
    exact absurd hmem (by simp)
  | some e =>
    rw [hlast] at hparent
    exact ⟨e, rfl, parent?_eq_some.mpr hparent⟩

/-- What has no container refers to whatever it did. -/
theorem Tour.parent_kept (h : Tour policy [root] s visits left u) (hs : s.Closed)
    (hn : n < s.nodes.size) (hnone : ∀ m, ¬s.Contains root m n) :
    (u.node n).parent = (s.node n).parent := by
  have hgiven : (visits.filter fun e => e.2.gives policy e.1 n) = [] := by
    refine List.filter_eq_nil_iff.mpr fun e he hgives => ?_
    obtain ⟨m, _, hcontains | hnew⟩ := h.exists_giver hs he hgives
    · exact hnone m hcontains
    · exact absurd hn (Nat.not_lt.mpr hnew)
  rw [h.parent_eq hs (.refl s) (Or.inl hn), hgiven]
  rfl

/-- Where nothing is shared a node that is about to be visited refers to the one node that gave
it. -/
theorem visited_parent (h : Tour policy [root] s before (c :: rest) u) (hs : s.Closed)
    (hshares : ¬s.SharesBelow root) (hc : c ≠ root) :
    ∃ n, (∃ e ∈ before, e.1 = .node n ∧ e.2.gives policy e.1 c = true) ∧
      (∀ e ∈ before, e.2.gives policy e.1 c = true → e.1 = .node n) ∧
      u.parent? c = .ok (some (.node n)) := by
  have hgiven : ∃ e ∈ before, e.2.gives policy e.1 c = true := by
    rcases h.met_iff.mp (Or.inl (List.mem_cons_self ..)) with hroot | hgiven
    · exact absurd (List.mem_singleton.mp hroot) hc
    · exact hgiven
  -- it refers to the last one that gave it, and there is only one
  obtain ⟨e, hlast, hparent⟩ := h.parent_last hs hgiven
  obtain ⟨he, hgives⟩ := List.mem_filter.mp (List.mem_of_getLast? hlast)
  obtain ⟨n, hn, _⟩ := h.exists_giver hs he hgives
  refine ⟨n, ⟨e, he, hn, hgives⟩, fun f hf hfgives => ?_, ?_⟩
  · rw [h.giver_unique hs hshares hf he hfgives hgives, hn]
  · rw [hparent, hn]

/-- A refreshing walk does not fail where all that is referred to is nodes. -/
theorem refresh_not_failed (hs : s.WellFormed root) (htop : ∀ n, ¬s.Contains root n root)
    (hnodes : ∀ n c, s.Contains root n c →
      s.parent? c = .ok none ∨ ∃ m, s.parent? c = .ok (some (.node m))) (limit : Nat)
    (fault : Fault) : (fromStack .refresh limit [root] s).finish ≠ .failed fault := by
  intro hfault
  obtain ⟨before, n, rest, u, t, htour, hfail⟩ := tour_of_failed hfault
  -- any node is fit to be referred to: a refreshing walk takes children over from wherever
  have hattaching : Attaching (fun _ _ => True) s root s :=
    ⟨.refl hs, rfl, fun n c hc => (hnodes n c hc).imp_right fun ⟨m, hm⟩ => ⟨m, trivial, hm⟩⟩
  have hfit : ∀ n c, s.Contains root n c → True := fun _ _ _ => trivial
  have hstack := Tour.mem_root s root
  have hu := hattaching.tour hs htop hfit htour hstack
  have hn := (htour.met_below hs.closed (.refl s) hstack).2 n (List.mem_cons_self ..)
  obtain ⟨hpolicy, _⟩ := hu.children_fails hs htop hfit hn hfail
  exact absurd hpolicy (by simp)

end Walk

/-! ## Runs -/

namespace Linter

variable {i : AgentId}

/-- A store in the course of a run: all that was there still is, and the lints go to a new list. -/
structure Apart (s₀ : Store) (i : AgentId) (s : Store) : Prop where
  extends_ : s₀.Extends s
  lints : ∀ l, s.lintsOf i = .list l → s₀.lists.size ≤ l

/-- A node is attached to its container, or to the node it was made for. -/
structure IsAttached (s₀ : Store) (root : NodeId) (n : NodeId) (s : Store) (c : NodeId) : Prop where
  there : c < s.nodes.size
  parent : (s.node c).parent = .to (.node n)
  proper : s₀.Contains root n c ∨ s₀.nodes.size ≤ c

/-- Computing children leaves what is attached to its container where it is. -/
theorem IsAttached.children (hs₀ : s₀.WellFormed root) (hshares : ¬s₀.SharesBelow root)
    (hs : s₀.Extends s) (hm : s₀.Below root m ∨ s₀.nodes.size ≤ m) (policy : ParentPolicy)
    (h : IsAttached s₀ root n s c) :
    IsAttached s₀ root n ((Edit.children m policy).perform s).2 c := by
  obtain ⟨ks, hks⟩ := hs₀.exists_kids hs hm
  let P (u : Store) : Prop := c < u.nodes.size ∧ (u.node c).parent = .to (.node n)
  have hkept : P ((Edit.children m policy).perform s).2 := by
    refine Edit.children_keeps P (fun d => d = c → m = n) ?_ ?_ ?_ (fun _ _ h => h)
      ⟨h.there, h.parent⟩ ?_ policy
    · rintro u d ⟨hsize, hparent⟩ _
      refine ⟨?_, ?_⟩
      · rwa [size_fill]
      · rwa [parent_fill]
    · rintro u name ⟨hsize, hparent⟩
      refine ⟨?_, ?_⟩
      · rw [size_addVariable]
        exact Nat.lt_succ_of_lt hsize
      · rwa [node_addVariable hsize]
    · rintro u d ⟨hsize, hparent⟩ hd
      refine ⟨?_, ?_⟩
      · rwa [size_setParent]
      · rw [node_setParent]
        split
        · rename_i hwritten
          rw [hd hwritten.1]
        · exact hparent
    · -- only its container has the node as a child
      rintro d hd rfl
      rcases hd with hlisted | hnew
      · have hoffered := isOffered_of_kid hs₀.closed hs hm hks (Or.inl (hlisted ks hks))
        rcases hoffered with hcontains | ⟨_, hnew⟩
        · rcases h.proper with hproper | hnew
          · exact hcontains.unique hshares hproper
          · exact absurd (hcontains.2.lt_size hs₀.closed) (Nat.not_lt.mpr hnew)
        · exact absurd h.there (Nat.not_lt.mpr hnew)
      · exact absurd h.there (Nat.not_lt.mpr hnew)
  exact ⟨hkept.1, hkept.2, h.proper⟩

/-- A later store of a run, in which whatever is attached to its container still is. -/
def LaterAttached (s₀ : Store) (root : NodeId) (i : AgentId) (s t : Store) : Prop :=
  Apart s₀ i s → Apart s₀ i t ∧ ∀ n c, IsAttached s₀ root n s c → IsAttached s₀ root n t c

/-- Nothing happens to what is attached where the nodes stay the same. -/
theorem LaterAttached.of_nodes (nodes : t.nodes = s.nodes)
    (hapart : Apart s₀ i s → Apart s₀ i t) : LaterAttached s₀ root i s t := by
  intro hs
  refine ⟨hapart hs, fun n c hc => ⟨?_, ?_, hc.proper⟩⟩
  · rw [nodes]
    exact hc.there
  · rw [node, node?, nodes]
    exact hc.parent

theorem Apart.of_rest (agents : t.agents = s.agents) (hext : s₀.Extends s → s₀.Extends t)
    (h : Apart s₀ i s) : Apart s₀ i t where
  extends_ := hext h.extends_
  lints l hl := by
    rw [lintsOf, linter?, agent?, agents] at hl
    exact h.lints l hl

theorem Apart.children (h : Apart s₀ i s) (n : NodeId) (policy : ParentPolicy) :
    Apart s₀ i ((Edit.children n policy).perform s).2 :=
  h.of_rest (agents_marks_children s n policy).1 fun hs => children_extends hs n policy

/-- The visits of a linter leave attached what is attached to its container: there is no other node
of which it is a child. -/
theorem progress_attached (hs₀ : s₀.WellFormed root) (hshares : ¬s₀.SharesBelow root)
    (i : AgentId) : Progress (LaterAttached s₀ root i)
      (fun s n => Apart s₀ i s ∧ (s₀.Below root n ∨ s₀.nodes.size ≤ n)) i where
  later := {
    refl := fun _ hs => ⟨hs, fun _ _ h => h⟩
    trans := fun hst htu hs => by
      obtain ⟨ht, hkeeps⟩ := hst hs
      obtain ⟨hu, hkeeps'⟩ := htu ht
      exact ⟨hu, fun n c hc => hkeeps' n c (hkeeps n c hc)⟩ }
  stable := fun ⟨hs, hn⟩ hst => ⟨(hst hs).1, hn⟩
  children {s n} policy := fun ⟨hs, hn⟩ _ =>
    ⟨hs.children n policy, fun _ _ hc => hc.children hs₀ hshares hs.extends_ hn policy⟩
  child {s t n policy cs} := fun ⟨hs, hn⟩ hcs c hc => by
    have ht := hs.children n policy
    rw [hcs] at ht
    exact ⟨ht, below_child hs₀.closed hs.extends_ hn hcs hc⟩
  mark s := .of_nodes rfl (Apart.of_rest rfl fun h => h.of_rest rfl rfl rfl)
  list s items := .of_nodes rfl (Apart.of_rest rfl fun h => h.addList items)
  table s entries := .of_nodes rfl (Apart.of_rest rfl fun h => h.addTable entries)
  note s m _ := .of_nodes rfl (Apart.of_rest rfl fun h => h.note m)
  append {s t v} happend := by
    intro hs
    obtain ⟨l, hl, rfl⟩ := append_inv happend
    exact LaterAttached.of_nodes rfl (Apart.of_rest rfl fun h => h.setList (hs.lints l hl) _) hs

/-- The guard of a child that refers to the value whose child it is. -/
noncomputable def requireAttached (fault : Fault) (container child : Value) : Edit Unit :=
  Edit.require (fun s => ∃ c, child = .node c ∧ s.parent? c = .ok (some container)) fault

/-- With a guard that only lets through what is attached to the node whose child it is, a run is
what it is without. -/
theorem runTracked_attached (hs : s.WellFormed root) (hshares : ¬s.SharesBelow root)
    (hi : s.IsLinter i) (file : Value) (fault : Fault) :
    (runTracked (requireAttached fault) i (.node root) file).perform s =
      (run i (.node root) file).perform s := by
  obtain ⟨a, l, ha, hl, hb⟩ := hi
  obtain ⟨stays, hreset⟩ := perform_reset ha hl hb file
  -- starting over lets parents go, but takes away nothing that was there
  have hapart : Apart s i (startedOver s i a l file stays) :=
    ⟨startedOver_extends (Extends.refl s) a l file stays,
      lintsOf_startedOver_new ha (Nat.le_refl _) file stays⟩
  have hagrees := (progress_attached hs hshares i).visitTracked_agrees (requireAttached fault)
    (fun n t c => (Apart s i t ∧ (s.Below root c ∨ s.nodes.size ≤ c)) ∧ IsAttached s root n t c)
    (fun ⟨⟨ht, hc⟩, hattached⟩ htu => ⟨⟨(htu ht).1, hc⟩, (htu ht).2 _ _ hattached⟩)
    ?child And.left ?guard (depth (startedOver s i a l file stays)) root _ ⟨hapart, Or.inl .refl⟩
  case child =>
    rintro n t u policy cs ⟨ht, hn⟩ hcs c hc
    refine ⟨(progress_attached hs hshares i).child ⟨ht, hn⟩ hcs c hc, ?_⟩
    refine ⟨lt_size_of_mem_children hs.closed ht.extends_ hcs hc,
      parent_of_mem_children hs.closed ht.extends_ hcs hc, ?_⟩
    rcases child_leads hs.closed ht.extends_ hcs hc with hleads | hnew
    · rcases hn with hbelow | hnew
      · exact Or.inl ⟨hbelow, hleads⟩
      · exact absurd hleads.self_lt_size (Nat.not_lt.mpr hnew)
    · exact Or.inr hnew
  case guard =>
    rintro n t c ⟨_, hattached⟩
    exact Edit.perform_require ⟨c, rfl, parent?_eq_some.mpr hattached.parent⟩ fault
  rw [runTracked, perform_run hreset, Edit.perform_bind_ok hreset,
    Edit.perform_bind_ok (Edit.perform_get _), Edit.perform_bind, hagrees.1]
  cases (visitTo i _ (.node root)).perform _ with
  | mk r t =>
    cases r with
    | error fault => rfl
    | ok _ => exact Edit.perform_tryRead _ t

end Linter

/-- A refreshing walk over a document without a cycle comes to an end, and it goes through if all
that is referred to as a parent is nodes. Once it is done it has visited every node below the root,
and whatever it visited, the root apart, refers to the last node visited that gave it as a child.
The root and whatever is not below it refer to whatever they did.

Where nothing is a child of two nodes, any node but the root refers to the one node that gave it at
the very moment it is visited, however early the walk is left. So it does when a linter visits it:
a guard before each visit of a child that fails if this is not so is not noticed. -/
theorem refresh_walk_parents {s : Store} {root : NodeId} (hs : s.WellFormed root)
    (hacyclic : s.AcyclicFrom root) :
    (∃ w : Walk, (∀ limit, Walk.start .refresh limit (.node root) s = w.cut s limit) ∧
      w.finish ≠ .limit ∧
      ((∀ n c, s.Contains root n c →
          s.parent? c = .ok none ∨ ∃ m, s.parent? c = .ok (some (.node m))) → w.finish = .done) ∧
      (w.finish = .done →
        (∀ c, s.Below root c → ∃ v, (.node c, v) ∈ w.visits) ∧
        (∀ c v, (.node c, v) ∈ w.visits → c ≠ root →
          ∃ e, (w.visits.filter fun e => e.2.gives .refresh e.1 c).getLast? = some e ∧
            w.store.parent? c = .ok (some e.1)) ∧
        ∀ n < s.nodes.size, n = root ∨ ¬s.Below root n →
          (w.store.node n).parent = (s.node n).parent)) ∧
    (¬s.SharesBelow root →
      (∀ limit before c u after,
        (Walk.start .refresh limit (.node root) s).visits = before ++ (.node c, u) :: after →
          c ≠ root →
          ∃ n, (∃ e ∈ before, e.1 = .node n ∧ e.2.gives .refresh e.1 c = true) ∧
            (∀ e ∈ before, e.2.gives .refresh e.1 c = true → e.1 = .node n) ∧
            u.parent? c = .ok (some (.node n))) ∧
      ∀ i file fault, s.IsLinter i →
        (Linter.runTracked (Linter.requireAttached fault) i (.node root) file).perform s =
          (Linter.run i (.node root) file).perform s) := by
  have htop := hacyclic.not_contains
  obtain ⟨w, hend, hcut⟩ := Walk.exists_whole .refresh hs.closed hacyclic
  refine ⟨⟨w, hcut, hend, fun hnodes => ?done, fun hdone => ⟨fun c hc => ?visited,
      fun c v hv hne => ?last, fun n hn hout => ?kept⟩⟩,
    fun hshares => ⟨fun limit before c u after hvisits hc => ?moment, fun i file fault hi => ?run⟩⟩
  case done =>
    cases hf : w.finish with
    | done => rfl
    | limit => exact absurd hf hend
    | failed fault =>
      rw [← Walk.fromStack_whole hcut] at hf
      exact absurd hf (Walk.refresh_not_failed hs htop hnodes _ fault)
  case visited => exact (Walk.tour_of_whole hcut hdone).visits_below hs.closed hc
  case last =>
    have htour := Walk.tour_of_whole hcut hdone
    refine htour.parent_last hs.closed ?_
    rcases htour.met_iff.mp (Or.inr ⟨v, hv⟩) with hroot | hgiven
    · exact absurd (List.mem_singleton.mp hroot) hne
    · exact hgiven
  case kept =>
    refine (Walk.tour_of_whole hcut hdone).parent_kept hs.closed hn fun m hm => ?_
    rcases hout with rfl | hout
    · exact htop m hm
    · exact hout hm.below
  case moment =>
    obtain ⟨d, rest, hd, htour⟩ := Walk.tour_of_visit hvisits
    cases hd
    exact Walk.visited_parent htour hs.closed hshares hc
  case run => exact Linter.runTracked_attached hs hshares hi file fault

/-- A loop with a variable to be made, over another variable, with a property below it. All that is
there refers to something it is no child of. -/
def staleSheet : Store where
  nodes := #[
    some { position := { line := .int 1 }
           form := .statement (.list 0) (.each (.list 1) (.node 2)), parent := .to (.node 1) },
    some { position := { line := .int 2 }
           form := .statement (.list 2) (.prop (.list 2) (.node 3)), parent := .to (.node 3) },
    some { form := .expression (.variable (.text "colors")), parent := .gone },
    some { form := .expression (.variable (.text "color")), parent := .to (.node 2) }]
  lists := #[[.node 1], [.text "color"], [], []]
  agents := #[{ role := .linter {
    behaviour := LinterClass.base.derive "Naming" none none
      [("script_variable", [.whenParent (.text "each") [.lint (.text "name") none false]])]
    settings := .null
    lints := .list 3 } }]

/-- All parents are stale to begin with. The walk replaces them, that of the root apart, and no
visit of the run trips the guard. -/
theorem refresh_walk_parents_stale :
    staleSheet.WellFormed 0 ∧ staleSheet.AcyclicFrom 0 ∧ ¬staleSheet.SharesBelow 0 ∧
      staleSheet.IsLinter 0 ∧
      (∃ w : Walk, (∀ limit, Walk.start .refresh limit (.node 0) staleSheet =
          w.cut staleSheet limit) ∧ w.finish = .done ∧
        (w.store.node 0).parent = .to (.node 1) ∧
        ∃ e, (w.visits.filter fun e => e.2.gives .refresh e.1 3).getLast? = some e ∧
          w.store.parent? 3 = .ok (some e.1)) ∧
      ∀ fault, (Linter.runTracked (Linter.requireAttached fault) 0 (.node 0)
          (.text "a.scss")).perform staleSheet =
        (Linter.run 0 (.node 0) (.text "a.scss")).perform staleSheet := by
  have hwell : staleSheet.WellFormed 0 :=
    wellFormed_of_nodes (by decide) rfl (by decide) (by decide)
  have hacyclic : staleSheet.AcyclicFrom 0 :=
    acyclicFrom_of_rank (fun n => [2, 1, 0, 0].getD n 0) (by decide) 0
  have hshares : ¬staleSheet.SharesBelow 0 := not_sharesBelow_of_offspring (by decide) 0
  have hlinter : staleSheet.IsLinter 0 := ⟨_, _, rfl, rfl, rfl⟩
  have hnodes : ∀ n c, staleSheet.Contains 0 n c → staleSheet.parent? c = .ok none ∨
      ∃ m, staleSheet.parent? c = .ok (some (.node m)) := by
    rintro n c ⟨_, hleads⟩
    have hsize : c < 4 := hleads.lt_size hwell.closed
    match c, hsize with
    | 0, _ => exact Or.inr ⟨1, rfl⟩
    | 1, _ => exact Or.inr ⟨3, rfl⟩
    | 2, _ => exact Or.inl rfl
    | 3, _ => exact Or.inr ⟨2, rfl⟩
  have hbelow : staleSheet.Below 0 3 :=
    .tail (.single (leads_iff_offspring.mpr (by decide : 1 ∈ staleSheet.offspring 0)))
      (leads_iff_offspring.mpr (by decide))
  obtain ⟨⟨w, hcut, -, hdone, hparents⟩, htree⟩ := refresh_walk_parents hwell hacyclic
  obtain ⟨hvisited, hlast, hkept⟩ := hparents (hdone hnodes)
  obtain ⟨v, hv⟩ := hvisited 3 hbelow
  exact ⟨hwell, hacyclic, hshares, hlinter,
    ⟨w, hcut, hdone hnodes, hkept 0 (by decide) (Or.inl rfl), hlast 3 v hv (by decide)⟩,
    fun fault => (htree hshares).2 0 _ fault hlinter⟩

end SheetLint
