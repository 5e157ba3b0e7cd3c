import SheetLint.Proofs.Preorder

/-!
# Tours

A walk stops for one of three reasons, and counts its visits on the way. What it does to the store
is simpler than that: it takes a node from the stack, computes its children, and puts them there
instead. `Walk.Tour` is that, as a relation: from a stack and a store, through visits, to another
stack and store. Invariants of walks are proved by induction on tours, one step at a time
(`Tour.keeps`).

* A walk that is done is a tour that leaves nothing on the stack, and the other way round
  (`tour_of_done`, `Tour.fromStack_cut`).
* Whatever a walk visits, and wherever it fails, it comes there by a tour (`tour_of_visit`,
  `tour_of_failed`).
* A tour that leaves nothing behind has visited everything below what it visited
  (`Tour.visits_below`).
-/

namespace SheetLint

namespace Walk

/-- A tour through a stack of nodes: the top is visited, its children take its place, and so on. It
may be left at any time. -/
inductive Tour (policy : ParentPolicy) : (stack : List NodeId) → Store →
    (visits : List (Value × Store)) → (left : List NodeId) → Store → Prop where
  | rest {stack : List NodeId} {s : Store} : Tour policy stack s [] stack s
  | step {n : NodeId} {rest cs left : List NodeId} {s t u : Store}
      {visits : List (Value × Store)} :
      (Edit.children n policy).perform s = (.ok cs, t) →
        Tour policy (cs ++ rest) t visits left u →
          Tour policy (n :: rest) s ((.node n, s) :: visits) left u

variable {policy : ParentPolicy} {stack left : List NodeId} {s s₀ t u : Store} {n c root : NodeId}
  {visits : List (Value × Store)}

/-! ## Walks are tours -/

/-- A walk that comes to its end is a tour of all that is on its stack. -/
theorem tour_of_done : ∀ {limit : Nat} {stack : List NodeId} {s : Store},
    (fromStack policy limit stack s).finish = .done →
      Tour policy stack s (fromStack policy limit stack s).visits []
        (fromStack policy limit stack s).store
  | 0, _, _, h => by simp [fromStack] at h
  | _ + 1, [], _, _ => by
    simp only [fromStack]
    exact .rest
  | 1, _ :: _, _, h => by simp [fromStack] at h
  | k + 2, n :: rest, s, h => by
    rw [fromStack] at h ⊢
    cases hcs : (Edit.children n policy).perform s with
    | mk r t =>
      rw [hcs] at h
      cases r with
      | error fault => simp at h
      | ok cs => exact .step hcs (tour_of_done h)

/-- A tour that leaves nothing on the stack is a walk that is done, unless it is left before. -/
theorem Tour.fromStack_cut (h : Tour policy stack s visits [] u) :
    ∀ limit, fromStack policy limit stack s = (⟨visits, .done, u⟩ : Walk).cut s limit := by
  generalize hleft : ([] : List NodeId) = left at h
  induction h with
  | rest =>
    intro limit
    subst hleft
    cases limit <;> rfl
  | @step n rest cs left s t u visits hcs _ ih =>
    intro limit
    match limit with
    | 0 => rfl
    | 1 => simp [fromStack, cut]
    | k + 2 =>
      rw [fromStack, hcs]
      simp only
      rw [ih hleft, cut, cut]
      simp only [List.length_cons, List.take_succ_cons]
      by_cases hle : k + 1 ≤ visits.length
      · -- the last visit is the same, for there is one after this
        rw [if_pos hle, if_pos (by omega), visiting, List.getLast?_cons]
        have hsome : (visits.take (k + 1)).getLast? ≠ none := by
          intro hnone
          have hlength := congrArg List.length (List.getLast?_eq_none_iff.mp hnone)
          rw [List.length_take, List.length_nil] at hlength
          omega
        cases hlast : (visits.take (k + 1)).getLast? with
        | none => exact absurd hlast hsome
        | some e => rfl
      · rw [if_neg hle, if_neg (by omega), visiting]

/-- What a walk visits is then on top of the stack, at the end of a tour through the visits before
it. -/
theorem tour_of_visit : ∀ {limit : Nat} {stack : List NodeId} {s u : Store} {v : Value}
    {before after : List (Value × Store)},
    (fromStack policy limit stack s).visits = before ++ (v, u) :: after →
      ∃ c rest, v = .node c ∧ Tour policy stack s before (c :: rest) u
  | 0, _, _, _, _, _, _, h => by simp [fromStack] at h
  | _ + 1, [], _, _, _, _, _, h => by simp [fromStack] at h
  | 1, n :: rest, s, u, v, before, after, h => by
    simp only [fromStack] at h
    cases before with
    | nil =>
      obtain ⟨he, _⟩ := List.cons.inj h
      cases he
      exact ⟨n, rest, rfl, .rest⟩
    | cons e before => simp at h
  | k + 2, n :: rest, s, u, v, before, after, h => by
    rw [fromStack] at h
    cases before with
    | nil =>
      -- the first visit is to the top of the stack, whatever comes of it
      refine ⟨n, rest, ?_⟩
      cases hcs : (Edit.children n policy).perform s with
      | mk r t =>
        rw [hcs] at h
        cases r with
        | error fault =>
          obtain ⟨he, _⟩ := List.cons.inj h
          cases he
          exact ⟨rfl, .rest⟩
        | ok cs =>
          obtain ⟨he, _⟩ := List.cons.inj h
          cases he
          exact ⟨rfl, .rest⟩
    | cons e before =>
      cases hcs : (Edit.children n policy).perform s with
      | mk r t =>
        rw [hcs] at h
        cases r with
        | error fault => simp at h
        | ok cs =>
          obtain ⟨rfl, hlater⟩ := List.cons.inj h
          obtain ⟨c, rest', hv, htour⟩ := tour_of_visit hlater
          exact ⟨c, rest', hv, .step hcs htour⟩

/-- A walk that fails does so at the end of a tour, at the children of the node on top. -/
theorem tour_of_failed : ∀ {limit : Nat} {stack : List NodeId} {s : Store} {fault : Fault},
    (fromStack policy limit stack s).finish = .failed fault →
      ∃ before n rest u t, Tour policy stack s before (n :: rest) u ∧
        (Edit.children n policy).perform u = (.error fault, t)
  | 0, _, _, _, h => by simp [fromStack] at h
  | _ + 1, [], _, _, h => by simp [fromStack] at h
  | 1, _ :: _, _, _, h => by simp [fromStack] at h
  | k + 2, n :: rest, s, fault, h => by
    rw [fromStack] at h
    cases hcs : (Edit.children n policy).perform s with
    | mk r t =>
      rw [hcs] at h
      cases r with
      | error fault' =>
        cases h
        exact ⟨[], n, rest, s, t, .rest, hcs⟩
      | ok cs =>
        obtain ⟨before, m, rest', u, t', htour, hfail⟩ := tour_of_failed h
        exact ⟨_, m, rest', u, t', .step hcs htour, hfail⟩

/-! What a walk comes to if it is not left is that of a walk that is left later than that. -/

section Whole

variable {w : Walk} (h : ∀ limit, start policy limit (.node root) s = w.cut s limit)
include h

theorem fromStack_whole : fromStack policy (w.visits.length + 1) [root] s = w := by
  have hcut := h (w.visits.length + 1)
  rwa [cut, if_neg (Nat.not_succ_le_self _)] at hcut

theorem tour_of_whole (hdone : w.finish = .done) : Tour policy [root] s w.visits [] w.store := by
  have hwhole := fromStack_whole h
  rw [← hwhole] at hdone
  have htour := tour_of_done hdone
  rwa [hwhole] at htour

end Whole

end Walk

/-! ## Children that are given -/

namespace Store

variable {policy : ParentPolicy} {s s₀ t : Store} {n c : NodeId} {cs : List NodeId}

/-- Whether a value, asked for its children in this store, gives a node among them. -/
def gives (policy : ParentPolicy) (s : Store) (v : Value) (c : NodeId) : Bool :=
  match v with
  | .node n =>
    match (Edit.children n policy).perform s with
    | (.ok cs, _) => cs.contains c
    | (.error _, _) => false
  | _ => false

theorem gives_iff (hcs : (Edit.children n policy).perform s = (.ok cs, t)) :
    s.gives policy (.node n) c = true ↔ c ∈ cs := by
  rw [gives, hcs]
  simp

/-- Of what was there, a node gives as children those that it listed all along. -/
theorem mem_children_iff (hs₀ : s₀.Closed) (hs : s₀.Extends s)
    (hcs : (Edit.children n policy).perform s = (.ok cs, t)) (hc : c < s₀.nodes.size) :
    c ∈ cs ↔ s₀.Leads n c := by
  constructor
  · intro hmem
    rcases child_leads hs₀ hs hcs hmem with hleads | hnew
    · exact hleads
    · exact absurd hc (Nat.not_lt.mpr hnew)
  · intro hleads
    have hn := hleads.self_lt_size
    obtain ⟨ks, hks, hk⟩ := hleads
    obtain ⟨ks', _, hks', rfl, _⟩ := Edit.children_ok hcs
    rw [kids_extends hs₀ hs hn, hks] at hks'
    cases hks'
    exact Kid.mem_places_of_node hk

/-- What is given and was not there before was made on the way. -/
theorem new_of_mem_children (hs₀ : s₀.Closed) (hs : s₀.Extends s)
    (hcs : (Edit.children n policy).perform s = (.ok cs, t)) (hc : c ∈ cs)
    (hnew : s₀.nodes.size ≤ c) : s.nodes.size ≤ c := by
  obtain ⟨ks, _, hks, rfl, _⟩ := Edit.children_ok hcs
  rcases Kid.mem_places hc with hk | hmade
  · exact absurd (kid_lt_size hs₀ hs hks hk) (Nat.not_lt.mpr hnew)
  · exact hmade.1

/-- Whatever is given is there afterwards. -/
theorem lt_size_of_mem_children (hs₀ : s₀.Closed) (hs : s₀.Extends s)
    (hcs : (Edit.children n policy).perform s = (.ok cs, t)) (hc : c ∈ cs) :
    c < t.nodes.size := by
  obtain ⟨ks, filled, hks, rfl, _, hloop⟩ := Edit.children_ok hcs
  -- the variables are made before anything is adopted
  let P (u : Store) : Prop := s.nodes.size + (Kid.names ks).length ≤ u.nodes.size
  have hcollected : P ((s.fillAll n filled).addVariables n (Kid.names ks)) := by
    refine Nat.le_of_eq ?_
    rw [size_addVariables, size_fillAll]
  have hadopted : P t := by
    have hkept : P (((Kid.places s.nodes.size ks).forM (Edit.adopt n policy)).perform
        ((s.fillAll n filled).addVariables n (Kid.names ks))).2 :=
      Edit.forM_adopt_preserves P (fun _ => True)
      (fun u c h _ => Nat.le_trans h (Nat.le_of_eq (size_fill u c n).symm))
      (fun _ _ _ h _ => Edit.attach_keeps
        (fun u h => Nat.le_trans h (Nat.le_of_eq (size_setParent u _ _).symm)) (fun _ _ h => h) h)
      (Kid.places s.nodes.size ks) hcollected fun _ _ => trivial
    rwa [hloop] at hkept
  rcases Kid.mem_places hc with hk | hmade
  · have hold := Nat.lt_of_lt_of_le (kid_lt_size hs₀ hs hks hk) hs.nodes
    exact Nat.lt_of_lt_of_le hold (Nat.le_trans (Nat.le_add_right ..) hadopted)
  · exact Nat.lt_of_lt_of_le hmade.2 hadopted

end Store

/-! ## Along a tour -/

namespace Walk.Tour

variable {policy : ParentPolicy} {stack left : List NodeId} {s s₀ t u : Store} {n c root : NodeId}
  {visits : List (Value × Store)}

/-- What each step of a tour keeps holds at its end. -/
theorem keeps {P : List (Value × Store) → List NodeId → Store → Prop}
    (hstep : ∀ {before n rest s cs t}, P before (n :: rest) s →
      (Edit.children n policy).perform s = (.ok cs, t) →
        P (before ++ [(.node n, s)]) (cs ++ rest) t)
    (h : Tour policy stack s visits left u) :
    ∀ before, P before stack s → P (before ++ visits) left u := by
  induction h with
  | rest =>
    intro before hP
    rwa [List.append_nil]
  | @step n rest cs left s t u visits hcs _ ih =>
    intro before hP
    have hlater := ih _ (hstep hP hcs)
    rwa [List.append_assoc, List.singleton_append] at hlater

theorem extends_ (h : Tour policy stack s visits left u) (hs : s₀.Extends s) : s₀.Extends u := by
  exact h.keeps (P := fun _ _ s => s₀.Extends s)
    (fun hs hcs => Store.extends_of_children hs hcs) [] hs

/-- A tour has met exactly what was on the stack and what its visits gave: all of it was visited, or
is left. -/
theorem met_iff (h : Tour policy stack s visits left u) :
    (c ∈ left ∨ ∃ v, (.node c, v) ∈ visits) ↔
      c ∈ stack ∨ ∃ e ∈ visits, e.2.gives policy e.1 c = true := by
  induction h with
  | rest => simp
  | @step n rest cs left s t u visits hcs _ ih =>
    have hhead : (∃ v, (Value.node c, v) ∈ (Value.node n, s) :: visits) ↔
        c = n ∨ ∃ v, (.node c, v) ∈ visits := by
      simp only [List.mem_cons, Prod.mk.injEq, Value.node.injEq]
      constructor
      · rintro ⟨v, ⟨rfl, rfl⟩ | hv⟩
        · exact Or.inl rfl
        · exact Or.inr ⟨v, hv⟩
      · rintro (rfl | ⟨v, hv⟩)
        · exact ⟨s, Or.inl ⟨rfl, rfl⟩⟩
        · exact ⟨v, Or.inr hv⟩
    have hgiven : (∃ e ∈ (Value.node n, s) :: visits, e.2.gives policy e.1 c = true) ↔
        c ∈ cs ∨ ∃ e ∈ visits, e.2.gives policy e.1 c = true := by
      simp only [List.mem_cons, exists_eq_or_imp, Store.gives_iff hcs]
    rw [hhead, hgiven, List.mem_cons, or_left_comm, ih, List.mem_append, or_assoc]
    constructor
    · rintro (hn | hcs | hrest | hvisit)
      · exact Or.inl (Or.inl hn)
      · exact Or.inr (Or.inl hcs)
      · exact Or.inl (Or.inr hrest)
      · exact Or.inr (Or.inr hvisit)
    · rintro ((hn | hrest) | hcs | hvisit)
      · exact Or.inl hn
      · exact Or.inr (Or.inr (Or.inl hrest))
      · exact Or.inr (Or.inl hcs)
      · exact Or.inr (Or.inr (Or.inr hvisit))

/-- Each visit of a tour computed the children of a node. -/
theorem children_of_visit (h : Tour policy stack s visits left u) (hs : s₀.Extends s) :
    ∀ e ∈ visits, ∃ n cs t, e.1 = .node n ∧ s₀.Extends e.2 ∧
      (Edit.children n policy).perform e.2 = (.ok cs, t) := by
  induction h with
  | rest => simp
  | @step n rest cs left s t u visits hcs _ ih =>
    intro e he
    rcases List.mem_cons.mp he with rfl | he
    · exact ⟨n, cs, t, rfl, hs, hcs⟩
    · exact ih (Store.extends_of_children hs hcs) e he

/-- Of what was there, a visit gives what its node listed all along. -/
theorem gives_iff_leads (h : Tour policy stack s visits left u) (hs₀ : s₀.Closed)
    (hs : s₀.Extends s) {v : Store} (hv : (.node n, v) ∈ visits) (hc : c < s₀.nodes.size) :
    v.gives policy (.node n) c = true ↔ s₀.Leads n c := by
  obtain ⟨m, cs, t, hm, hext, hcs⟩ := h.children_of_visit hs _ hv
  cases hm
  rw [Store.gives_iff hcs, Store.mem_children_iff hs₀ hext hcs hc]

/-- Whatever a tour meets is below its root, or new. -/
theorem met_below (h : Tour policy stack s visits left u) (hs₀ : s₀.Closed) (hs : s₀.Extends s)
    (hstack : ∀ n ∈ stack, s₀.Below root n ∨ s₀.nodes.size ≤ n) :
    (∀ n v, (.node n, v) ∈ visits → s₀.Below root n ∨ s₀.nodes.size ≤ n) ∧
      ∀ n ∈ left, s₀.Below root n ∨ s₀.nodes.size ≤ n := by
  induction h with
  | rest => exact ⟨fun _ _ h => absurd h (by simp), hstack⟩
  | @step n rest cs left s t u visits hcs _ ih =>
    have hn := hstack n (List.mem_cons_self ..)
    obtain ⟨hvisits, hleft⟩ := ih (Store.extends_of_children hs hcs)
      (Store.below_stack hs₀ hs hstack hcs)
    refine ⟨fun m v hmem => ?_, hleft⟩
    rcases List.mem_cons.mp hmem with he | hmem
    · cases he
      exact hn
    · exact hvisits m v hmem

/-- At first there is the root alone. -/
theorem mem_root (s : Store) (root : NodeId) :
    ∀ n ∈ [root], s.Below root n ∨ s.nodes.size ≤ n := by
  intro n hn
  rw [List.mem_singleton.mp hn]
  exact Or.inl .refl

/-- A tour that leaves nothing on the stack has visited everything below its root. -/
theorem visits_below (h : Tour policy [root] s visits [] u) (hs : s.Closed)
    (hn : s.Below root n) : ∃ v, (.node n, v) ∈ visits := by
  have hmet : ∀ {c}, (c = root ∨ ∃ e ∈ visits, e.2.gives policy e.1 c = true) →
      ∃ v, (.node c, v) ∈ visits := by
    intro c hc
    have hvisited := h.met_iff.mpr (hc.imp_left List.mem_singleton.mpr)
    simpa using hvisited
  induction hn with
  | refl => exact hmet (Or.inl rfl)
  | tail _ hleads ih =>
    obtain ⟨v, hv⟩ := ih
    refine hmet (Or.inr ⟨_, hv, ?_⟩)
    exact (h.gives_iff_leads hs (.refl s) hv (hleads.lt_size hs)).mpr hleads

end Walk.Tour

end SheetLint
