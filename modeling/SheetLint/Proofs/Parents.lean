import SheetLint.Proofs.Tours

/-!
# Whom a node refers to

Computing the children of a node makes each of them refer to it (`parent_of_mem_children`) and
leaves everything else alone (`node_children_of_not_mem`). Along a tour the references are therefore
a matter of who was visited last: a node refers to the last visit that gave it as a child, and to
whatever it referred to before if there was none (`Tour.parent_eq`).

What is new is given once and never again (`Tour.gives_once`). Where nothing is a child of two
nodes, the last visit that gave a node is the same as any other.
-/

namespace SheetLint

namespace Store

variable {policy : ParentPolicy} {s s₀ t : Store} {n c : NodeId} {cs : List NodeId}

/-- Adopting the children of a node makes each of them refer to it. -/
theorem forM_adopt_parent (hcs : ∀ c ∈ cs, c < s.nodes.size)
    (hloop : (cs.forM (Edit.adopt n policy)).perform s = (.ok ⟨⟩, t)) :
    ∀ c ∈ cs, (t.node c).parent = .to (.node n) := by
  let P (u : Store) : Prop := ∀ c ∈ cs, c < u.nodes.size
  let Q (c : NodeId) (u : Store) : Prop := c ∈ cs → (u.node c).parent = .to (.node n)
  have hfill : ∀ u c', P u → P (u.fill c' n) := by
    intro u c' hu c hc
    rw [size_fill]
    exact hu c hc
  have hparent : ∀ u c', P u → P (u.setParent (.node c') (.node n)) := by
    intro u c' hu c hc
    rw [size_setParent]
    exact hu c hc
  have hall := Edit.forM_establishes (P := P) (Q := Q)
    (fun c => Edit.adopt_keeps policy (fun u => hfill u c) (fun u => hparent u c) fun _ _ h => h)
    ?establish ?stable hcs hloop
  case establish =>
    intro c u v hu hadopt hc
    exact parent_of_attach (hfill u c hu c hc) (Edit.of_adopt_ok hadopt)
  case stable =>
    -- whatever else is adopted, no reference is written but to the same node
    intro c c'
    refine Edit.adopt_keeps policy ?_ ?_ ?_
    · rintro u ⟨hu, hc⟩
      refine ⟨hfill u c' hu, fun hmem => ?_⟩
      rw [parent_fill]
      exact hc hmem
    · rintro u ⟨hu, hc⟩
      refine ⟨hparent u c' hu, fun hmem => ?_⟩
      rw [node_setParent]
      split
      · rfl
      · exact hc hmem
    · exact fun _ _ h => h
  exact fun c hc => hall c hc hc

/-- What is not among the children of a node is left alone while they are computed. -/
theorem node_children_of_not_mem (hcs : (Edit.children n policy).perform s = (.ok cs, t))
    (hc : c ∉ cs) (hsize : c < s.nodes.size) : t.node c = s.node c := by
  let P (u : Store) : Prop := c < u.nodes.size ∧ u.node c = s.node c
  have hkept : P ((Edit.children n policy).perform s).2 := by
    refine Edit.children_keeps P (· ≠ c) ?_ ?_ ?_ (fun _ _ h => h) ⟨hsize, rfl⟩ ?_ policy
    · rintro u c' ⟨hu, hsame⟩ hne
      refine ⟨?_, ?_⟩
      · rwa [size_fill]
      · rwa [node_fill, if_neg fun h => hne h.1.symm]
    · rintro u name ⟨hu, hsame⟩
      refine ⟨?_, ?_⟩
      · rw [size_addVariable]
        exact Nat.lt_succ_of_lt hu
      · rwa [node_addVariable hu]
    · rintro u c' ⟨hu, hsame⟩ hne
      refine ⟨?_, ?_⟩
      · rwa [size_setParent]
      · rwa [node_setParent, if_neg fun h => hne h.1]
    · -- had it been written to, it would have been listed or made, and so be given
      rintro c' (hlisted | hnew) rfl
      · obtain ⟨ks, _, hks, rfl, _⟩ := Edit.children_ok hcs
        exact hc (Kid.mem_places_of_node (hlisted ks hks))
      · exact absurd hsize (Nat.not_lt.mpr hnew)
  rw [hcs] at hkept
  exact hkept.2

/-- What is new and there already is not among the children of anything. -/
theorem node_children_of_new (hs₀ : s₀.Closed) (hs : s₀.Extends s)
    (hcs : (Edit.children n policy).perform s = (.ok cs, t)) (hnew : s₀.nodes.size ≤ c)
    (hsize : c < s.nodes.size) : t.node c = s.node c := by
  refine node_children_of_not_mem hcs (fun hmem => ?_) hsize
  exact absurd hsize (Nat.not_lt.mpr (new_of_mem_children hs₀ hs hcs hmem hnew))

/-- Once the children of a node are computed each of them refers to it. -/
theorem parent_of_mem_children (hs₀ : s₀.Closed) (hs : s₀.Extends s)
    (hcs : (Edit.children n policy).perform s = (.ok cs, t)) (hc : c ∈ cs) :
    (t.node c).parent = .to (.node n) := by
  obtain ⟨ks, filled, hks, rfl, _, hloop⟩ := Edit.children_ok hcs
  refine forM_adopt_parent (fun c hc => ?_) hloop c hc
  rw [size_addVariables, size_fillAll]
  rcases Kid.mem_places hc with hk | hmade
  · have hold := Nat.lt_of_lt_of_le (kid_lt_size hs₀ hs hks hk) hs.nodes
    exact Nat.lt_of_lt_of_le hold (Nat.le_add_right ..)
  · exact hmade.2

end Store

namespace Walk.Tour

variable {policy : ParentPolicy} {stack left : List NodeId} {s s₀ t u : Store} {n c root : NodeId}
  {visits : List (Value × Store)}

/-- At the end of a tour a node refers to the last visit that gave it, and to what it referred to
before if none did. -/
theorem parent_eq (h : Tour policy stack s visits left u) (hs₀ : s₀.Closed) (hs : s₀.Extends s)
    (hc : c < s.nodes.size ∨ ∃ e ∈ visits, e.2.gives policy e.1 c = true) :
    (u.node c).parent =
      (visits.filter fun e => e.2.gives policy e.1 c).getLast?.elim (s.node c).parent
        fun e => .to e.1 := by
  induction h with
  | rest => rfl
  | @step n rest cs left s t u visits hcs _ ih =>
    have ht := Store.extends_of_children hs hcs
    have hst := Store.extends_of_children (.refl s) hcs
    by_cases hmem : c ∈ cs
    · -- this visit gives the node, and counts unless a later one does
      have hgives : s.gives policy (.node n) c = true := (Store.gives_iff hcs).mpr hmem
      rw [ih ht (Or.inl (Store.lt_size_of_mem_children hs₀ hs hcs hmem)),
        Store.parent_of_mem_children hs₀ hs hcs hmem, List.filter_cons, if_pos hgives,
        List.getLast?_cons]
      cases (visits.filter fun e => e.2.gives policy e.1 c).getLast? <;> rfl
    · have hgives : ¬s.gives policy (.node n) c = true := fun h => hmem ((Store.gives_iff hcs).mp h)
      rw [List.filter_cons, if_neg hgives]
      rcases hc with hsize | ⟨e, he, hgiven⟩
      · rw [ih ht (Or.inl (Nat.lt_of_lt_of_le hsize hst.nodes)),
          Store.node_children_of_not_mem hcs hmem hsize]
      · rcases List.mem_cons.mp he with rfl | he
        · exact absurd hgiven hgives
        · -- some later visit gives it, so what it referred to before plays no part
          rw [ih ht (Or.inr ⟨e, he, hgiven⟩)]
          have hmem : e ∈ visits.filter fun e => e.2.gives policy e.1 c :=
            List.mem_filter.mpr ⟨he, hgiven⟩
          cases hlast : (visits.filter fun e => e.2.gives policy e.1 c).getLast? with
          | none =>
            rw [List.getLast?_eq_none_iff.mp hlast] at hmem
            exact absurd hmem (by simp)
          | some f => rfl

/-- What is new and there is not given any more. -/
theorem not_gives_of_lt (h : Tour policy stack s visits left u) (hs₀ : s₀.Closed)
    (hs : s₀.Extends s) (hnew : s₀.nodes.size ≤ c) (hc : c < s.nodes.size) :
    ∀ e ∈ visits, e.2.gives policy e.1 c = false := by
  induction h with
  | rest => simp
  | @step n rest cs left s t u visits hcs _ ih =>
    have ht := Store.extends_of_children hs hcs
    have hst := Store.extends_of_children (.refl s) hcs
    intro e he
    rcases List.mem_cons.mp he with rfl | he
    · rw [Bool.eq_false_iff]
      intro hgives
      have hmem := (Store.gives_iff hcs).mp hgives
      exact absurd hc (Nat.not_lt.mpr (Store.new_of_mem_children hs₀ hs hcs hmem hnew))
    · exact ih ht (Nat.lt_of_lt_of_le hc hst.nodes) e he

/-- What is new is given by one visit at most. -/
theorem gives_once (h : Tour policy stack s visits left u) (hs₀ : s₀.Closed) (hs : s₀.Extends s)
    (hnew : s₀.nodes.size ≤ c) : ∀ e ∈ visits, ∀ f ∈ visits,
      e.2.gives policy e.1 c = true → f.2.gives policy f.1 c = true → e.1 = f.1 := by
  induction h with
  | rest => simp
  | @step n rest cs left s t u visits hcs htour ih =>
    have ht := Store.extends_of_children hs hcs
    -- once this visit has given it no other does
    have honly : s.gives policy (.node n) c = true →
        ∀ e ∈ visits, e.2.gives policy e.1 c = false := by
      intro hgives
      have hmem := (Store.gives_iff hcs).mp hgives
      exact htour.not_gives_of_lt hs₀ ht hnew (Store.lt_size_of_mem_children hs₀ hs hcs hmem)
    intro e he f hf hegives hfgives
    rcases List.mem_cons.mp he with rfl | he
    · rcases List.mem_cons.mp hf with rfl | hf
      · rfl
      · exact absurd hfgives (by simp [honly hegives f hf])
    · rcases List.mem_cons.mp hf with rfl | hf
      · exact absurd hegives (by simp [honly hfgives e he])
      · exact ih ht e he f hf hegives hfgives

end Walk.Tour

end SheetLint
