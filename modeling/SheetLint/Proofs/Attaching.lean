import SheetLint.Proofs.Intact
import SheetLint.Proofs.Tours

/-!
# Attaching the nodes of a document

What the nodes of a document refer to while it is walked: `Store.Attaching` says of each of them
that it refers to nothing yet, or to a node that is fit to be its parent. What is fit is left open.
It may be any node, or one of the containers; all that matters is that a container is fit to be the
parent of its children. Computing children keeps this up, whether it goes through or not
(`Attaching.children`), and can only fail under the strict policy, at a child that refers to another
node already (`Attaching.children_fails`).
-/

namespace SheetLint

namespace Store

variable {s t u s₀ : Store} {root n m c : NodeId} {policy : ParentPolicy} {fault : Fault}
  {Fit : NodeId → NodeId → Prop}

/-- What is found as a parent is a matter of the reference alone. -/
theorem parent?_congr (h : (t.node c).parent = (s.node c).parent) {found : Option Value} :
    t.parent? c = .ok found ↔ s.parent? c = .ok found := by
  cases found with
  | none => rw [parent?_eq_none, parent?_eq_none, h]
  | some v => rw [parent?_eq_some, parent?_eq_some, h]

/-- A document whose children refer to nothing, or to a node that is fit to be their parent. The
root refers to whatever it did. -/
structure Attaching (Fit : NodeId → NodeId → Prop) (s₀ : Store) (root : NodeId) (s : Store) :
    Prop where
  intact : s₀.Intact s
  top : (s.node root).parent = (s₀.node root).parent
  attached : ∀ n c, s₀.Contains root n c → s.parent? c = .ok none ∨
    ∃ m, Fit m c ∧ s.parent? c = .ok (some (.node m))

/-- A store in the midst of computing the children of `n`, which began in `s`: what is new since
then refers to nothing but `n`. -/
structure Computing (Fit : NodeId → NodeId → Prop) (s₀ : Store) (root : NodeId) (s : Store)
    (n : NodeId) (u : Store) : Prop where
  attaching : Attaching Fit s₀ root u
  made : ∀ c, s.nodes.size ≤ c → u.parent? c = .ok none ∨ u.parent? c = .ok (some (.node n))

/-- A child of something below the root, or new since the computation of children began. -/
def IsOffered (s₀ : Store) (root : NodeId) (s : Store) (n c : NodeId) : Prop :=
  s₀.Contains root n c ∨ s₀.nodes.size ≤ c ∧ s.nodes.size ≤ c

/-- What is listed below the root or made on the way is offered. -/
theorem isOffered_of_kid (hs₀ : s₀.Closed) (hs : s₀.Extends s)
    (hn : s₀.Below root n ∨ s₀.nodes.size ≤ n) {ks : List Kid} (hks : s.kids n = some ks)
    (hc : .node c ∈ ks ∨ s.nodes.size ≤ c) : s₀.IsOffered root s n c := by
  rcases hc with hlisted | hnew
  · have hold : n < s₀.nodes.size := by
      rcases Nat.lt_or_ge n s₀.nodes.size with hold | hnew
      · exact hold
      · rw [kids_new hs hnew] at hks
        cases hks
        exact absurd hlisted (by simp)
    rw [kids_extends hs₀ hs hold] at hks
    rcases hn with hbelow | hnew
    · exact Or.inl ⟨hbelow, ks, hks, hlisted⟩
    · exact absurd hold (Nat.not_lt.mpr hnew)
  · exact Or.inr ⟨Nat.le_trans hs.nodes hnew, hnew⟩

/-- Nothing but the references of what was there matters. -/
theorem Attaching.of_parents (hs₀ : s₀.WellFormed root) (h : Attaching Fit s₀ root s)
    (ht : s₀.Intact t) (hparent : ∀ c < s₀.nodes.size, (t.node c).parent = (s.node c).parent) :
    Attaching Fit s₀ root t where
  intact := ht
  top := (hparent root hs₀.there).trans h.top
  attached n c hc := by
    have hsame := hparent c (hc.2.lt_size hs₀.closed)
    refine (h.attached n c hc).imp (parent?_congr hsame).mpr ?_
    rintro ⟨m, hm, hfound⟩
    exact ⟨m, hm, (parent?_congr hsame).mpr hfound⟩

/-! ## In the midst of a computation -/

namespace Computing

/-- When the computation begins nothing is new. -/
theorem begin (h : Attaching Fit s₀ root s) (n : NodeId) : Computing Fit s₀ root s n s where
  attaching := h
  made c hc := by
    refine Or.inl (parent?_eq_none.mpr (Or.inl ?_))
    rw [node_of_size_le hc]

theorem fill (hs₀ : s₀.WellFormed root) (h : Computing Fit s₀ root s n u) (c self : NodeId) :
    Computing Fit s₀ root s n (u.fill c self) where
  attaching := h.attaching.of_parents hs₀ (h.attaching.intact.fill c self)
    fun d _ => parent_fill u c self d
  made d hd := by
    have hsame := parent_fill u c self d
    exact (h.made d hd).imp (parent?_congr hsame).mpr (parent?_congr hsame).mpr

/-- A new variable refers to nothing. -/
theorem addVariable (hs₀ : s₀.WellFormed root) (h : Computing Fit s₀ root s n u) (self : NodeId)
    (name : Value) : Computing Fit s₀ root s n (u.addVariable self name) where
  attaching := by
    refine h.attaching.of_parents hs₀ (h.attaching.intact.addVariable self name) fun d hd => ?_
    rw [node_addVariable (Nat.lt_of_lt_of_le hd h.attaching.intact.extends_.nodes)]
  made d hd := by
    by_cases hnew : d = u.nodes.size
    · -- the variable itself, which is not attached yet
      refine Or.inl (parent?_eq_none.mpr (Or.inl ?_))
      rw [Store.addVariable, node_addNode, if_pos hnew]
    · have hsame : ((u.addVariable self name).node d).parent = (u.node d).parent := by
        rw [Store.addVariable, node_addNode, if_neg hnew]
      exact (h.made d hd).imp (parent?_congr hsame).mpr (parent?_congr hsame).mpr

theorem note (hs₀ : s₀.WellFormed root) (h : Computing Fit s₀ root s n u) (m : Message) :
    Computing Fit s₀ root s n (u.note m) where
  attaching := h.attaching.of_parents hs₀ (h.attaching.intact.note m) fun _ _ => rfl
  made d hd := (h.made d hd).imp (parent?_congr rfl).mpr (parent?_congr rfl).mpr

/-- Attaching a child that is offered keeps this up: a reference changes only where it now leads to
the container, which is fit to be its parent. -/
theorem setParent (hs₀ : s₀.WellFormed root) (htop : ∀ n, ¬s₀.Contains root n root)
    (hfit : ∀ n c, s₀.Contains root n c → Fit n c)
    (h : Computing Fit s₀ root s n u) (hc : s₀.IsOffered root s n c) :
    Computing Fit s₀ root s n (u.setParent (.node c) (.node n)) := by
  -- a reference changes only where it now leads to the container
  have hcases : ∀ d found, u.parent? d = .ok found →
      (u.setParent (.node c) (.node n)).parent? d = .ok found ∨
        d = c ∧ (u.setParent (.node c) (.node n)).parent? d = .ok (some (.node n)) := by
    intro d found hfound
    by_cases hd : c = d ∧ d < u.nodes.size
    · refine Or.inr ⟨hd.1.symm, parent?_eq_some.mpr ?_⟩
      rw [node_setParent, if_pos hd]
    · refine Or.inl ((parent?_congr ?_).mpr hfound)
      rw [node_setParent, if_neg hd]
  refine ⟨⟨h.attaching.intact.setParent c _, ?_, fun k d hd => ?_⟩, fun d hd => ?_⟩
  · -- the root is offered to nobody
    have hne : ¬(c = root ∧ root < u.nodes.size) := by
      rintro ⟨rfl, _⟩
      rcases hc with hcontains | ⟨hnew, _⟩
      · exact htop n hcontains
      · exact absurd hs₀.there (Nat.not_lt.mpr hnew)
    rw [node_setParent, if_neg hne]
    exact h.attaching.top
  · have hown : d = c → Fit n d := by
      rintro rfl
      rcases hc with hcontains | ⟨hnew, _⟩
      · exact hfit n d hcontains
      · exact absurd (hd.2.lt_size hs₀.closed) (Nat.not_lt.mpr hnew)
    rcases h.attaching.attached k d hd with hnone | ⟨m, hm, hsome⟩
    · rcases hcases d none hnone with hkept | ⟨hdc, hwritten⟩
      · exact Or.inl hkept
      · exact Or.inr ⟨n, hown hdc, hwritten⟩
    · rcases hcases d _ hsome with hkept | ⟨hdc, hwritten⟩
      · exact Or.inr ⟨m, hm, hkept⟩
      · exact Or.inr ⟨n, hown hdc, hwritten⟩
  · rcases h.made d hd with hnone | hsome
    · exact (hcases d none hnone).imp_right And.right
    · exact Or.inr ((hcases d _ hsome).elim id And.right)

theorem attach (hs₀ : s₀.WellFormed root) (htop : ∀ n, ¬s₀.Contains root n root)
    (hfit : ∀ n c, s₀.Contains root n c → Fit n c)
    (h : Computing Fit s₀ root s n u) (hc : s₀.IsOffered root s n c)
    (ha : u.attach (.node c) (.node n) policy = .ok t) : Computing Fit s₀ root s n t := by
  rcases attach_cases ha with rfl | rfl | ⟨m, rfl⟩
  · exact h
  · exact h.setParent hs₀ htop hfit hc
  · exact (h.note hs₀ m).setParent hs₀ htop hfit hc

/-- What is offered refers to nothing yet, to the container at hand, or to another node that is fit
to be its parent. -/
theorem parent_of_offered (h : Computing Fit s₀ root s n u) (hc : s₀.IsOffered root s n c) :
    u.parent? c = .ok none ∨ ∃ m, u.parent? c = .ok (some (.node m)) ∧
      (m = n ∨ Fit m c ∧ s₀.Contains root n c) := by
  rcases hc with hcontains | ⟨_, hnew⟩
  · rcases h.attaching.attached n c hcontains with hnone | ⟨m, hm, hsome⟩
    · exact Or.inl hnone
    · exact Or.inr ⟨m, hsome, Or.inr ⟨hm, hcontains⟩⟩
  · rcases h.made c hnew with hnone | hsome
    · exact Or.inl hnone
    · exact Or.inr ⟨n, hsome, Or.inl rfl⟩

/-- A child that cannot be attached refers to another node, under the strict policy. -/
theorem attach_fails (h : Computing Fit s₀ root s n u) (hc : s₀.IsOffered root s n c)
    (ha : u.attach (.node c) (.node n) policy = .error fault) :
    policy = .strict ∧ (∃ kind line parentKind parentLine,
        fault = .secondParent kind line parentKind parentLine) ∧
      s₀.Contains root n c ∧ ∃ m, Fit m c ∧ m ≠ n := by
  rcases h.parent_of_offered hc with hnone | ⟨m, hsome, hwho⟩
  · exact absurd ((attach_of_none hnone).symm.trans ha) (by simp)
  · by_cases hmn : m = n
    · rw [hmn] at hsome
      exact absurd ((attach_of_same hsome).symm.trans ha) (by simp)
    · obtain ⟨hm, hn⟩ := hwho.resolve_left hmn
      -- all that is said about the two can be read, so the fault is that there are two
      rcases Store.attach_fails ha with herror | ⟨current, hcurrent, _, hwhy⟩
      · exact absurd (herror.symm.trans hsome) (by simp)
      · rw [hsome] at hcurrent
        cases hcurrent
        rcases hwhy with ⟨hstrict, hsecond⟩ | ⟨_, herror⟩
        · obtain ⟨kind, line, parentKind, parentLine, hok⟩ :=
            h.attaching.intact.secondParent_node c m
          rcases hsecond with hsecond | herror
          · rw [hok] at hsecond
            cases hsecond
            exact ⟨hstrict, ⟨kind, line, parentKind, parentLine, rfl⟩, hn, m, hm, hmn⟩
          · exact absurd (hok.symm.trans herror) (by simp)
        · have hok := u.reparented_node (h.attaching.intact.present c).1 m n
          exact absurd (hok.symm.trans herror) (by simp)

end Computing

/-! ## One step -/

namespace Attaching

variable (hs₀ : s₀.WellFormed root) (htop : ∀ n, ¬s₀.Contains root n root)
  (hfit : ∀ n c, s₀.Contains root n c → Fit n c)
include hs₀ htop hfit

/-- Nothing else becomes of the references while the children of a node are computed. -/
theorem children (h : Attaching Fit s₀ root s) (hn : s₀.Below root n ∨ s₀.nodes.size ≤ n)
    (policy : ParentPolicy) : Attaching Fit s₀ root ((Edit.children n policy).perform s).2 := by
  obtain ⟨ks, hks⟩ := hs₀.exists_kids h.intact.extends_ hn
  have hcomputed : Computing Fit s₀ root s n ((Edit.children n policy).perform s).2 := by
    refine Edit.children_preserves _ (s₀.IsOffered root s n) (fun _ c hu _ => hu.fill hs₀ c n)
      (fun _ name hu => hu.addVariable hs₀ n name)
      (fun _ _ _ hu hc ha => hu.attach hs₀ htop hfit hc ha) (.begin h n) fun c hc => ?_
    exact isOffered_of_kid hs₀.closed h.intact.extends_ hn hks
      (hc.imp_left fun hlisted => hlisted ks hks)
  exact hcomputed.attaching

/-- Computing the children of a node fails only under the strict policy, and only where one of them
refers to another node. -/
theorem children_fails (h : Attaching Fit s₀ root s) (hn : s₀.Below root n ∨ s₀.nodes.size ≤ n)
    (hfail : (Edit.children n policy).perform s = (.error fault, t)) :
    policy = .strict ∧ (∃ kind line parentKind parentLine,
        fault = .secondParent kind line parentKind parentLine) ∧
      ∃ c, s₀.Contains root n c ∧ ∃ m, Fit m c ∧ m ≠ n := by
  obtain ⟨ks, hks⟩ := hs₀.exists_kids h.intact.extends_ hn
  have hplaces : ∀ c ∈ Kid.places s.nodes.size ks, s₀.IsOffered root s n c := fun c hc =>
    isOffered_of_kid hs₀.closed h.intact.extends_ hn hks ((Kid.mem_places hc).imp_right And.left)
  obtain ⟨c, hc, u, hu, ha⟩ := Edit.children_fails (Computing Fit s₀ root s n)
    (s₀.IsOffered root s n) (fun _ c hu _ => hu.fill hs₀ c n)
    (fun _ name hu => hu.addVariable hs₀ n name)
    (fun _ _ _ hu hc ha => hu.attach hs₀ htop hfit hc ha) (Computing.begin h n) hks
    (h.intact.present n) hplaces hfail
  obtain ⟨hpolicy, hfault, hcontains, hother⟩ := hu.attach_fails (hplaces c hc) ha
  exact ⟨hpolicy, hfault, c, hcontains, hother⟩

/-- So it is along a tour. -/
theorem tour (h : Attaching Fit s₀ root s) {stack left : List NodeId}
    {visits : List (Value × Store)} (htour : Walk.Tour policy stack s visits left u)
    (hstack : ∀ n ∈ stack, s₀.Below root n ∨ s₀.nodes.size ≤ n) : Attaching Fit s₀ root u := by
  induction htour with
  | rest => exact h
  | @step n rest cs left s t u visits hcs _ ih =>
    have hn := hstack n (List.mem_cons_self ..)
    have ht := h.children hs₀ htop hfit hn policy
    rw [hcs] at ht
    exact ih ht (below_stack hs₀.closed h.intact.extends_ hstack hcs)

end Attaching

end Store

end SheetLint
