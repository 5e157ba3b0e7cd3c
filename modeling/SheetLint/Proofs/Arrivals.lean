import SheetLint.Proofs.Settling

/-!
# Nodes that have arrived

`Store.Standing` says of a node that its location and its parent are where they end up, as they are
once its container was asked for its children. From then on nothing changes about it
(`children_settles`).

Where the container has arrived, asking it for its children cannot fail, and what it gives are the
children that the document lists, all of which have arrived, with a new variable for each name
(`children_arrive`). Variables are made anew each time, so what a child is known by is its `Spot`
and not its place.
-/

namespace SheetLint

namespace Store

variable {s t s₀ : Store} {root n m c : NodeId} {p q : Position}

/-! ## Places that are reached -/

/-- Where a visited node comes from: it is a node of the document, or a variable made for a name
under one. -/
inductive Spot where
  | listed (n : NodeId)
  | made (container : NodeId) (name : Value)

/-- A node has arrived: its location is final, and it refers to its container as its parent. -/
def Standing (s₀ : Store) (root : NodeId) (s : Store) (n : NodeId) : Spot → Prop
  | .listed m => n = m ∧ s₀.Final root m (s.node m).position ∧
      (m = root ∨ ∃ k, s₀.Below root k ∧ s₀.Leads k m ∧ (s.node m).parent = .to (.node k))
  | .made k name => s₀.nodes.size ≤ n ∧ s₀.Holds name ∧ ∃ p, s₀.Final root k p ∧
      s.node n = { position := p, form := .expression (.variable name), parent := .to (.node k) }

/-- What has arrived in one store has arrived in a later one. -/
def Onward (s₀ : Store) (root : NodeId) (s t : Store) : Prop :=
  ∀ n spot, s₀.Standing root s n spot → s₀.Standing root t n spot

theorem Onward.refl : s₀.Onward root s s := fun _ _ h => h

theorem Onward.trans {u : Store} (h : s₀.Onward root s t) (h' : s₀.Onward root t u) :
    s₀.Onward root s u :=
  fun n spot hn => h' n spot (h n spot hn)

theorem Onward.of_nodes (h : ∀ n, t.node n = s.node n) : s₀.Onward root s t := by
  intro n spot hn
  cases spot with
  | listed m =>
    obtain ⟨rfl, hfinal, hparent⟩ := hn
    refine ⟨rfl, ?_, ?_⟩ <;> rwa [h]
  | made k name =>
    obtain ⟨hnew, hname, p, hp, hnode⟩ := hn
    exact ⟨hnew, hname, p, hp, by rwa [h]⟩

namespace Standing

variable {spot : Spot} {k : NodeId}

/-- What stands anywhere is there. -/
theorem lt_size (hs₀ : s₀.Closed) (htree : s₀.TreeFrom root) (hs : s₀.Extends s)
    (h : s₀.Standing root s n spot) : n < s.nodes.size := by
  cases spot with
  | listed m =>
    obtain ⟨rfl, hfinal, _⟩ := h
    exact Nat.lt_of_lt_of_le (hfinal.isBelow.lt_size hs₀ htree.there) hs.nodes
  | made k name =>
    obtain ⟨_, _, p, _, hnode⟩ := h
    rcases Nat.lt_or_ge n s.nodes.size with hn | hn
    · exact hn
    · rw [node_of_size_le hn] at hnode
      exact absurd (congrArg Node.form hnode) (by simp)

/-- A final location is not completed any further. -/
theorem fill (hs₀ : s₀.Closed) (htree : s₀.TreeFrom root) (hs : s₀.Settling root s)
    (h : s₀.Standing root s k spot) (hc : s₀.Below root n ∧ s₀.Leads n c ∨ k < c) :
    s₀.Standing root (s.fill c n) k spot := by
  cases spot with
  | listed m =>
    obtain ⟨rfl, hfinal, hattached⟩ := h
    refine ⟨rfl, ?_, by rwa [parent_fill]⟩
    rw [node_fill]
    split
    · rename_i hk
      obtain ⟨rfl, hexpr⟩ := hk
      rcases hc with ⟨hbelow, hleads⟩ | hlt
      · rw [isExpression_extends hs₀ hs.follows.extends_ (hleads.lt_size hs₀)] at hexpr
        obtain ⟨q, hq⟩ := exists_final hbelow
        have hp := hfinal.unique htree (.filled hq hleads hexpr)
        simp only
        rw [hp, Position.completed_of_towards (hs.towards hq)]
        exact .filled hq hleads hexpr
      · exact absurd hlt (Nat.lt_irrefl _)
    · exact hfinal
  | made m name =>
    obtain ⟨hnew, hname, p, hp, hnode⟩ := h
    refine ⟨hnew, hname, p, hp, ?_⟩
    have hne : ¬(k = c ∧ s.isExpression c) := by
      rintro ⟨rfl, _⟩
      rcases hc with ⟨_, hleads⟩ | hlt
      · exact absurd (hleads.lt_size hs₀) (Nat.not_lt.mpr hnew)
      · exact absurd hlt (Nat.lt_irrefl _)
    rw [node_fill, if_neg hne]
    exact hnode

/-- A node stands where it did when a child is attached to its container, or something newer is
attached. -/
theorem setParent (hs₀ : s₀.Closed) (h : s₀.Standing root s k spot)
    (hc : s₀.Below root n ∧ s₀.Leads n c ∨ k < c) :
    s₀.Standing root (s.setParent (.node c) (.node n)) k spot := by
  by_cases hk : c = k ∧ k < s.nodes.size
  · obtain ⟨rfl, hsize⟩ := hk
    rcases hc with ⟨hbelow, hleads⟩ | hlt
    · cases spot with
      | listed m =>
        obtain ⟨rfl, hfinal, _⟩ := h
        refine ⟨rfl, ?_, Or.inr ⟨n, hbelow, hleads, ?_⟩⟩ <;>
          rw [node_setParent, if_pos ⟨rfl, hsize⟩]
        exact hfinal
      | made m name => exact absurd (hleads.lt_size hs₀) (Nat.not_lt.mpr h.1)
    · exact absurd hlt (Nat.lt_irrefl _)
  · have hnode : (s.setParent (.node c) (.node n)).node k = s.node k := by
      rw [node_setParent, if_neg hk]
    cases spot with
    | listed m =>
      obtain ⟨rfl, hfinal, hattached⟩ := h
      refine ⟨rfl, ?_, ?_⟩ <;> rwa [hnode]
    | made m name =>
      obtain ⟨hnew, hname, p, hp, h⟩ := h
      exact ⟨hnew, hname, p, hp, by rwa [hnode]⟩

/-- A new variable moves nothing. -/
theorem addVariable (hk : k < s.nodes.size) (h : s₀.Standing root s k spot) (n : NodeId)
    (name : Value) : s₀.Standing root (s.addVariable n name) k spot := by
  have hnode : (s.addVariable n name).node k = s.node k := node_addVariable hk name
  cases spot with
  | listed m =>
    obtain ⟨rfl, hfinal, hattached⟩ := h
    refine ⟨rfl, ?_, ?_⟩ <;> rwa [hnode]
  | made m name =>
    obtain ⟨hnew, hname, p, hp, h⟩ := h
    exact ⟨hnew, hname, p, hp, by rwa [hnode]⟩

end Standing

/-- A document keeps settling while children are computed, and what has arrived stays. -/
theorem children_settles (hs₀ : s₀.Closed) (htree : s₀.TreeFrom root) (hs : s₀.Settling root s)
    (hn : s₀.Below root n ∨ s₀.nodes.size ≤ n) (policy : ParentPolicy) :
    s₀.Settling root ((Edit.children n policy).perform s).2 ∧
      s₀.Onward root s ((Edit.children n policy).perform s).2 := by
  -- a child that is touched is listed in the document, or was not there before
  let Child (c : NodeId) : Prop := s₀.Below root n ∧ s₀.Leads n c ∨ s.nodes.size ≤ c
  have hisChild : ∀ {c}, Child c → Settling.IsChild s₀ root n c := fun hc =>
    hc.imp_right (Nat.le_trans hs.follows.extends_.nodes)
  have hbefore : ∀ {k spot c}, s₀.Standing root s k spot → Child c →
      s₀.Below root n ∧ s₀.Leads n c ∨ k < c := fun hk hc =>
    hc.imp_right (Nat.lt_of_lt_of_le (hk.lt_size hs₀ htree hs.follows.extends_))
  refine Edit.children_keeps
    (fun t => s₀.Settling root t ∧ s₀.Onward root s t) Child
    (fun t c ⟨ht, hon⟩ hc => ⟨ht.fill hs₀ htree (hisChild hc), fun k spot hk =>
      (hon k spot hk).fill hs₀ htree ht (hbefore hk hc)⟩)
    (fun t name ⟨ht, hon⟩ => ⟨ht.addVariable hs₀ htree n name, fun k spot hk =>
      (hon k spot hk).addVariable ((hon k spot hk).lt_size hs₀ htree ht.follows.extends_) n name⟩)
    (fun t c ⟨ht, hon⟩ hc => ⟨ht.setParent hs₀ htree (hisChild hc), fun k spot hk =>
      (hon k spot hk).setParent hs₀ (hbefore hk hc)⟩)
    (fun t m ⟨ht, hon⟩ => ⟨ht.of_rest hs₀ htree
      (ht.follows.of_agents (ht.follows.extends_.note m) rfl rfl) rfl, hon⟩)
    ⟨hs, Onward.refl⟩ (fun c hc => ?_) policy
  rcases hc with hlisted | hnew
  · rcases hn with hbelow | hnew
    · have hkids := kids_extends hs₀ hs.follows.extends_ (hbelow.lt_size hs₀ htree.there)
      obtain ⟨ks, hks⟩ := Option.isSome_iff_exists.mp (htree.listed n hbelow)
      exact Or.inl ⟨hbelow, ks, hks, hlisted ks (hkids.trans hks)⟩
    · exact absurd (hlisted [] (kids_new hs.follows.extends_ hnew)) (by simp)
  · exact Or.inr hnew

/-! ## Children that arrive -/

/-- The spot of a child that a node lists. -/
def Spot.ofKid (n : NodeId) : Kid → Spot
  | .node c => .listed c
  | .variable name => .made n name

/-- The spots of the children of what is at a spot. -/
def spots (s : Store) : Spot → List Spot
  | .listed n => ((s.kids n).getD []).map (Spot.ofKid n)
  | .made .. => []

/-- A child that a node is about to adopt, or has adopted: listed in the document, or a variable
that stands where the node does. -/
def Arriving (s₀ s : Store) (n c : NodeId) : Spot → Prop
  | .listed m => c = m ∧ s₀.Leads n m
  | .made k name => k = n ∧ s₀.nodes.size ≤ c ∧ s₀.Holds name ∧ ∃ r,
      (r = .none ∨ r = .to (.node n)) ∧ s.node c =
        { position := (s.node n).position, form := .expression (.variable name), parent := r }

namespace Arriving

variable {spot spot' : Spot} {c' : NodeId}

/-- Listed children come before all that is new. -/
theorem leads_or_lt (hbelow : s₀.Below root n) (h : s₀.Arriving s n c spot)
    (hm : m < s₀.nodes.size) : s₀.Below root n ∧ s₀.Leads n c ∨ m < c := by
  cases spot with
  | listed k =>
    obtain ⟨rfl, hleads⟩ := h
    exact Or.inl ⟨hbelow, hleads⟩
  | made k name => exact Or.inr (Nat.lt_of_lt_of_le hm h.2.1)

theorem isChild (hbelow : s₀.Below root n) (h : s₀.Arriving s n c spot) :
    Settling.IsChild s₀ root n c := by
  cases spot with
  | listed k =>
    obtain ⟨rfl, hleads⟩ := h
    exact Or.inl ⟨hbelow, hleads⟩
  | made k name => exact Or.inr h.2.1

/-- Whichever child is completed, one that is arriving is so still. -/
theorem fill (h' : s₀.Arriving s n c' spot') (c : NodeId) :
    s₀.Arriving (s.fill c n) n c' spot' := by
  cases spot' with
  | listed k => exact h'
  | made k name =>
    obtain ⟨rfl, hnew, hname, r, hr, hnode⟩ := h'
    have hcontainer : ((s.fill c k).node k).position = (s.node k).position :=
      position_fillAll k [c] s
    refine ⟨rfl, hnew, hname, r, hr, ?_⟩
    rw [hcontainer, node_fill]
    split
    · -- a variable that stands where its container does has nothing to complete
      rename_i hc
      obtain ⟨rfl, _⟩ := hc
      rw [hnode]
      simp only
      rw [Position.completed_self]
    · exact hnode

/-- And whichever is attached. -/
theorem setParent (h' : s₀.Arriving s n c' spot') (c : NodeId) :
    s₀.Arriving (s.setParent (.node c) (.node n)) n c' spot' := by
  cases spot' with
  | listed k => exact h'
  | made k name =>
    obtain ⟨rfl, hnew, hname, r, hr, hnode⟩ := h'
    have hcontainer : ((s.setParent (.node c) (.node k)).node k).position =
        (s.node k).position := by
      rw [node_setParent]
      split <;> rfl
    refine ⟨rfl, hnew, hname, ?_⟩
    rw [hcontainer, node_setParent]
    split
    · refine ⟨.to (.node k), Or.inr rfl, ?_⟩
      rw [hnode]
    · exact ⟨r, hr, hnode⟩

/-- A variable that was adopted has arrived. -/
theorem standing {name : Value} (h : s₀.Arriving s n c (.made n name))
    (hn : s₀.Standing root s n (.listed n)) (hparent : (s.node c).parent = .to (.node n)) :
    s₀.Standing root s c (.made n name) := by
  obtain ⟨_, hnew, hname, r, _, hnode⟩ := h
  refine ⟨hnew, hname, _, hn.2.1, ?_⟩
  rw [hnode] at hparent ⊢
  rw [show r = .to (.node n) from hparent]

/-- What has arrived stays so while siblings are adopted. -/
theorem standing_fill (hs₀ : s₀.Closed) (htree : s₀.TreeFrom root) (hs : s₀.Settling root s)
    (hn : s₀.Standing root s n (.listed n)) (h : s₀.Arriving s n c spot)
    (h' : s₀.Arriving s n c' spot') (hc' : s₀.Standing root s c' spot') :
    s₀.Standing root (s.fill c n) c' spot' := by
  have hbelow := hn.2.1.isBelow
  cases spot' with
  | listed k =>
    refine hc'.fill hs₀ htree hs (h.leads_or_lt hbelow ?_)
    obtain ⟨rfl, hleads⟩ := h'
    exact hleads.lt_size hs₀
  | made k name =>
    obtain rfl := h'.1
    refine (h'.fill c).standing (hn.fill hs₀ htree hs (h.leads_or_lt hbelow ?_)) ?_
    · exact hbelow.lt_size hs₀ htree.there
    · obtain ⟨_, _, p, _, hnode⟩ := hc'
      rw [node_fill]
      split
      · rename_i hk
        rw [← hk.1, hnode]
      · rw [hnode]

/-- Nor does attaching a sibling move it. -/
theorem standing_setParent (hs₀ : s₀.Closed) (htree : s₀.TreeFrom root)
    (hn : s₀.Standing root s n (.listed n)) (h : s₀.Arriving s n c spot)
    (h' : s₀.Arriving s n c' spot') (hc' : s₀.Standing root s c' spot') :
    s₀.Standing root (s.setParent (.node c) (.node n)) c' spot' := by
  have hbelow := hn.2.1.isBelow
  cases spot' with
  | listed k =>
    refine hc'.setParent hs₀ (h.leads_or_lt hbelow ?_)
    obtain ⟨rfl, hleads⟩ := h'
    exact hleads.lt_size hs₀
  | made k name =>
    obtain rfl := h'.1
    refine (h'.setParent c).standing (hn.setParent hs₀ (h.leads_or_lt hbelow ?_)) ?_
    · exact hbelow.lt_size hs₀ htree.there
    · obtain ⟨_, _, p, _, hnode⟩ := hc'
      rw [node_setParent]
      split
      · rfl
      · rw [hnode]

end Arriving

/-- The location of a child is final once it is completed from a container that has arrived. -/
theorem final_fill (hs₀ : s₀.Closed) (hs : s₀.Settling root s)
    (hn : s₀.Standing root s n (.listed n)) (hleads : s₀.Leads n c) :
    s₀.Final root c ((s.fill c n).node c).position := by
  have hfinal := hn.2.1
  have hexpr := isExpression_extends hs₀ hs.follows.extends_ (hleads.lt_size hs₀)
  rw [node_fill]
  cases he : s₀.isExpression c with
  | true =>
    rw [if_pos ⟨rfl, by rw [hexpr, he]⟩]
    simp only
    rw [hs.filled hfinal hleads he]
    exact .filled hfinal hleads he
  | false =>
    rw [if_neg (by rw [hexpr, he]; simp), hs.own hfinal.isBelow hleads he]
    exact .own hfinal hleads he

namespace Arriving

variable {spot : Spot}

/-- A child that is about to be adopted is there. -/
theorem lt_size (hs₀ : s₀.Closed) (hext : s₀.Extends s) (hc : s₀.Arriving s n c spot) :
    c < s.nodes.size := by
  cases spot with
  | listed m =>
    obtain ⟨rfl, hleads⟩ := hc
    exact Nat.lt_of_lt_of_le (hleads.lt_size hs₀) hext.nodes
  | made k name =>
    obtain ⟨_, _, _, r, _, hnode⟩ := hc
    rcases Nat.lt_or_ge c s.nodes.size with hlt | hge
    · exact hlt
    · rw [node_of_size_le hge] at hnode
      exact absurd (congrArg Node.form hnode) (by simp)

/-- A child that is about to be adopted has no parent but the node that adopts it. -/
theorem unattached_or (hs : s₀.Settling root s) (hbelow : s₀.Below root n)
    (hc : s₀.Arriving s n c spot) :
    s.parent? c = .ok none ∨ s.parent? c = .ok (some (.node n)) := by
  cases spot with
  | listed m =>
    obtain ⟨rfl, hleads⟩ := hc
    exact hs.attached hbelow hleads
  | made k name =>
    obtain ⟨rfl, _, _, r, hr, hnode⟩ := hc
    rw [parent?_eq_none, parent?_eq_some, hnode]
    rcases hr with rfl | rfl
    · exact Or.inl (Or.inl rfl)
    · exact Or.inr rfl

/-- A child has arrived once it is attached and its location is final. -/
theorem arrived (hn : s₀.Standing root s n (.listed n)) (hc : s₀.Arriving s n c spot)
    (hfinal : s₀.Leads n c → s₀.Final root c (s.node c).position)
    (hto : (s.node c).parent = .to (.node n)) : s₀.Standing root s c spot := by
  cases spot with
  | listed m =>
    obtain ⟨rfl, hleads⟩ := hc
    exact ⟨rfl, hfinal hleads, Or.inr ⟨n, hn.2.1.isBelow, hleads, hto⟩⟩
  | made k name =>
    obtain rfl := hc.1
    exact hc.standing hn hto

end Arriving

/-- A child that is adopted by a node that has arrived cannot be refused, and has arrived then. -/
theorem adopt_arrives (hs₀ : s₀.Closed) (htree : s₀.TreeFrom root) (hs : s₀.Settling root s)
    (hn : s₀.Standing root s n (.listed n)) {spot : Spot} (hc : s₀.Arriving s n c spot)
    (policy : ParentPolicy) :
    ∃ t, (Edit.adopt n policy c).perform s = (.ok (), t) ∧ s₀.Settling root t ∧
      s₀.Standing root t n (.listed n) ∧ s₀.Standing root t c spot ∧
      ∀ c' spot', s₀.Arriving s n c' spot' → s₀.Arriving t n c' spot' ∧
        (s₀.Standing root s c' spot' → s₀.Standing root t c' spot') := by
  have hbelow := hn.2.1.isBelow
  have hlt := hc.leads_or_lt hbelow (hbelow.lt_size hs₀ htree.there)
  -- first the location is completed ...
  have hs₁ := hs.fill hs₀ htree (hc.isChild hbelow)
  have hn₁ := hn.fill hs₀ htree hs hlt
  have hc₁ := hc.fill c
  have hothers : ∀ c' spot', s₀.Arriving s n c' spot' → s₀.Arriving (s.fill c n) n c' spot' ∧
      (s₀.Standing root s c' spot' → s₀.Standing root (s.fill c n) c' spot') :=
    fun c' spot' h' => ⟨h'.fill c, hc.standing_fill hs₀ htree hs hn h'⟩
  have hfinal := final_fill hs₀ hs hn (c := c)
  -- ... and then the child is attached, unless it is already
  rw [Edit.perform_adopt]
  rcases hc₁.unattached_or hs₁ hbelow with hnone | hsome
  · rw [attach_of_none hnone]
    have hsize := hc₁.lt_size hs₀ hs₁.follows.extends_
    have hnode : ((s.fill c n).setParent (.node c) (.node n)).node c =
        { (s.fill c n).node c with parent := .to (.node n) } := by
      rw [node_setParent, if_pos ⟨rfl, hsize⟩]
    have hn₂ := hn₁.setParent hs₀ hlt
    refine ⟨_, rfl, hs₁.setParent hs₀ htree (hc.isChild hbelow), hn₂, ?_, ?_⟩
    · refine (hc₁.setParent c).arrived hn₂ (fun hleads => ?_) ?_ <;> rw [hnode]
      exact hfinal hleads
    · intro c' spot' h'
      obtain ⟨h₁, hstand⟩ := hothers c' spot' h'
      exact ⟨h₁.setParent c, fun hc' => hc₁.standing_setParent hs₀ htree hn₁ h₁ (hstand hc')⟩
  · rw [attach_of_same hsome]
    exact ⟨_, rfl, hs₁, hn₁, hc₁.arrived hn₁ hfinal (parent?_eq_some.mp hsome), hothers⟩

/-- Children that are adopted one after the other all arrive. -/
theorem forM_adopt_arrive (hs₀ : s₀.Closed) (htree : s₀.TreeFrom root) (policy : ParentPolicy) :
    ∀ {cs : List NodeId} {spots : List Spot} {s : Store}, s₀.Settling root s →
      s₀.Standing root s n (.listed n) → List.Forall₂ (s₀.Arriving s n) cs spots →
      ∃ t, (cs.forM (Edit.adopt n policy)).perform s = (.ok ⟨⟩, t) ∧ s₀.Settling root t ∧
        List.Forall₂ (s₀.Standing root t) cs spots ∧
        ∀ c' spot', s₀.Arriving s n c' spot' → s₀.Standing root s c' spot' →
          s₀.Standing root t c' spot'
  | [], [], s, hs, _, _ => ⟨s, rfl, hs, .nil, fun _ _ _ h => h⟩
  | c :: cs, spot :: spots, s, hs, hn, .cons hc hcs => by
    obtain ⟨u, hadopt, hu, hnu, hcu, hothers⟩ := adopt_arrives hs₀ htree hs hn hc policy
    have hcsu : List.Forall₂ (s₀.Arriving u n) cs spots :=
      hcs.imp fun c' spot' h' => (hothers c' spot' h').1
    obtain ⟨t, hloop, ht, hstanding, hkept⟩ := forM_adopt_arrive hs₀ htree policy hu hnu hcsu
    refine ⟨t, ?_, ht, .cons ?_ hstanding, fun c' spot' h' hc' => ?_⟩
    · rw [Edit.forM_cons, Edit.perform_bind_ok hadopt]
      exact hloop
    · exact hkept c spot (hothers c spot hc).1 hcu
    · exact hkept c' spot' (hothers c' spot' h').1 ((hothers c' spot' h').2 hc')

/-- What is collected for a node that has arrived is about to arrive. -/
theorem collected_arriving (hs₀ : s₀.Closed) (htree : s₀.TreeFrom root) (hs : s₀.Settling root s)
    (hn : s₀.Standing root s n (.listed n)) {ks : List Kid} (hks : s₀.kids n = some ks)
    {filled : List NodeId} (hfilled : ∀ c ∈ filled, .node c ∈ ks) :
    let u := (s.fillAll n filled).addVariables n (Kid.names ks)
    s₀.Settling root u ∧ s₀.Standing root u n (.listed n) ∧
      List.Forall₂ (s₀.Arriving u n) (Kid.places s.nodes.size ks) (ks.map (Spot.ofKid n)) := by
  intro u
  have hbelow := hn.2.1.isBelow
  have hu : s₀.Settling root u ∧ s₀.Standing root u n (.listed n) := by
    let P (t : Store) : Prop := s₀.Settling root t ∧ s₀.Standing root t n (.listed n)
    have hfill : ∀ t c, P t → s₀.Leads n c → P (t.fill c n) := fun t c ⟨ht, hn⟩ hc =>
      ⟨ht.fill hs₀ htree (Or.inl ⟨hbelow, hc⟩), hn.fill hs₀ htree ht (Or.inl ⟨hbelow, hc⟩)⟩
    have hmake : ∀ t name, P t → P (t.addVariable n name) := fun t name ⟨ht, hn⟩ =>
      ⟨ht.addVariable hs₀ htree n name,
        hn.addVariable (hn.lt_size hs₀ htree ht.follows.extends_) n name⟩
    exact addVariables_keeps hmake _
      (fillAll_keeps _ hfill filled ⟨hs, hn⟩ fun c hc => ⟨ks, hks, hfilled c hc⟩)
  refine ⟨hu.1, hu.2, List.forall₂_map_right_iff.mpr (Kid.forall₂_places ?_ ?_)⟩
  · exact fun c hc => ⟨rfl, ks, hks, hc⟩
  · intro k name hk
    have hsize : n < (s.fillAll n filled).nodes.size := by
      rw [size_fillAll]
      exact hn.lt_size hs₀ htree hs.follows.extends_
    have hheld := kids_held hs₀ hks _ (Kid.mem_of_names hk)
    refine ⟨rfl, Nat.le_trans hs.follows.extends_.nodes (Nat.le_add_right ..), hheld, .none,
      Or.inl rfl, ?_⟩
    have hnew := node_addVariables_new (Kid.names ks) hsize hk
    rw [size_fillAll] at hnew
    rw [hnew, node_addVariables (Kid.names ks) hsize]

/-- Nothing new is given twice. -/
theorem places_pairwise {size : Nat} : ∀ {next : Nat} {ks : List Kid}, size ≤ next →
    (∀ c : Nat, .node c ∈ ks → c < size) →
      (Kid.places next ks).Pairwise fun a b => a = b → a < size
  | _, [], _, _ => .nil
  | next, .node c :: ks, hsize, hks => by
    refine .cons (fun b _ _ => hks c (List.mem_cons_self ..)) ?_
    exact places_pairwise hsize fun c' hc' => hks c' (List.mem_cons_of_mem _ hc')
  | next, .variable _ :: ks, hsize, hks => by
    have hrest : ∀ c : Nat, .node c ∈ ks → c < size := fun c hc =>
      hks c (List.mem_cons_of_mem _ hc)
    refine .cons (fun b hb he => ?_) (places_pairwise (Nat.le_succ_of_le hsize) hrest)
    subst he
    rcases Kid.mem_places hb with hlisted | ⟨hge, _⟩
    · exact hrest next hlisted
    · exact absurd hge (Nat.not_succ_le_self next)

/-- A node that has arrived gives the children that the document lists, all of which have
arrived. -/
theorem children_arrive (hs₀ : s₀.Closed) (htree : s₀.TreeFrom root)
    (hpresent : ∀ n, (s₀.node n).position.Present) (hs : s₀.Settling root s) {spot : Spot}
    (hn : s₀.Standing root s n spot) (policy : ParentPolicy) :
    ∃ cs t, (Edit.children n policy).perform s = (.ok cs, t) ∧ s₀.Settling root t ∧
      s₀.Onward root s t ∧ List.Forall₂ (s₀.Standing root t) cs (s₀.spots spot) ∧
      cs.Pairwise fun a b => a = b → a < s₀.nodes.size := by
  cases spot with
  | listed m =>
    obtain rfl := hn.1
    have hbelow := hn.2.1.isBelow
    have hkids := kids_extends hs₀ hs.follows.extends_ (hbelow.lt_size hs₀ htree.there)
    obtain ⟨ks, hks⟩ := Option.isSome_iff_exists.mp (htree.listed n hbelow)
    have hposition := hn.2.1.present hpresent
    obtain ⟨filled, hfilled, hall⟩ :=
      Edit.children_of_kids (hkids.trans hks) hposition policy
    obtain ⟨hu, hnu, harriving⟩ := collected_arriving hs₀ htree hs hn hks hfilled
    obtain ⟨t, hloop, ht, hstanding, _⟩ := forM_adopt_arrive hs₀ htree policy hu hnu harriving
    have hcs := hall t hloop
    have honward := (children_settles hs₀ htree hs (Or.inl hbelow) policy).2
    rw [hcs] at honward
    refine ⟨_, t, hcs, ht, honward, ?_, ?_⟩
    · rw [spots, hks]
      exact hstanding
    · exact places_pairwise hs.follows.extends_.nodes fun c hc => kids_held hs₀ hks _ hc
  | made k name =>
    obtain ⟨hnew, _, p, hp, hnode⟩ := hn
    have hposition : (s.node n).position.Present := by
      rw [hnode]
      exact hp.present hpresent
    obtain ⟨filled, hfilled, hall⟩ :=
      Edit.children_of_kids (kids_new hs.follows.extends_ hnew) hposition policy
    obtain rfl : filled = [] := List.eq_nil_iff_forall_not_mem.mpr
      fun c hc => absurd (hfilled c hc) (by simp)
    exact ⟨[], s, hall s rfl, hs, .refl, .nil, .nil⟩

end Store

end SheetLint
