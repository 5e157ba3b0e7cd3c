import SheetLint.Proofs.Collect

/-!
# Computing the traversal children

After the children of a node are collected each of them gets its missing location and its parent.
`children_ok` says which children a computation that goes through gives, and `children_preserves`
what an invariant needs in order to survive the computation, whether it goes through or not: it has
to survive the three things that are ever done to the store, which are completing the location of a
child, making a variable, and attaching a child. `children_keeps` is the case in which attaching is
no more than writing a parent and logging. A computation that fails although there is a list of
children fails when it attaches one of them (`children_fails`), and `attach_fails` says why.
-/

namespace SheetLint

/-- Only a node is one and the same thing as a node. -/
theorem Value.identical_node {v : Value} {n : NodeId} (h : v.identical (.node n) = true) :
    v = .node n := by
  unfold identical at h
  cases v with
  | node m => simpa [cell?] using h
  | float x m => cases x <;> simp [cell?] at h
  | _ => simp [cell?] at h

namespace Store

variable {s t : Store} {c self : NodeId} {policy : ParentPolicy}

/-! ## Attaching -/

theorem parent?_eq_none : s.parent? c = .ok none ↔
    (s.node c).parent = .none ∨ (s.node c).parent = .gone := by
  unfold parent?
  cases (s.node c).parent <;> simp [referent]

theorem parent?_eq_some {v : Value} : s.parent? c = .ok (some v) ↔ (s.node c).parent = .to v := by
  unfold parent?
  cases (s.node c).parent <;> simp [referent]

/-- A child without a live parent is attached. -/
theorem attach_of_none (h : s.parent? c = .ok none) :
    s.attach (.node c) (.node self) policy = .ok (s.setParent (.node c) (.node self)) := by
  have hr : s.referent (s.node c).parent = .ok none := h
  simp only [attach, backref, bind, Except.bind, hr]
  rfl

/-- A child that is attached already stays as it is. -/
theorem attach_of_same (h : s.parent? c = .ok (some (.node self))) :
    s.attach (.node c) (.node self) policy = .ok s := by
  have hr : s.referent (s.node c).parent = .ok (some (.node self)) := h
  have hself : Value.identical (.node self) (.node self) = true := by
    simp [Value.identical, Value.cell?]
  simp only [attach, backref, bind, Except.bind, hr, hself, if_true]
  rfl

/-- A reference that leads nowhere is in the way. -/
theorem attach_of_lost {fault : Fault} (h : s.parent? c = .error fault) :
    s.attach (.node c) (.node self) policy = .error fault := by
  have hr : s.referent (s.node c).parent = .error fault := h
  simp only [attach, backref, bind, Except.bind, hr]

/-- Under the strict policy a child that has another parent is refused. -/
theorem attach_refused {v : Value} (h : s.parent? c = .ok (some v)) (hv : v ≠ .node self) :
    s.attach (.node c) (.node self) .strict =
      match s.secondParent (.node c) v with
      | .ok fault => .error fault
      | .error fault => .error fault := by
  have hr : s.referent (s.node c).parent = .ok (some v) := h
  have hother : v.identical (.node self) = false :=
    Bool.eq_false_iff.mpr fun hsame => hv (Value.identical_node hsame)
  simp only [attach, backref, bind, Except.bind, hr, hother]
  cases s.secondParent (.node c) v <;> rfl

/-- Under the refreshing policy a child moves from another parent if that can be said. -/
theorem attach_moves {v : Value} (h : s.parent? c = .ok (some v)) (hv : v ≠ .node self) :
    s.attach (.node c) (.node self) .refresh =
      match s.reparented (.node c) v (.node self) with
      | .ok m => .ok ((s.note m).setParent (.node c) (.node self))
      | .error fault => .error fault := by
  have hr : s.referent (s.node c).parent = .ok (some v) := h
  have hother : v.identical (.node self) = false :=
    Bool.eq_false_iff.mpr fun hsame => hv (Value.identical_node hsame)
  simp only [attach, backref, bind, Except.bind, hr, hother]
  cases s.reparented (.node c) v (.node self) <;> rfl

/-- What attaching finds: no live parent, the parent itself, or another one, which it gives up under
the refreshing policy only. -/
theorem attach_inv (h : s.attach (.node c) (.node self) policy = .ok t) :
    s.parent? c = .ok (some (.node self)) ∧ t = s ∨
      s.parent? c = .ok none ∧ t = s.setParent (.node c) (.node self) ∨
      ∃ current m, s.parent? c = .ok (some current) ∧ current ≠ .node self ∧ policy = .refresh ∧
        t = (s.note m).setParent (.node c) (.node self) := by
  cases hparent : s.parent? c with
  | error fault =>
    rw [attach_of_lost hparent] at h
    cases h
  | ok found =>
    cases found with
    | none =>
      rw [attach_of_none hparent] at h
      cases h
      exact Or.inr (Or.inl ⟨rfl, rfl⟩)
    | some current =>
      by_cases hsame : current = .node self
      · rw [hsame] at hparent ⊢
        rw [attach_of_same hparent] at h
        cases h
        exact Or.inl ⟨rfl, rfl⟩
      · refine Or.inr (Or.inr ⟨current, ?_⟩)
        cases policy with
        | strict =>
          rw [attach_refused hparent hsame] at h
          cases hm : s.secondParent (.node c) current <;> simp [hm] at h
        | refresh =>
          rw [attach_moves hparent hsame] at h
          cases hm : s.reparented (.node c) current (.node self) with
          | error fault => simp [hm] at h
          | ok m =>
            rw [hm] at h
            cases h
            exact ⟨m, rfl, hsame, rfl, rfl⟩

/-- Attaching writes the parent and may log that there was another one, or changes nothing. -/
theorem attach_cases (h : s.attach (.node c) (.node self) policy = .ok t) :
    t = s ∨ t = s.setParent (.node c) (.node self) ∨
      ∃ m, t = (s.note m).setParent (.node c) (.node self) := by
  rcases attach_inv h with ⟨_, rfl⟩ | ⟨_, rfl⟩ | ⟨_, m, _, _, _, rfl⟩
  · exact Or.inl rfl
  · exact Or.inr (Or.inl rfl)
  · exact Or.inr (Or.inr ⟨m, rfl⟩)

/-- What was attached refers to its parent. -/
theorem parent_of_attach (hc : c < s.nodes.size)
    (h : s.attach (.node c) (.node self) policy = .ok t) :
    (t.node c).parent = .to (.node self) := by
  rcases attach_inv h with ⟨hsame, rfl⟩ | ⟨_, rfl⟩ | ⟨_, m, _, _, _, rfl⟩
  · exact parent?_eq_some.mp hsame
  · rw [node_setParent, if_pos ⟨rfl, hc⟩]
  · rw [node_setParent, if_pos ⟨rfl, hc⟩]

/-- Attaching fails at a reference that leads nowhere, or at another live parent: because there is
one under the strict policy, or because it cannot be told under the refreshing one. -/
theorem attach_fails {fault : Fault}
    (h : s.attach (.node c) (.node self) policy = .error fault) :
    s.parent? c = .error fault ∨ ∃ current, s.parent? c = .ok (some current) ∧
      current ≠ .node self ∧
      (policy = .strict ∧ (s.secondParent (.node c) current = .ok fault ∨
          s.secondParent (.node c) current = .error fault) ∨
        policy = .refresh ∧ s.reparented (.node c) current (.node self) = .error fault) := by
  -- what is found at the reference decides, and the policy only where that is another parent
  cases hparent : s.parent? c with
  | error fault' =>
    rw [attach_of_lost hparent] at h
    cases h
    exact Or.inl rfl
  | ok found =>
    cases found with
    | none =>
      rw [attach_of_none hparent] at h
      cases h
    | some current =>
      by_cases hsame : current = .node self
      · rw [hsame] at hparent
        rw [attach_of_same hparent] at h
        cases h
      · refine Or.inr ⟨current, rfl, hsame, ?_⟩
        cases policy with
        | strict =>
          rw [attach_refused hparent hsame] at h
          cases hm : s.secondParent (.node c) current with
          | error fault' =>
            rw [hm] at h
            cases h
            exact Or.inl ⟨rfl, Or.inr rfl⟩
          | ok fault' =>
            rw [hm] at h
            cases h
            exact Or.inl ⟨rfl, Or.inl rfl⟩
        | refresh =>
          rw [attach_moves hparent hsame] at h
          cases hm : s.reparented (.node c) current (.node self) with
          | error fault' =>
            rw [hm] at h
            cases h
            exact Or.inr ⟨rfl, rfl⟩
          | ok m => simp [hm] at h

/-! ## Folds over children -/

theorem fillAll_keeps {P : Store → Prop} (Child : NodeId → Prop)
    (fill : ∀ s c, P s → Child c → P (s.fill c self)) : ∀ (cs : List NodeId) {s : Store}, P s →
      (∀ c ∈ cs, Child c) → P (s.fillAll self cs)
  | [], _, hs, _ => hs
  | c :: cs, s, hs, hcs =>
    fillAll_keeps Child fill cs (fill s c hs (hcs c (List.mem_cons_self ..)))
      fun c' hc' => hcs c' (List.mem_cons_of_mem _ hc')

theorem addVariables_keeps {P : Store → Prop}
    (make : ∀ s name, P s → P (s.addVariable self name)) : ∀ (names : List Value) {s : Store},
      P s → P (s.addVariables self names)
  | [], _, hs => hs
  | name :: names, s, hs => addVariables_keeps make names (make s name hs)

end Store

namespace Edit

open Store

variable {s t : Store} {c self : NodeId} {policy : ParentPolicy} {cs : List NodeId}

theorem perform_adopt (s : Store) (c self : NodeId) (policy : ParentPolicy) :
    (adopt self policy c).perform s =
      match (s.fill c self).attach (.node c) (.node self) policy with
      | .ok t => (.ok (), t)
      | .error fault => (.error fault, s.fill c self) := by
  rw [adopt, perform_bind_ok (perform_modify _ s)]
  exact perform_change _ (s.fill c self)

/-- An adoption that goes through completes the location of the child and attaches it. -/
theorem of_adopt_ok (h : (adopt self policy c).perform s = (.ok ⟨⟩, t)) :
    (s.fill c self).attach (.node c) (.node self) policy = .ok t := by
  rw [perform_adopt] at h
  cases ha : (s.fill c self).attach (.node c) (.node self) policy with
  | error fault => simp [ha] at h
  | ok u =>
    rw [ha] at h
    cases h
    rfl

/-- An adoption that fails does so after the location of the child was completed. -/
theorem of_adopt_error {fault : Fault} (h : (adopt self policy c).perform s = (.error fault, t)) :
    (s.fill c self).attach (.node c) (.node self) policy = .error fault ∧ t = s.fill c self := by
  rw [perform_adopt] at h
  cases ha : (s.fill c self).attach (.node c) (.node self) policy with
  | ok u => simp [ha] at h
  | error fault' =>
    rw [ha] at h
    cases h
    exact ⟨rfl, rfl⟩

/-- What survives completing a location and attaching survives the adoption of a child. -/
theorem adopt_preserves {P : Store → Prop} (hfill : ∀ s, P s → P (s.fill c self))
    (hattach : ∀ s t, P s → s.attach (.node c) (.node self) policy = .ok t → P t) :
    Keeps P (adopt self policy c) := by
  intro s hs
  rw [perform_adopt]
  cases ha : (s.fill c self).attach (.node c) (.node self) policy with
  | error fault => exact hfill s hs
  | ok t => exact hattach _ t (hfill s hs) ha

/-- What survives writing a parent and logging survives attaching. -/
theorem attach_keeps {P : Store → Prop}
    (hparent : ∀ s, P s → P (s.setParent (.node c) (.node self)))
    (hnote : ∀ s m, P s → P (s.note m)) (hs : P s)
    (ha : s.attach (.node c) (.node self) policy = .ok t) : P t := by
  rcases attach_cases ha with rfl | rfl | ⟨m, rfl⟩
  · exact hs
  · exact hparent _ hs
  · exact hparent _ (hnote _ m hs)

/-- What survives completing a location, writing a parent and logging survives the adoption of a
child. -/
theorem adopt_keeps {P : Store → Prop} (policy : ParentPolicy)
    (hfill : ∀ s, P s → P (s.fill c self))
    (hparent : ∀ s, P s → P (s.setParent (.node c) (.node self)))
    (hnote : ∀ s m, P s → P (s.note m)) : Keeps P (adopt self policy c) :=
  adopt_preserves hfill fun _ _ => attach_keeps hparent hnote

/-- What survives completing and attaching one child at a time survives the whole loop, also where
it breaks off. -/
theorem forM_adopt_preserves (P : Store → Prop) (Child : NodeId → Prop)
    (hfill : ∀ s c, P s → Child c → P (s.fill c self))
    (hattach : ∀ s t c, P s → Child c → s.attach (.node c) (.node self) policy = .ok t → P t) :
    ∀ (cs : List NodeId) {s : Store}, P s → (∀ c ∈ cs, Child c) →
      P ((cs.forM (adopt self policy)).perform s).2
  | [], _, hs, _ => hs
  | c :: cs, s, hs, hcs => by
    have hc := hcs c (List.mem_cons_self ..)
    have hadopt : P ((adopt self policy c).perform s).2 :=
      adopt_preserves (fun s h => hfill s c h hc) (fun s t h => hattach s t c h hc) s hs
    rw [forM_cons, perform_bind]
    cases hr : (adopt self policy c).perform s with
    | mk r t =>
      rw [hr] at hadopt
      cases r with
      | error fault => exact hadopt
      | ok u =>
        exact forM_adopt_preserves P Child hfill hattach cs hadopt
          fun c' hc' => hcs c' (List.mem_cons_of_mem _ hc')

/-- A loop fails in one of its rounds, which comes after others that went through. -/
theorem forM_fails {β : Type} {f : β → Edit PUnit} {P : Store → Prop} {fault : Fault} :
    ∀ {bs : List β} {s t : Store}, (∀ b ∈ bs, ∀ s, P s → P ((f b).perform s).2) → P s →
      (bs.forM f).perform s = (.error fault, t) →
      ∃ b ∈ bs, ∃ u, P u ∧ (f b).perform u = (.error fault, t)
  | [], _, _, _, _, h => by simp at h
  | b :: bs, s, t, keep, hs, h => by
    rw [forM_cons, perform_bind] at h
    have hkeep := keep b (List.mem_cons_self ..) s hs
    cases hr : (f b).perform s with
    | mk r u =>
      rw [hr] at h hkeep
      cases r with
      | error fault' =>
        cases h
        exact ⟨b, List.mem_cons_self .., s, hs, hr⟩
      | ok _ =>
        obtain ⟨b', hb', hfail⟩ :=
          forM_fails (fun b' hb' => keep b' (List.mem_cons_of_mem _ hb')) hkeep h
        exact ⟨b', List.mem_cons_of_mem _ hb', hfail⟩

/-- What one round of a loop establishes is there at the end, if the other rounds keep it. -/
theorem forM_establishes {β : Type} {f : β → Edit PUnit} {P : Store → Prop}
    {Q : β → Store → Prop} (keep : ∀ b, Keeps P (f b))
    (establish : ∀ b s t, P s → (f b).perform s = (.ok ⟨⟩, t) → Q b t)
    (stable : ∀ b b', Keeps (fun s => P s ∧ Q b s) (f b')) : ∀ {bs : List β} {s t : Store}, P s →
      (bs.forM f).perform s = (.ok ⟨⟩, t) → ∀ b ∈ bs, Q b t
  | [], _, _, _, _ => fun b hb => absurd hb (by simp)
  | b :: bs, s, t, hs, h => by
    rw [forM_cons] at h
    obtain ⟨_, u, hu, ht⟩ := of_perform_bind_ok h
    have hPu := keep b s hs
    rw [hu] at hPu
    intro b' hb'
    rcases List.mem_cons.mp hb' with rfl | hb'
    · have hall := moves_forM (isLater_keeps _) (stable b') bs u ⟨hPu, establish b' s u hs hu⟩
      rw [ht] at hall
      exact hall.2
    · exact forM_establishes keep establish stable hPu ht b' hb'

/-! ## The computation -/

/-- The children of a node are gathered and then attached. -/
theorem perform_children_gather (s : Store) (n : NodeId) (policy : ParentPolicy) :
    (children n policy).perform s =
      match (gather n).perform s with
      | (.error fault, t) => (.error fault, t)
      | (.ok cs, t) =>
        match (cs.forM (adopt n policy)).perform t with
        | (.error fault, u) => (.error fault, u)
        | (.ok _, u) => (.ok cs, u) := by
  simp only [children, childrenWith, gather, perform_bind, perform_tryRead, perform_pure]
  cases s.callable (.node n) "traversal_children" with
  | error fault => rfl
  | ok _ =>
    simp only
    cases s.callable (.node n) "_collect_children" with
    | error fault => rfl
    | ok _ =>
      simp only
      cases (collectWith (Early.filling n) n).perform s with
      | mk r t =>
        cases r with
        | error fault => rfl
        | ok cs =>
          simp only
          cases (cs.forM (adopt n policy)).perform t with
          | mk r u => cases r <;> rfl

/-- A computation that goes through gave the children that are listed. -/
theorem children_ok (h : (children self policy).perform s = (.ok cs, t)) :
    ∃ ks filled, s.kids self = some ks ∧ cs = Kid.places s.nodes.size ks ∧
      (∀ c ∈ filled, .node c ∈ ks) ∧
      (cs.forM (adopt self policy)).perform
        ((s.fillAll self filled).addVariables self (Kid.names ks)) = (.ok ⟨⟩, t) := by
  rw [perform_children_gather] at h
  have hspec := gather_spec s self
  cases hgather : (gather self).perform s with
  | mk r u =>
    rw [hgather] at h hspec
    cases r with
    | error fault => cases h
    | ok cs' =>
      obtain ⟨filled, names, hstore, hfilled, hok⟩ := hspec.effect
      obtain ⟨ks, hks, rfl, rfl⟩ := hok _ rfl
      obtain rfl : u = _ := hstore
      revert h
      simp only
      cases hloop : ((Kid.places s.nodes.size ks).forM (adopt self policy)).perform
        ((s.fillAll self filled).addVariables self (Kid.names ks)) with
      | mk r t' =>
        cases r with
        | error fault => exact fun h => by cases h
        | ok _ =>
          rintro ⟨⟩
          exact ⟨ks, filled, hks, rfl, hfilled ks hks, hloop⟩

/-- Where there is a list of children and no part of the location was lost, all there is left to do
is to adopt the children. -/
theorem perform_children {ks : List Kid} (hks : s.kids self = some ks)
    (hpresent : (s.node self).position.Present) (policy : ParentPolicy) :
    ∃ filled, (∀ c ∈ filled, .node c ∈ ks) ∧ (children self policy).perform s =
      match ((Kid.places s.nodes.size ks).forM (adopt self policy)).perform
        ((s.fillAll self filled).addVariables self (Kid.names ks)) with
      | (.ok _, t) => (.ok (Kid.places s.nodes.size ks), t)
      | (.error fault, t) => (.error fault, t) := by
  have hspec := gather_spec s self
  rw [perform_children_gather]
  cases hgather : (gather self).perform s with
  | mk r t =>
    rw [hgather] at hspec
    obtain ⟨cs, rfl⟩ := (hspec.total ks hks).mpr (Or.inr hpresent)
    obtain ⟨filled, names, hstore, hfilled, hok⟩ := hspec.effect
    obtain ⟨ks', hks', rfl, rfl⟩ := hok _ rfl
    obtain rfl : ks' = ks := Option.some.inj (hks'.symm.trans hks)
    obtain rfl : t = _ := hstore
    refine ⟨filled, hfilled ks' hks, ?_⟩
    simp only
    cases ((Kid.places s.nodes.size ks').forM (adopt self policy)).perform
      ((s.fillAll self filled).addVariables self (Kid.names ks')) with
    | mk r u => cases r <;> rfl

/-- Where the table lists children and no part of the location was lost, a node gets these children
as soon as all of them can be attached. -/
theorem children_of_kids {ks : List Kid} (hks : s.kids self = some ks)
    (hpresent : (s.node self).position.Present) (policy : ParentPolicy) :
    ∃ filled, (∀ c ∈ filled, .node c ∈ ks) ∧ ∀ t,
      ((Kid.places s.nodes.size ks).forM (adopt self policy)).perform
        ((s.fillAll self filled).addVariables self (Kid.names ks)) = (.ok ⟨⟩, t) →
      (children self policy).perform s = (.ok (Kid.places s.nodes.size ks), t) := by
  obtain ⟨filled, hfilled, hall⟩ := perform_children hks hpresent policy
  refine ⟨filled, hfilled, fun t hloop => ?_⟩
  rw [hall, hloop]

/-- An invariant survives the computation of the children of a node if it survives the three things
that may be done on the way: completing a location, making a variable and attaching. The nodes that
are touched are listed as children, or made on the way, unless there is no list. -/
theorem children_preserves (P : Store → Prop) (Child : NodeId → Prop)
    (hfill : ∀ s c, P s → Child c → P (s.fill c self))
    (hmake : ∀ s name, P s → P (s.addVariable self name))
    (hattach : ∀ s t c, P s → Child c → s.attach (.node c) (.node self) policy = .ok t → P t)
    (hs : P s)
    (hchild : ∀ c, (∀ ks, s.kids self = some ks → .node c ∈ ks) ∨ s.nodes.size ≤ c → Child c) :
    P ((children self policy).perform s).2 := by
  have hspec := gather_spec s self
  rw [perform_children_gather]
  cases hgather : (gather self).perform s with
  | mk r t =>
    rw [hgather] at hspec
    obtain ⟨filled, names, hstore, hfilled, hok⟩ := hspec.effect
    -- gathering that fails leaves locations completed and variables made as well
    have ht : P t := by
      rw [show t = _ from hstore]
      refine addVariables_keeps hmake names (fillAll_keeps Child hfill filled hs fun c hc => ?_)
      exact hchild c (Or.inl fun ks hks => hfilled ks hks c hc)
    cases r with
    | error fault => exact ht
    | ok cs =>
      obtain ⟨ks, hks, rfl, _⟩ := hok _ rfl
      have hplaces : ∀ c ∈ Kid.places s.nodes.size ks, Child c := by
        intro c hc
        refine hchild c ?_
        rcases Kid.mem_places hc with hk | hnew
        · refine Or.inl fun ks' hks' => ?_
          rw [hks] at hks'
          cases hks'
          exact hk
        · exact Or.inr hnew.1
      have hadopt := forM_adopt_preserves P Child hfill hattach _ ht hplaces
      simp only
      cases hloop : ((Kid.places s.nodes.size ks).forM (adopt self policy)).perform t with
      | mk r u =>
        rw [hloop] at hadopt
        cases r <;> exact hadopt

/-- Attaching comes down to writing a parent and logging, where it does not matter what was there
before. -/
theorem children_keeps (P : Store → Prop) (Child : NodeId → Prop)
    (hfill : ∀ s c, P s → Child c → P (s.fill c self))
    (hmake : ∀ s name, P s → P (s.addVariable self name))
    (hparent : ∀ s c, P s → Child c → P (s.setParent (.node c) (.node self)))
    (hnote : ∀ s m, P s → P (s.note m)) (hs : P s)
    (hchild : ∀ c, (∀ ks, s.kids self = some ks → .node c ∈ ks) ∨ s.nodes.size ≤ c → Child c)
    (policy : ParentPolicy) : P ((children self policy).perform s).2 :=
  children_preserves P Child hfill hmake
    (fun _ _ c h hc => attach_keeps (fun s h => hparent s c h hc) hnote h) hs hchild

/-- Where there is a list of children, computing them fails only when one of them is attached. -/
theorem children_fails (P : Store → Prop) (Child : NodeId → Prop)
    (hfill : ∀ s c, P s → Child c → P (s.fill c self))
    (hmake : ∀ s name, P s → P (s.addVariable self name))
    (hattach : ∀ s t c, P s → Child c → s.attach (.node c) (.node self) policy = .ok t → P t)
    (hs : P s) {ks : List Kid} (hks : s.kids self = some ks)
    (hpresent : (s.node self).position.Present)
    (hchild : ∀ c ∈ Kid.places s.nodes.size ks, Child c) {fault : Fault}
    (h : (children self policy).perform s = (.error fault, t)) :
    ∃ c ∈ Kid.places s.nodes.size ks, ∃ u, P u ∧
      u.attach (.node c) (.node self) policy = .error fault := by
  obtain ⟨filled, hfilled, hall⟩ := perform_children hks hpresent policy
  rw [hall] at h
  have hcollected : P ((s.fillAll self filled).addVariables self (Kid.names ks)) := by
    refine addVariables_keeps hmake _ (fillAll_keeps Child hfill filled hs fun c hc => ?_)
    exact hchild c (Kid.mem_places_of_node (hfilled c hc))
  cases hloop : ((Kid.places s.nodes.size ks).forM (adopt self policy)).perform
    ((s.fillAll self filled).addVariables self (Kid.names ks)) with
  | mk r u =>
    rw [hloop] at h
    cases r with
    | ok _ => simp at h
    | error fault' =>
      cases h
      obtain ⟨c, hc, v, hv, hadopt⟩ := forM_fails (fun c hc => adopt_preserves
        (fun s h => hfill s c h (hchild c hc)) fun s t h => hattach s t c h (hchild c hc))
        hcollected hloop
      exact ⟨c, hc, v.fill c self, hfill v c hv (hchild c hc), (of_adopt_error hadopt).1⟩

end Edit

end SheetLint
