import SheetLint.Proofs.Journal
import SheetLint.Proofs.Undisturbed

/-!
# Orderly stores

In an orderly store nodes and agents keep their attributes themselves, no part of a location was
lost, and every node refers to a node as its parent, or to nothing. Whatever is done to trees leaves
it so: to attach a child is the one thing that gives it a parent, and to let go of things the one
that takes parents away. All else that computing children and running linters consists of is calm
(`Store.Calm`), and so is writing an attribute (`calm_setAttribute`).

A collection clears what nothing in use leads to, and with it the references to that
(`Orderly.collect`).
-/

namespace SheetLint

namespace Backref

/-- The node that is referred to. -/
def node? : Backref → Option NodeId
  | .to (.node p) => some p
  | _ => .none

/-- Whether a reference is one to a node, or leads nowhere. -/
def isNodal : Backref → Bool
  | .to (.node _) => true
  | .to _ => false
  | .other _ => false
  | _ => true

theorem cases_of_isNodal {r : Backref} (h : r.isNodal = true) :
    r = .none ∨ r = .gone ∨ ∃ p, r = .to (.node p) := by
  unfold isNodal at h
  split at h
  · exact Or.inr (Or.inr ⟨_, rfl⟩)
  · exact absurd h (by simp)
  · exact absurd h (by simp)
  · cases r <;> simp_all

end Backref

namespace Store

variable {s t u : Store} {c n : NodeId} {i : AgentId}

/-- The node that a node refers to as its parent. -/
def parentNode (s : Store) (c : NodeId) : Option NodeId := (s.node c).parent.node?

/-- A store in which nothing is backed or lost and parents are nodes. -/
structure Orderly (s : Store) : Prop where
  unbacked : s.Unbacked
  present : ∀ n, (s.node n).position.Present
  nodal : ∀ n, (s.node n).parent.isNodal = true

/-- A store is orderly if the nodes and agents that are there are. -/
theorem Orderly.of_all (flag : s.hasBacked = false)
    (nodes : ∀ n < s.nodes.size, (s.node n).backing = none ∧ (s.node n).position.Present ∧
      (s.node n).parent.isNodal = true)
    (agents : ∀ a ∈ s.agents, a.backing = none) : s.Orderly where
  unbacked := .of_all flag (fun n hn => (nodes n hn).1) agents
  present n := by
    rcases Nat.lt_or_ge n s.nodes.size with hn | hn
    · exact (nodes n hn).2.1
    · rw [node_of_size_le hn]
      exact ⟨rfl, rfl, rfl⟩
  nodal n := by
    rcases Nat.lt_or_ge n s.nodes.size with hn | hn
    · exact (nodes n hn).2.2
    · rw [node_of_size_le hn]
      rfl

theorem Orderly.parent? (h : s.Orderly) (c : NodeId) :
    s.parent? c = .ok ((s.parentNode c).map .node) := by
  unfold Store.parent? parentNode
  rcases Backref.cases_of_isNodal (h.nodal c) with hr | hr | ⟨p, hr⟩ <;> rw [hr] <;> rfl

/-! ## Calm changes -/

/-- An orderly store stays so, and no parent changes. -/
def Calm (s t : Store) : Prop :=
  s.Orderly → t.Orderly ∧ ∀ c, t.parentNode c = s.parentNode c

theorem isLater_calm : Edit.IsLater Calm where
  refl _ h := ⟨h, fun _ => rfl⟩
  trans hst htu h := by
    obtain ⟨ht, hparents⟩ := hst h
    obtain ⟨hu, hparents'⟩ := htu ht
    exact ⟨hu, fun c => (hparents' c).trans (hparents c)⟩

/-- The nodes alone change, and what they refer to does not. -/
theorem Calm.of_nodes (flag : t.hasBacked = s.hasBacked) (agents : t.agents = s.agents)
    (node : s.Orderly → ∀ n, (t.node n).backing = none ∧ (t.node n).position.Present ∧
      (t.node n).parent = (s.node n).parent) : s.Calm t := by
  intro h
  have hnode := node h
  refine ⟨⟨h.unbacked.of_nodes flag agents fun n => (hnode n).1, fun n => (hnode n).2.1,
    fun n => ?_⟩, fun c => ?_⟩
  · rw [(hnode n).2.2]
    exact h.nodal n
  · rw [parentNode, (hnode c).2.2]
    rfl

/-- The nodes do not change, and the agents keep their attributes themselves. -/
theorem Calm.of_agents (flag : t.hasBacked = s.hasBacked) (nodes : t.nodes = s.nodes)
    (agents : s.Unbacked → ∀ a ∈ t.agents, a.backing = none) : s.Calm t := by
  intro h
  have hnode : ∀ n, t.node n = s.node n := by
    intro n
    unfold node node?
    rw [nodes]
  refine ⟨⟨⟨flag.trans h.unbacked.flag, fun n => ?_, agents h.unbacked⟩, fun n => ?_, fun n => ?_⟩,
    fun c => ?_⟩
  · rw [hnode]
    exact h.unbacked.node n
  · rw [hnode]
    exact h.present n
  · rw [hnode]
    exact h.nodal n
  · rw [parentNode, hnode]
    rfl

/-- Neither nodes nor agents change. -/
theorem Calm.of_rest (flag : t.hasBacked = s.hasBacked) (nodes : t.nodes = s.nodes)
    (agents : t.agents = s.agents) : s.Calm t :=
  .of_agents flag nodes fun h => by
    rw [agents]
    exact h.agent

/-- Completing a location is calm. -/
theorem Calm.fill (s : Store) (c self : NodeId) : s.Calm (s.fill c self) := by
  refine .of_nodes ?_ ?_ fun h n => ⟨(h.unbacked.fill c self).node n, ?_, parent_fill s c self n⟩
  · unfold Store.fill
    split <;> rfl
  · unfold Store.fill
    split <;> rfl
  · rw [node_fill]
    split
    · exact (h.present c).completed (h.present self)
    · exact h.present n

/-- So is making a variable. -/
theorem Calm.addVariable (s : Store) (self : NodeId) (name : Value) :
    s.Calm (s.addVariable self name) := by
  refine .of_nodes rfl rfl fun h n => ⟨(h.unbacked.addVariable self name).node n, ?_, ?_⟩
  · rw [Store.addVariable, node_addNode]
    split
    · exact h.present self
    · exact h.present n
  · rw [Store.addVariable, node_addNode]
    split
    · rename_i hn
      rw [hn, node_of_size_le (Nat.le_refl _)]
    · rfl

/-! ## Attributes -/

/-- Writing an attribute of a node leaves its parent and its backing alone, and loses no part of its
location. The parent itself is left out. -/
theorem write_node {x : Node} {name : String} {v : Value} (hname : name ≠ Backref.name)
    (hv : v.isMissing = false) (hx : x.position.Present) :
    (x.write name v).backing = x.backing ∧ (x.write name v).position.Present ∧
      (x.write name v).parent = x.parent := by
  unfold Node.write
  cases hf : x.setField? name v with
  | none =>
    have hother : (name == Backref.name) = false := by simpa using hname
    simp only [hother, Bool.false_eq_true, if_false]
    exact ⟨trivial, hx, trivial⟩
  | some y =>
    unfold Node.setField? at hf
    split at hf
    · cases hf
      exact ⟨rfl, ⟨hv, hx.2⟩, rfl⟩
    · cases hf
      exact ⟨rfl, ⟨hx.1, hv, hx.2.2⟩, rfl⟩
    · cases hf
      exact ⟨rfl, ⟨hx.1, hx.2.1, hv⟩, rfl⟩
    · -- a field of the form: everything else stays
      simp only at hf
      split at hf
      · obtain ⟨form, _, rfl⟩ := Option.map_eq_some_iff.mp hf
        exact ⟨rfl, hx, rfl⟩
      · cases hf

theorem backing_write (a : Agent) (name : String) (v : Value) :
    (a.write name v).backing = a.backing := by
  unfold Agent.write
  split
  · rfl
  · split <;> rfl

/-- Writing an attribute of a node is calm, unless it is the reference to its parent. -/
theorem calm_setNodeAttribute {name : String} {v : Value} (hname : name ≠ Backref.name)
    (hdict : name ≠ "__dict__") (hv : v.isMissing = false)
    (h : s.setNodeAttribute n name v = .ok t) : s.Calm t := by
  intro hs
  unfold setNodeAttribute at h
  simp only at h
  split at h
  · cases h
  · split at h
    · cases h
    · exact absurd rfl hdict
    · rename_i hback _ _
      rw [hs.unbacked.node n] at hback
      cases hback
    · cases h
      refine Calm.of_nodes rfl rfl (fun hs m => ?_) hs
      obtain ⟨hback, hpresent, hparent⟩ := write_node hname hv (hs.present n)
      rw [node_setNode]
      split
      · rename_i hm
        rw [← hm.1]
        exact ⟨hback.trans (hs.unbacked.node n), hpresent, hparent⟩
      · exact ⟨hs.unbacked.node m, hs.present m, rfl⟩

/-- Writing an attribute of an agent is calm. -/
theorem calm_setAgentAttribute {name : String} {v : Value} (hdict : name ≠ "__dict__")
    (h : s.setAgentAttribute i name v = .ok t) : s.Calm t := by
  intro hs
  unfold setAgentAttribute at h
  split at h
  · cases h
  · rename_i a ha
    have hback : a.backing = none := hs.unbacked.agent a (Array.mem_of_getElem? ha)
    split at h
    · cases h
    · split at h
      · cases h
      · exact absurd rfl hdict
      · rename_i hsome _ _
        rw [hback] at hsome
        cases hsome
      · cases h
        refine Calm.of_agents rfl rfl (fun hu b hb => ?_) hs
        rcases Array.mem_or_eq_of_mem_setIfInBounds hb with hb | rfl
        · exact hu.agent b hb
        · rw [backing_write, hback]

/-- Writing an attribute of anything is calm. -/
theorem calm_setAttribute {name : String} {v w : Value} (hname : name ≠ Backref.name)
    (hdict : name ≠ "__dict__") (hw : w.isMissing = false)
    (h : s.setAttribute v name w = .ok t) : s.Calm t := by
  unfold setAttribute at h
  split at h
  · exact calm_setNodeAttribute hname hdict hw h
  · exact calm_setAgentAttribute hdict h
  · cases h
  · cases h
  · cases h

/-- What was in use at the last collection stays noted when an attribute is written. -/
theorem baseline_setAttribute {name : String} {v w : Value} (h : s.setAttribute v name w = .ok t) :
    t.baseline = s.baseline := by
  have hmap : ∀ (u : Store) k f g, (u.mapBacked k f g).baseline = u.baseline := by
    intro u k f g
    unfold mapBacked
    split <;> rfl
  have hentry : ∀ k, (s.writeEntry k name w).baseline = s.baseline := fun k => hmap _ k _ _
  unfold setAttribute at h
  split at h
  · unfold setNodeAttribute at h
    simp only at h
    repeat' split at h
    all_goals cases h
    · rfl
    · exact hentry _
    · rfl
  · unfold setAgentAttribute at h
    repeat' split at h
    all_goals cases h
    · unfold backAgent
      split <;> rfl
    · exact hentry _
    · rfl
  · cases h
  · cases h
  · cases h

/-! ## What is not calm -/

/-- Attaching gives a child that is there its parent, if it goes through. -/
theorem Orderly.attach {d q : NodeId} {policy : ParentPolicy} (h : s.Orderly)
    (ha : s.attach (.node d) (.node q) policy = .ok t) : t.Orderly ∧ ∀ c,
      t.parentNode c = if d = c ∧ c < s.nodes.size then some q else s.parentNode c := by
  have hparent : ∀ u : Store, u.Orderly → (u.setParent (.node d) (.node q)).Orderly := by
    refine fun u hu => ⟨hu.unbacked.setParent d _, fun n => ?_, fun n => ?_⟩
    · rw [position_setParent]
      exact hu.present n
    · rw [node_setParent]
      split
      · rfl
      · exact hu.nodal n
  have hwritten : ∀ (u : Store) c, u.nodes = s.nodes →
      (u.setParent (.node d) (.node q)).parentNode c =
        if d = c ∧ c < s.nodes.size then some q else s.parentNode c := by
    intro u c hu
    have hnode : u.node c = s.node c := by
      unfold node node?
      rw [hu]
    rw [parentNode, node_setParent, hnode, hu]
    split <;> rfl
  rcases attach_inv ha with ⟨hsame, rfl⟩ | ⟨_, rfl⟩ | ⟨_, m, _, _, _, rfl⟩
  · refine ⟨h, fun c => ?_⟩
    split
    · rename_i hc
      rw [← hc.1, parentNode, parent?_eq_some.mp hsame]
      rfl
    · rfl
  · exact ⟨hparent s h, fun c => hwritten s c rfl⟩
  · have hnote : s.Calm (s.note m) := .of_rest rfl rfl rfl
    exact ⟨hparent _ (hnote h).1, fun c => hwritten _ c rfl⟩

/-- Under the strict policy a child is refused if it has another parent, and then for that reason;
else it is attached. -/
theorem Orderly.attach_strict (h : s.Orderly) (c q : NodeId) :
    (∃ p, s.parentNode c = some p ∧ p ≠ q ∧ ∃ kind line parentKind parentLine,
      s.attach (.node c) (.node q) .strict =
        .error (.secondParent kind line parentKind parentLine)) ∨
    (∀ p, s.parentNode c = some p → p = q) ∧
      ∃ t, s.attach (.node c) (.node q) .strict = .ok t := by
  have hparent := h.parent? c
  have hintact : s.Intact s := ⟨.refl s, h.unbacked.flag, h.present⟩
  cases hp : s.parentNode c with
  | none =>
    rw [hp] at hparent
    exact Or.inr ⟨nofun, _, attach_of_none hparent⟩
  | some p =>
    rw [hp] at hparent
    by_cases hq : p = q
    · subst hq
      exact Or.inr ⟨fun _ he => (Option.some.inj he).symm, _, attach_of_same hparent⟩
    · refine Or.inl ⟨p, rfl, hq, ?_⟩
      obtain ⟨kind, line, parentKind, parentLine, hfault⟩ := hintact.secondParent_node c p
      refine ⟨kind, line, parentKind, parentLine, ?_⟩
      rw [attach_refused hparent fun hsame => hq (Value.node.inj hsame), hfault]

/-- Letting go of things takes away the parents among them. -/
theorem Orderly.keepParents (h : s.Orderly) (stays : Cell → Bool) :
    (s.keepParents stays).Orderly ∧ ∀ c,
      (s.keepParents stays).parentNode c = (s.parentNode c).filter fun p => stays (.node p) := by
  have hkeep : ∀ r : Backref, r.isNodal = true → (keepParent stays r).isNodal = true ∧
      (keepParent stays r).node? = r.node?.filter fun p => stays (.node p) := by
    intro r hr
    rcases Backref.cases_of_isNodal hr with rfl | rfl | ⟨p, rfl⟩
    · exact ⟨rfl, rfl⟩
    · exact ⟨rfl, rfl⟩
    · have hcell : keepParent stays (.to (.node p)) =
          if stays (.node p) then .to (.node p) else .gone := rfl
      have hfilter : (Backref.to (.node p)).node?.filter (fun p => stays (.node p)) =
          if stays (.node p) then some p else none := rfl
      rw [hcell, hfilter]
      cases stays (.node p) <;> exact ⟨rfl, rfl⟩
  refine ⟨⟨h.unbacked.keepParents stays, fun n => ?_, fun n => ?_⟩, fun c => ?_⟩
  · rw [node_keepParents]
    exact h.present n
  · rw [node_keepParents]
    exact (hkeep _ (h.nodal n)).1
  · rw [parentNode, node_keepParents]
    exact (hkeep _ (h.nodal c)).2

/-! ## Collections -/

theorem node_placeReferences (s : Store) (n : NodeId) :
    s.placeReferences.node n = (s.node n).placed := by
  unfold node node? placeReferences
  rw [Array.getElem?_map]
  cases s.nodes[n]? with
  | none => rfl
  | some x => cases x <;> rfl

theorem calm_placeReferences (s : Store) : s.Calm s.placeReferences := by
  refine .of_nodes rfl rfl fun h n => ?_
  rw [node_placeReferences, Node.placed]
  split <;> exact ⟨h.unbacked.node n, h.present n, rfl⟩

theorem node_clear (s : Store) (kept : List Cell) (n : NodeId) :
    (s.clear kept).node n = if kept.contains (.node n) then s.node n else {} := by
  unfold node node? clear
  rw [Array.getElem?_mapIdx]
  cases s.nodes[n]? with
  | none => cases kept.contains (.node n) <;> rfl
  | some x => cases kept.contains (.node n) <;> rfl

/-- Clearing what is not kept leaves a store orderly. -/
theorem Orderly.clear (h : s.Orderly) (kept : List Cell) : (s.clear kept).Orderly := by
  refine ⟨⟨h.unbacked.flag, fun n => ?_, fun b hb => ?_⟩, fun n => ?_, fun n => ?_⟩
  · rw [node_clear]
    split
    · exact h.unbacked.node n
    · rfl
  · obtain ⟨k, hk, rfl⟩ := Array.mem_mapIdx.mp hb
    have hback := h.unbacked.agent _ (Array.getElem_mem hk)
    split <;> exact hback
  · rw [node_clear]
    split
    · exact h.present n
    · exact ⟨rfl, rfl, rfl⟩
  · rw [node_clear]
    split
    · exact h.nodal n
    · rfl

/-- A collection takes away the parents that are cleared, of all that are not cleared themselves. -/
theorem Orderly.collect (h : s.Orderly) (values : List Value) :
    (s.collect values).Orderly ∧ ∀ c, (s.reach values).contains (.node c) = true →
      (s.collect values).parentNode c =
        (s.parentNode c).filter fun p => (s.reach values).contains (.node p) := by
  obtain ⟨hcleared, hparents⟩ :=
    (h.clear (s.reach values)).keepParents (s.reach values).contains
  have hcalm : Calm ((s.clear (s.reach values)).keepParents (s.reach values).contains)
      (s.collect values) := .of_rest rfl rfl rfl
  obtain ⟨hcollected, hsame⟩ := hcalm hcleared
  refine ⟨hcollected, fun c hc => ?_⟩
  have hkept : (s.clear (s.reach values)).parentNode c = s.parentNode c := by
    rw [parentNode, node_clear, if_pos hc]
    rfl
  rw [hsame, hparents, hkept]

/-- What a node holds that names anything. -/
theorem mem_held_placed {x : Node} {v : Value} (hv : v.cells ≠ []) :
    v ∈ x.placed.held ↔ v ∈ x.held := by
  unfold Node.placed
  split
  · have hnull : v ≠ .null := fun he => hv (he ▸ rfl)
    simp only [Node.held, Node.fields, Node.nodeClass, List.map_append, List.mem_append,
      List.map_cons, List.map_nil, List.mem_singleton, hnull, or_false]
  · rfl

/-- To give references their place among the attributes keeps nothing alive. -/
theorem reached_placeReferences {values : List Value} {c : Cell} :
    s.placeReferences.Reached values c ↔ s.Reached values c := by
  have hcontents : ∀ k v, v.cells ≠ [] → (v ∈ s.placeReferences.contents k ↔ v ∈ s.contents k) := by
    intro k v hv
    cases k with
    | node n =>
      have hnode : s.placeReferences.node? n = (s.node? n).map Node.placed := by
        unfold node? placeReferences
        rw [Array.getElem?_map]
        cases s.nodes[n]? with
        | none => rfl
        | some x => cases x <;> rfl
      simp only [contents, hnode]
      cases s.node? n with
      | none => rfl
      | some x => exact mem_held_placed hv
    | _ => rfl
  exact ⟨fun h => h.of_contents fun k v hv hne => (hcontents k v hne).mp hv,
    fun h => h.of_contents fun k v hv hne => (hcontents k v hne).mpr hv⟩

end Store

end SheetLint
