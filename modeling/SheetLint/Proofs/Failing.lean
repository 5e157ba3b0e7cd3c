import SheetLint.Proofs.Conflicts
import SheetLint.Proofs.Gathering
import SheetLint.Proofs.Growth
import SheetLint.Proofs.StrictWalks

/-!
# What a failed computation of children leaves behind

Asked for its children, a node can fail while these are gathered. Then no parent was touched
(`Edit.gather_cases`). Or it fails where one of them is attached, and then all that came before that
one are attached already. Under the strict policy that is where a child has another parent.

To ask again at once changes nothing that is there, and fails in the same way. Whatever was handed a
location keeps it when it is handed down again (`Store.Rests`), whatever was attached stays so, and
the variables that are made anew are attached without anybody noticing (`Store.Again`). So the same
child is reached, in a store that has only grown.
-/

namespace SheetLint

namespace Kid

theorem length_places : ∀ (next : NodeId) (ks : List Kid), (places next ks).length = ks.length
  | _, [] => rfl
  | next, .node _ :: ks => congrArg (· + 1) (length_places next ks)
  | next, .variable _ :: ks => congrArg (· + 1) (length_places (next + 1) ks)

/-- What comes before a child is what is listed before it. -/
theorem places_split {next : NodeId} {ks : List Kid} {before after : List NodeId} {c : NodeId}
    (h : places next ks = before ++ c :: after) (hc : c < next) :
    ∃ ks₁ ks₂, ks = ks₁ ++ .node c :: ks₂ ∧ before = places next ks₁ := by
  obtain ⟨ks₁, k, ks₂, rfl, hlength⟩ : ∃ ks₁ k ks₂, ks = ks₁ ++ k :: ks₂ ∧
      ks₁.length = before.length := by
    have hlt : before.length < ks.length := by
      rw [← length_places next ks, h]
      simp
    refine ⟨ks.take before.length, ks[before.length], ks.drop (before.length + 1), ?_, ?_⟩
    · rw [← List.drop_eq_getElem_cons hlt, List.take_append_drop]
    · rw [List.length_take]
      omega
  rw [places_append] at h
  obtain ⟨hbefore, hrest⟩ := List.append_inj h (by rw [length_places, hlength])
  match k with
  | .node m =>
    obtain ⟨rfl, _⟩ := List.cons.inj hrest
    exact ⟨ks₁, ks₂, rfl, hbefore.symm⟩
  | .variable name =>
    -- a variable would have one of the places that come next
    obtain ⟨rfl, _⟩ := List.cons.inj hrest
    exact absurd hc (Nat.not_lt.mpr (Nat.le_add_right ..))

end Kid

namespace Store

variable {s t u v : Store} {n c d : NodeId} {fault : Fault}

/-- Agents have names that can be printed, the parents that are referred to are there, and what
variables are made of are names, not places where an attribute was lost. -/
structure Ordinary (s : Store) : Prop where
  named : s.Named
  parents : ∀ n v, (s.node n).parent = .to v → s.Holds v
  names : ∀ n ks, s.kids n = some ks → ∀ name ∈ Kid.names ks, name.isMissing = false

/-- What was there is there later. -/
theorem hasPlace_later (h : s.Extends t) (hagents : t.agents = s.agents) {k : Cell}
    (hk : s.hasPlace k) : t.hasPlace k := by
  cases k with
  | node n => exact Nat.lt_of_lt_of_le hk h.nodes
  | list l => exact Nat.lt_of_lt_of_le hk h.lists
  | table k => exact Nat.lt_of_lt_of_le hk h.tables
  | agent i =>
    rw [hasPlace, hagents]
    exact hk
  | _ => trivial

/-- A node has a live parent other than `n`. -/
def HasOther (s : Store) (n c : NodeId) : Prop :=
  ∃ v, s.parent? c = .ok (some v) ∧ v ≠ .node n

/-- The first of the children listed that has another parent and does not occur before. -/
def FirstConflict (s : Store) (n : NodeId) (cs : List NodeId) (i : Nat) : Prop :=
  ∃ c, cs[i]? = some c ∧ s.HasOther n c ∧ c ∉ cs.take i ∧
    ∀ j < i, ∀ d, cs[j]? = some d → s.HasOther n d → d ∈ cs.take j

/-! ## Handing down again -/

/-- There is nothing left for a node to take from the location of another one. -/
def Rests (s : Store) (n c : NodeId) : Prop :=
  s.isExpression c = true →
    (s.node c).position.completed (s.node n).position = (s.node c).position

theorem isExpression_setParent (s : Store) (d c : NodeId) (p : Value) :
    (s.setParent (.node d) p).isExpression c = s.isExpression c := by
  have hmark : ((s.setParent (.node d) p).node c).expressionMark = (s.node c).expressionMark := by
    rw [node_setParent]
    split <;> rfl
  rw [isExpression, hmark]
  rfl

theorem rests_fill (s : Store) (n c : NodeId) : (s.fill c n).Rests n c := by
  intro hexpr
  rw [isExpression_fill] at hexpr
  have hcontainer := position_fillAll n [c] s
  rw [show (s.fill c n).node n = (s.fillAll n [c]).node n from rfl, hcontainer, node_fill,
    if_pos ⟨rfl, hexpr⟩]
  exact Position.completed_twice ..

namespace Rests

/-- What rests does so after any location was handed down. -/
theorem fill (h : s.Rests n c) (d : NodeId) : (s.fill d n).Rests n c := by
  by_cases hd : c = d
  · rw [hd]
    exact rests_fill s n d
  · intro hexpr
    rw [isExpression_fill] at hexpr
    have hcontainer := position_fillAll n [d] s
    rw [show (s.fill d n).node n = (s.fillAll n [d]).node n from rfl, hcontainer, node_fill,
      if_neg fun hc => hd hc.1]
    exact h hexpr

theorem setParent (h : s.Rests n c) (d : NodeId) (p : Value) :
    (s.setParent (.node d) p).Rests n c := by
  intro hexpr
  rw [isExpression_setParent] at hexpr
  rw [position_setParent, position_setParent]
  exact h hexpr

/-- A new variable disturbs no rest. -/
theorem addVariable (h : s.Rests n c) (hn : n < s.nodes.size) (name : Value) :
    (s.addVariable n name).Rests n c := by
  intro hexpr
  rw [node_addVariable hn]
  by_cases hc : c = s.nodes.size
  · -- the variable itself, which stands where its container does
    rw [Store.addVariable, node_addNode, if_pos hc]
    exact Position.completed_self _
  · have hnode : (s.addVariable n name).node c = s.node c := by
      rw [Store.addVariable, node_addNode, if_neg hc]
    rw [isExpression, hnode] at hexpr
    rw [hnode]
    exact h hexpr

/-- Where there is nothing left to take nothing is taken. -/
theorem node_fill (h : s.Rests n c) (d : NodeId) : (s.fill c n).node d = s.node d := by
  rw [Store.node_fill]
  split
  · rename_i hd
    rw [hd.1, h hd.2]
  · rfl

end Rests

/-- What was handed a location rests. -/
theorem rests_fillAll (n : NodeId) : ∀ (cs : List NodeId) (s : Store), ∀ c ∈ cs,
    (s.fillAll n cs).Rests n c
  | [], _, _, hc => absurd hc (by simp)
  | d :: ds, s, c, hc => by
    rw [fillAll, List.foldl_cons, ← fillAll]
    rcases List.mem_cons.mp hc with rfl | hc
    · exact fillAll_keeps (P := fun u => u.Rests n c) (fun _ => True) (fun _ e h _ => h.fill e) ds
        (rests_fill s n c) fun _ _ => trivial
    · exact rests_fillAll n ds (s.fill d n) c hc

/-- What is handed down early is a matter of what was there. -/
theorem early_extends (hs : s.Closed) (h : s.Extends t) (hn : n < s.nodes.size) :
    t.early n = s.early n := by
  have hfield := hs.field n
  rw [early, early, h.form n hn]
  cases hf : (s.node n).form with
  | statement children st =>
    rw [hf] at hfield
    have hitems : ∀ v ∈ st.fields, (t.items v).toOption = (s.items v).toOption := fun v hv =>
      h.items (hfield v (List.mem_cons_of_mem _ hv))
    cases st with
    | callable isFunction name args splat =>
      simp only [earlyIn, hitems args (by simp [Statement.fields])]
    | mixinDef name args splat hasContent =>
      simp only [earlyIn, hitems args (by simp [Statement.fields])]
    | mixin name args keywords splat keywordSplat =>
      simp only [earlyIn, hitems args (by simp [Statement.fields])]
    | _ => rfl
  | _ => rfl

/-! ## Attaching one child after the other -/

/-- A store in which some children of a node were attached under the strict policy, those of
`before` at most. -/
structure Progress (n : NodeId) (before : List NodeId) (s u : Store) : Prop where
  size : u.nodes.size = s.nodes.size
  extends_ : s.Extends u
  steady : s.Steady u
  closed : s.Closed → u.Closed
  others : ∀ c, c ∉ before → (u.node c).parent = (s.node c).parent
  container : (u.node n).position = (s.node n).position
  rests : ∀ c, s.Rests n c → u.Rests n c
  agents : u.agents = s.agents

namespace Progress

variable {before : List NodeId}

theorem refl (n : NodeId) (before : List NodeId) (s : Store) : Progress n before s s :=
  ⟨rfl, .refl s, .refl s, id, fun _ _ => rfl, rfl, fun _ => id, rfl⟩

/-- Completing a location is progress. -/
theorem fill (h : Progress n before s u) (c : NodeId) : Progress n before s (u.fill c n) where
  size := (size_fill u c n).trans h.size
  extends_ := h.extends_.fill c n
  steady d v hd := by
    rw [parent_fill]
    exact h.steady d v hd
  closed hs := (h.closed hs).fill c n
  others d hd := (parent_fill u c n d).trans (h.others d hd)
  container := (position_fillAll n [c] u).trans h.container
  rests d hd := (h.rests d hd).fill c
  agents := (agents_fill u c n).trans h.agents

/-- Attaching a child that has no live parent is progress. -/
theorem setParent (h : Progress n before s u) (hc : c ∈ before) (hnone : u.parent? c = .ok none) :
    Progress n before s (u.setParent (.node c) (.node n)) where
  size := (size_setParent u c _).trans h.size
  extends_ := h.extends_.setParent c _
  steady := h.steady.attach (attach_of_none hnone)
  closed hs := (h.closed hs).setParent c _
  others d hd := by
    have hne : ¬(c = d ∧ d < u.nodes.size) := by
      rintro ⟨rfl, _⟩
      exact hd hc
    rw [node_setParent, if_neg hne]
    exact h.others d hd
  container := (position_setParent u c n _).trans h.container
  rests d hd := (h.rests d hd).setParent c _
  agents := h.agents

theorem attach (h : Progress n before s u) (hc : c ∈ before)
    (ha : u.attach (.node c) (.node n) .strict = .ok t) : Progress n before s t := by
  rcases attach_inv ha with ⟨_, rfl⟩ | ⟨hnone, rfl⟩ | ⟨_, _, _, _, hpolicy, _⟩
  · exact h
  · exact h.setParent hc hnone
  · exact absurd hpolicy (by simp)

end Progress

/-! ## Asking again -/

/-- What rested rests in a store that has grown. -/
theorem Grown.rests (h : t.Grown v) (hn : n < t.nodes.size) (hd : d < t.nodes.size)
    (hrests : t.Rests n d) : v.Rests n d := by
  have htruthy : ∀ w, v.truthy w = t.truthy w := by
    intro w
    cases w with
    | list l => rw [truthy, truthy, h.list]
    | table k => rw [truthy, truthy, h.table]
    | _ => rfl
  intro hexpr
  rw [isExpression, htruthy, h.node d hd] at hexpr
  rw [h.node d hd, h.node n hn]
  exact hrests hexpr

/-- A store that has grown since a computation failed: what is new refers to nothing, or to the node
whose child it is, stands where that node does, and lacks nothing. -/
structure Again (n : NodeId) (t v : Store) : Prop where
  grown : t.Grown v
  made : ∀ d, t.nodes.size ≤ d → v.parent? d = .ok none ∨ v.parent? d = .ok (some (.node n))
  rests : ∀ d, t.nodes.size ≤ d → v.Rests n d
  lost : v.hasMissing = t.hasMissing

namespace Again

theorem begin (n : NodeId) (t : Store) : Again n t t where
  grown := .refl t
  made d hd := by
    refine Or.inl (parent?_eq_none.mpr (Or.inl ?_))
    rw [node_of_size_le hd]
  rests d hd hexpr := by
    rw [isExpression, node_of_size_le hd] at hexpr
    cases hexpr
  lost := rfl

/-- Making a variable again adds to what is new and loses nothing. -/
theorem addVariable (h : Again n t v) (hn : n < t.nodes.size) {name : Value}
    (hname : name.isMissing = false) (hpresent : (t.node n).position.Present) :
    Again n t (v.addVariable n name) where
  grown := by
    refine ⟨?_, fun c hc => ?_, h.grown.lists, h.grown.tables, h.grown.agents⟩
    · rw [size_addVariable]
      exact Nat.le_succ_of_le h.grown.nodes
    · rw [node_addVariable (Nat.lt_of_lt_of_le hc h.grown.nodes)]
      exact h.grown.node c hc
  made d hd := by
    have hsame := parent_addVariables n [name] v d
    exact (h.made d hd).imp (parent?_congr hsame).mpr (parent?_congr hsame).mpr
  rests d hd := (h.rests d hd).addVariable (Nat.lt_of_lt_of_le hn h.grown.nodes) name
  lost := by
    rw [← h.grown.node n hn] at hpresent
    exact (hasMissing_addVariable hname hpresent).trans h.lost

theorem addVariables (hn : n < t.nodes.size) (hpresent : (t.node n).position.Present) :
    ∀ (names : List Value) {v : Store}, (∀ name ∈ names, name.isMissing = false) → Again n t v →
      Again n t (v.addVariables n names)
  | [], _, _, h => h
  | name :: names, _, hnames, h =>
    addVariables hn hpresent names (fun x hx => hnames x (List.mem_cons_of_mem _ hx))
      (h.addVariable hn (hnames name (List.mem_cons_self ..)) hpresent)

/-- Where everything rests, what was there and what is new, nothing changes. -/
theorem node_fill (h : Again n t v) (hd : d < t.nodes.size → v.Rests n d) (c : NodeId) :
    (v.fill d n).node c = v.node c := by
  rcases Nat.lt_or_ge d t.nodes.size with hold | hnew
  · exact (hd hold).node_fill c
  · exact (h.rests d hnew).node_fill c

/-- Completing a location again changes nothing: what was there rests, and so does what is new. -/
theorem fill (h : Again n t v) (hd : d < t.nodes.size → v.Rests n d) : Again n t (v.fill d n) where
  grown := by
    refine ⟨?_, fun c hc => ?_, (list_fill v d n).trans h.grown.lists,
      (tables_fill v d n).trans h.grown.tables, (agents_fill v d n).trans h.grown.agents⟩
    · rw [size_fill]
      exact h.grown.nodes
    · rw [h.node_fill hd]
      exact h.grown.node c hc
  made c hc := by
    have hsame := parent_fill v d n c
    exact (h.made c hc).imp (parent?_congr hsame).mpr (parent?_congr hsame).mpr
  rests c hc := (h.rests c hc).fill d
  lost := by
    refine (hasMissing_congr (hasBacked_fill v d n) (agents_fill v d n) fun c => ?_).trans h.lost
    rw [lacks, lacks, h.node_fill hd]

theorem fillAll (hn : n < t.nodes.size) : ∀ (cs : List NodeId) {v : Store}, Again n t v →
    (∀ c ∈ cs, t.Rests n c) → Again n t (v.fillAll n cs)
  | [], _, h, _ => h
  | c :: cs, v, h, hcs => by
    refine fillAll hn cs (h.fill fun hc => ?_) fun d hd => hcs d (List.mem_cons_of_mem _ hd)
    exact h.grown.rests hn hc (hcs c (List.mem_cons_self ..))

/-- Attaching something new leaves alone what was there. -/
theorem setParent (h : Again n t v) (hd : t.nodes.size ≤ d) :
    Again n t (v.setParent (.node d) (.node n)) where
  grown := by
    refine ⟨?_, fun c hc => ?_, h.grown.lists, h.grown.tables, h.grown.agents⟩
    · rw [size_setParent]
      exact h.grown.nodes
    · have hne : ¬(d = c ∧ c < v.nodes.size) := by
        rintro ⟨rfl, _⟩
        exact absurd hc (Nat.not_lt.mpr hd)
      rw [node_setParent, if_neg hne]
      exact h.grown.node c hc
  made c hc := by
    by_cases hdc : d = c ∧ c < v.nodes.size
    · refine Or.inr (parent?_eq_some.mpr ?_)
      rw [node_setParent, if_pos hdc]
    · have hsame : ((v.setParent (.node d) (.node n)).node c).parent = (v.node c).parent := by
        rw [node_setParent, if_neg hdc]
      exact (h.made c hc).imp (parent?_congr hsame).mpr (parent?_congr hsame).mpr
  rests c hc := (h.rests c hc).setParent d _
  lost := by
    have hsame : (v.setParent (.node d) (.node n)).hasMissing = v.hasMissing := by
      refine hasMissing_congr rfl rfl fun c => ?_
      rw [lacks, lacks, node_setParent]
      split <;> rfl
    exact hsame.trans h.lost

/-- A child that is attached already, or new, is attached again without a word. -/
theorem adopt (h : Again n t v) (hn : n < t.nodes.size)
    (hd : d < t.nodes.size → (t.node d).parent = .to (.node n) ∧ t.Rests n d) :
    ∃ w, (Edit.adopt n .strict d).perform v = (.ok ⟨⟩, w) ∧ Again n t w := by
  have hfill := h.fill fun hlt => h.grown.rests hn hlt (hd hlt).2
  rw [Edit.perform_adopt]
  rcases Nat.lt_or_ge d t.nodes.size with hold | hnew
  · have hparent : (v.fill d n).parent? d = .ok (some (.node n)) := by
      rw [parent?_eq_some, hfill.grown.node d hold]
      exact (hd hold).1
    exact ⟨v.fill d n, by rw [attach_of_same hparent], hfill⟩
  · rcases hfill.made d hnew with hnone | hsome
    · exact ⟨_, by rw [attach_of_none hnone], hfill.setParent hnew⟩
    · exact ⟨v.fill d n, by rw [attach_of_same hsome], hfill⟩

/-- Children that refer to the node and rest can all be attached to it again, and so can new
ones. -/
theorem forM_adopt (hn : n < t.nodes.size) : ∀ (ds : List NodeId) {v : Store}, Again n t v →
    (∀ d ∈ ds, d < t.nodes.size → (t.node d).parent = .to (.node n) ∧ t.Rests n d) →
    ∃ w, (ds.forM (Edit.adopt n .strict)).perform v = (.ok ⟨⟩, w) ∧ Again n t w
  | [], v, h, _ => ⟨v, rfl, h⟩
  | d :: ds, v, h, hds => by
    obtain ⟨u, hu, hagain⟩ := h.adopt hn (hds d (List.mem_cons_self ..))
    obtain ⟨w, hw, hend⟩ :=
      forM_adopt hn ds hagain fun e he => hds e (List.mem_cons_of_mem _ he)
    exact ⟨w, by rw [Edit.forM_cons, Edit.perform_bind_ok hu, hw], hend⟩

/-- A child of another parent is refused again with the same fault, and what is there stays. -/
theorem refused (h : Again n t v) (hclosed : t.Closed) (hnamed : t.Named) (hn : n < t.nodes.size)
    (hc : c < t.nodes.size) (hrests : t.Rests n c) {current : Value} (hcurrent : t.Holds current)
    (hparent : (t.node c).parent = .to current) (hne : current ≠ .node n) {fault : Fault}
    (ha : t.attach (.node c) (.node n) .strict = .error fault) :
    (Edit.adopt n .strict c).perform v = (.error fault, v.fill c n) ∧ t.Grown (v.fill c n) := by
  have hend := h.fill fun _ => h.grown.rests hn hc hrests
  have hchild : t.Holds (.node c) := by
    intro k hk
    rw [Value.cells, List.mem_singleton] at hk
    rw [hk]
    exact hc
  have hfirst : t.parent? c = .ok (some current) := parent?_eq_some.mpr hparent
  have hsecond : (v.fill c n).parent? c = .ok (some current) := by
    rw [parent?_eq_some, hend.grown.node c hc]
    exact hparent
  -- the fault tells of the child and of its parent, both of which were there before
  have hfault : (v.fill c n).attach (.node c) (.node n) .strict = .error fault := by
    rw [attach_refused hsecond hne,
      hend.grown.secondParent hclosed hnamed hend.lost hchild hcurrent,
      ← attach_refused hfirst hne]
    exact ha
  exact ⟨by rw [Edit.perform_adopt, hfault], hend.grown⟩

end Again

end Store

namespace Edit

open Store

variable {s t u : Store} {n c : NodeId} {cs : List NodeId} {fault : Fault}

/-- A loop that fails has gone through some rounds and fails in the next. -/
theorem forM_fails_at {β : Type} {f : β → Edit PUnit} : ∀ {bs : List β} {s t : Store},
    (bs.forM f).perform s = (.error fault, t) →
      ∃ before b after u, bs = before ++ b :: after ∧
        (before.forM f).perform s = (.ok ⟨⟩, u) ∧ (f b).perform u = (.error fault, t)
  | [], _, _, h => by simp at h
  | b :: bs, s, t, h => by
    rw [forM_cons, perform_bind] at h
    cases hr : (f b).perform s with
    | mk r u =>
      rw [hr] at h
      cases r with
      | error fault' =>
        cases h
        exact ⟨[], b, bs, s, rfl, rfl, hr⟩
      | ok _ =>
        obtain ⟨before, c, after, v, rfl, hbefore, hfail⟩ := forM_fails_at h
        refine ⟨b :: before, c, after, v, rfl, ?_, hfail⟩
        rw [forM_cons, perform_bind_ok hr, hbefore]

/-- A loop that goes through goes on with what comes after it. -/
theorem perform_forM_append {β : Type} {f : β → Edit PUnit} (after : List β) :
    ∀ {before : List β} {s t : Store}, (before.forM f).perform s = (.ok ⟨⟩, t) →
      ((before ++ after).forM f).perform s = (after.forM f).perform t
  | [], _, _, h => by
    cases h
    rfl
  | b :: bs, s, t, h => by
    rw [forM_cons] at h
    obtain ⟨_, u, hfirst, hrest⟩ := of_perform_bind_ok h
    rw [List.cons_append, forM_cons, perform_bind_ok hfirst]
    exact perform_forM_append after hrest

/-- What was adopted has taken what there was to take. -/
theorem forM_adopt_rests {policy : ParentPolicy}
    (hloop : (cs.forM (adopt n policy)).perform s = (.ok ⟨⟩, t)) : ∀ c ∈ cs, t.Rests n c := by
  refine forM_establishes (P := fun _ => True) (Q := fun c u => u.Rests n c)
    (fun _ _ _ => trivial) ?_ ?_ trivial hloop
  · intro c u v _ hadopt
    exact attach_keeps (P := fun u => u.Rests n c) (fun _ h => h.setParent c _) (fun _ _ h => h)
      (rests_fill u n c) (of_adopt_ok hadopt)
  · intro c d
    exact adopt_keeps policy (fun _ h => ⟨trivial, h.2.fill d⟩)
      (fun _ h => ⟨trivial, h.2.setParent d _⟩) fun _ _ h => h

theorem forM_adopt_progress (hloop : (cs.forM (adopt n .strict)).perform s = (.ok ⟨⟩, t)) :
    Progress n cs s t := by
  have hkept := forM_adopt_preserves (Progress n cs s) (· ∈ cs) (fun _ c h _ => h.fill c)
    (fun _ _ _ h hc ha => h.attach hc ha) cs (.refl n cs s) fun _ hc => hc
  rwa [hloop] at hkept

/-! ## After gathering -/

namespace Gathered

variable {ks : List Kid} (h : Gathered s n ks u)
include h

theorem size : u.nodes.size = s.nodes.size + (Kid.names ks).length := by
  rw [h.store, size_addVariables, size_fillAll]

theorem parents (c : NodeId) : (u.node c).parent = (s.node c).parent := by
  rw [h.store, parent_addVariables, parent_fillAll]

theorem container : (u.node n).position = (s.node n).position := by
  rw [h.store, node_addVariables _ (by rw [size_fillAll]; exact h.there), position_fillAll]

theorem extends_ : s.Extends u ∧ u.agents = s.agents := by
  have hfill := fillAll_keeps (P := fun x => s.Extends x ∧ x.agents = s.agents) (fun _ => True)
    (fun x c h _ => ⟨h.1.fill c n, (agents_fill x c n).trans h.2⟩) (s.early n) ⟨.refl s, rfl⟩
    fun _ _ => trivial
  rw [h.store]
  exact addVariables_keeps (P := fun x => s.Extends x ∧ x.agents = s.agents)
    (fun _ name h => ⟨addVariable_extends h.1 n name, h.2⟩) _ hfill

/-- Gathering leaves nothing dangling. -/
theorem closed (hs : s.Closed) : u.Closed := by
  have hfill := fillAll_keeps (P := fun x => x.Closed ∧ s.Extends x ∧ x.agents = s.agents)
    (fun _ => True) (fun x c h _ => ⟨h.1.fill c n, h.2.1.fill c n,
      (agents_fill x c n).trans h.2.2⟩) (s.early n) ⟨hs, .refl s, rfl⟩ fun _ _ => trivial
  rw [h.store]
  refine hfill.1.addVariables n _ fun name hname => ?_
  obtain ⟨k, hk⟩ := List.getElem?_of_mem hname
  exact (kids_held hs h.listed _ (Kid.mem_of_names hk)).mono fun _ =>
    hasPlace_later hfill.2.1 hfill.2.2

theorem rests {c : NodeId} (hc : c ∈ s.early n) : u.Rests n c := by
  rw [h.store]
  refine (addVariables_keeps (P := fun x => n < x.nodes.size ∧ x.Rests n c) (fun x name h => ?_)
    (Kid.names ks) ⟨?_, rests_fillAll n _ s c hc⟩).2
  · rw [size_addVariable]
    exact ⟨Nat.lt_succ_of_lt h.1, h.2.addVariable h.1 name⟩
  · rw [size_fillAll]
    exact h.there

end Gathered

/-- Gathering goes through again in a store that was left with the early locations handed down, and
makes new variables. -/
theorem gather_again {ks : List Kid} (hs : s.Closed) (hg : Gathered s n ks u)
    (hextends : s.Extends t) (hposition : (t.node n).position = (s.node n).position)
    (hearly : ∀ c ∈ s.early n, t.Rests n c)
    (hnames : ∀ name ∈ Kid.names ks, name.isMissing = false) :
    ∃ w, (gather n).perform t = (.ok (Kid.places t.nodes.size ks), w) ∧ Again n t w := by
  have hnt : n < t.nodes.size := Nat.lt_of_lt_of_le hg.there hextends.nodes
  have hkids : t.kids n = some ks := by rw [kids_extends hs hextends hg.there, hg.listed]
  have hwhole : Kid.names ks = [] ∨ (t.node n).position.Present := by
    rw [hposition]
    exact hg.whole
  obtain ⟨cs, hcs⟩ := ((gather_spec t n).total ks hkids).mpr hwhole
  have hgather : (gather n).perform t = (.ok cs, ((gather n).perform t).2) := by rw [← hcs]
  obtain ⟨ks', hg', rfl⟩ := gathered hnt hgather
  obtain rfl : ks = ks' := Option.some.inj (hkids.symm.trans hg'.listed)
  refine ⟨_, hgather, ?_⟩
  have hfilled : Again n t (t.fillAll n (t.early n)) := by
    refine Again.fillAll hnt _ (.begin n t) ?_
    rwa [early_extends hs hextends hg.there]
  rw [hg'.store]
  rcases hwhole with hnone | hpresent
  · rw [hnone]
    exact hfilled
  · exact Again.addVariables hnt hpresent _ hnames hfilled

section Conflict

variable {v : Store} {ks : List Kid} {before after : List NodeId} {current : Value}
  (hs : s.Closed) (hg : Gathered s n ks u)
  (hplaces : Kid.places s.nodes.size ks = before ++ c :: after)
  (hbefore : (before.forM (adopt n .strict)).perform u = (.ok ⟨⟩, v))
include hs hg hplaces hbefore

/-- What came before the child that cannot be attached is attached. -/
theorem parent_before : ∀ d ∈ before, (v.node d).parent = .to (.node n) := by
  refine forM_adopt_parent (fun d hd => ?_) hbefore
  rw [hg.size]
  have hmem : d ∈ Kid.places s.nodes.size ks := by
    rw [hplaces]
    exact List.mem_append_left _ hd
  rcases Kid.mem_places hmem with hlisted | hmade
  · exact Nat.lt_of_lt_of_le (kids_held hs hg.listed _ hlisted) (Nat.le_add_right ..)
  · exact hmade.2

/-- None of them had another parent. -/
theorem not_hasOther_before {d : NodeId} (hd : d ∈ before) : ¬s.HasOther n d := by
  rintro ⟨w, hw, hne⟩
  have hattached := parent_before hs hg hplaces hbefore d hd
  rw [parent?_eq_some, ← hg.parents d] at hw
  rw [(forM_adopt_progress hbefore).steady d w hw] at hattached
  exact hne (Backref.to.inj hattached)

variable (hcurrent : (s.node c).parent = .to current) (hne : current ≠ .node n)
include hcurrent hne

/-- Asked again, the node fails at the same child, with the same fault, and leaves everything that
is there as it is. -/
theorem children_again (hordinary : s.Ordinary)
    (ha : (v.fill c n).attach (.node c) (.node n) .strict = .error fault)
    (hparent : ((v.fill c n).node c).parent = .to current) :
    ∃ t', (children n .strict).perform (v.fill c n) = (.error fault, t') ∧
      ∀ d < (v.fill c n).nodes.size, t'.node d = (v.fill c n).node d := by
  have hprogress := forM_adopt_progress hbefore
  have hattached := parent_before hs hg hplaces hbefore
  have hrests := forM_adopt_rests hbefore
  have hc : c < s.nodes.size := lt_size_of_parent hcurrent
  obtain ⟨ks₁, ks₂, rfl, rfl⟩ := Kid.places_split hplaces hc
  generalize ht : v.fill c n = t at ha hparent ⊢
  -- what is known of the store that was left
  have hextends : s.Extends t := by
    rw [← ht]
    exact (hg.extends_.1.trans hprogress.extends_).fill c n
  have hclosed : t.Closed := by
    rw [← ht]
    exact (hprogress.closed (hg.closed hs)).fill c n
  have hagents : t.agents = s.agents := by
    rw [← ht, agents_fill, hprogress.agents, hg.extends_.2]
  have hnamed : t.Named := by
    intro i a w hi
    rw [agent?, hagents] at hi
    exact hordinary.named i a w hi
  have hposition : (t.node n).position = (s.node n).position := by
    rw [← ht, ← hg.container, ← hprogress.container]
    exact position_fillAll n [c] v
  have hnt : n < t.nodes.size := Nat.lt_of_lt_of_le hg.there hextends.nodes
  have hct : c < t.nodes.size := Nat.lt_of_lt_of_le hc hextends.nodes
  have hold : ∀ d ∈ Kid.places s.nodes.size ks₁,
      (t.node d).parent = .to (.node n) ∧ t.Rests n d := by
    intro d hd
    rw [← ht, parent_fill]
    exact ⟨hattached d hd, (hrests d hd).fill c⟩
  have hearly : ∀ d ∈ s.early n, t.Rests n d := by
    rw [← ht]
    exact fun d hd => (hprogress.rests d (hg.rests hd)).fill c
  -- gathering goes through again, and the store grows
  obtain ⟨u', hgather, hagain⟩ :=
    gather_again hs hg hextends hposition hearly (hordinary.names n _ hg.listed)
  -- the children before are attached already, or new
  obtain ⟨w, hloop, hgrown⟩ := hagain.forM_adopt hnt (Kid.places t.nodes.size ks₁)
    fun d hd hlt => by
      rcases Kid.mem_places hd with hlisted | hmade
      · exact hold d (Kid.mem_places_of_node hlisted)
      · exact absurd hlt (Nat.not_lt.mpr hmade.1)
  -- and then comes the one that cannot be attached
  have hrest : t.Rests n c := by
    rw [← ht]
    exact rests_fill v n c
  have hholds : t.Holds current :=
    (hordinary.parents c current hcurrent).mono fun _ => hasPlace_later hextends hagents
  obtain ⟨hrefused, hend⟩ := hgrown.refused hclosed hnamed hnt hct hrest hholds hparent hne ha
  refine ⟨w.fill c n, ?_, hend.node⟩
  rw [perform_children_gather, hgather]
  simp only
  rw [Kid.places_append, Kid.places, perform_forM_append _ hloop, forM_cons, perform_bind, hrefused]

end Conflict

/-- A node lists children only where there is a node. -/
theorem lt_size_of_gather (h : (gather n).perform s = (.ok cs, u)) (hc : c ∈ cs) :
    n < s.nodes.size := by
  rcases Nat.lt_or_ge n s.nodes.size with hlt | hge
  · exact hlt
  · obtain ⟨_, _, _, _, hok⟩ := (gather_spec s n).effect
    rw [h] at hok
    obtain ⟨ks, hks, rfl, _⟩ := hok cs rfl
    rw [kids_new (.refl s) hge] at hks
    cases hks
    exact absurd hc (by simp [Kid.places])

/-- Gathering that fails does so for some other reason than a conflict. No parent has changed, and
nothing was logged. What has a new location is held in the value or the arguments of the node, is an
expression and had no line. -/
theorem gather_fails (h : (gather n).perform s = (.error fault, t)) :
    fault.isConflict = false ∧ t.log = s.log ∧ (∀ c, (t.node c).parent = (s.node c).parent) ∧
      ∀ c < s.nodes.size, t.node c = s.node c ∨
        c ∈ s.early n ∧ s.isExpression c = true ∧ (s.node c).hasLine = false ∧
          t.node c = { s.node c with
            position := (s.node c).position.completed (s.node n).position } := by
  have hpeaceful : IsPeaceful (gather n) :=
    isPeaceful_bind (isPeaceful_tryRead fun s => s.isPeaceful_callable _ _) fun _ =>
      isPeaceful_bind (isPeaceful_tryRead fun s => s.isPeaceful_callable _ _) fun _ =>
        isPeaceful_collectWith n
  obtain ⟨filled, names, ht, hfilled⟩ := gather_cases s n
  rw [h] at ht hfilled
  obtain rfl : t = _ := ht
  refine ⟨hpeaceful s fault (by rw [h]), ?_, fun c => ?_, fun c hc => ?_⟩
  · rw [log_addVariables, log_fillAll]
  · rw [parent_addVariables, parent_fillAll]
  · rw [node_addVariables _ (by rwa [size_fillAll]), node_fillAll]
    split
    · rename_i hcomplete
      cases hline : (s.node c).hasLine with
      | true =>
        -- what has a line takes nothing
        refine Or.inl ?_
        have hnull : (s.node c).position.line.isNull = false := by simpa [Node.hasLine] using hline
        rw [Position.completed, if_neg (by simp [hnull])]
      | false =>
        refine Or.inr ⟨?_, hcomplete.2, rfl, rfl⟩
        rcases hfilled with rfl | ⟨rfl, _⟩
        · exact hcomplete.1
        · exact absurd hcomplete.1 (by simp)
    · exact Or.inl rfl

/-- Where attaching comes to a conflict the children before the first child of another parent are
attached, no other parent has changed, and to ask again fails at the same child. -/
theorem attaching_fails (hs : s.Closed) (hcs : (gather n).perform s = (.ok cs, u))
    (hloop : (cs.forM (adopt n .strict)).perform u = (.error fault, t))
    (hconflict : fault.isConflict = true) :
    ∃ i, s.FirstConflict n cs i ∧
      (∀ d ∈ cs.take i, (t.node d).parent = .to (.node n)) ∧
      (∀ d < s.nodes.size, d ∉ cs.take i → (t.node d).parent = (s.node d).parent) ∧
      (s.Ordinary → ∃ t', (children n .strict).perform t = (.error fault, t') ∧
        ∀ d < t.nodes.size, t'.node d = t.node d) := by
  obtain ⟨before, c, after, v, rfl, hbefore, hfail⟩ := forM_fails_at hloop
  have hn : n < s.nodes.size := lt_size_of_gather hcs (c := c) (by simp)
  obtain ⟨ks, hg, hplaces⟩ := gathered hn hcs
  have hprogress := forM_adopt_progress hbefore
  obtain ⟨ha, rfl⟩ := of_adopt_error hfail
  rcases attach_fails ha with hlost | ⟨current, hcurrent, hne, _⟩
  · -- a reference that leads nowhere is no conflict
    rw [(v.fill c n).isPeaceful_referent _ _ hlost] at hconflict
    exact absurd hconflict (by simp)
  have hparent := parent?_eq_some.mp hcurrent
  have hnew : c ∉ before := by
    intro hmem
    have hattached := parent_before hs hg hplaces.symm hbefore c hmem
    rw [parent_fill, hattached] at hparent
    exact hne (Backref.to.inj hparent).symm
  have hown : (s.node c).parent = .to current := by
    rw [← hg.parents c, ← hprogress.others c hnew, ← parent_fill v c n]
    exact hparent
  have htake : (before ++ c :: after).take before.length = before := List.take_left
  refine ⟨before.length, ⟨c, ?_, ⟨current, parent?_eq_some.mpr hown, hne⟩, ?_, ?_⟩, ?_, ?_, ?_⟩
  · simp
  · rwa [htake]
  · intro j hj d hd hother
    rw [List.getElem?_append_left hj] at hd
    exact absurd hother
      (not_hasOther_before hs hg hplaces.symm hbefore (List.mem_of_getElem? hd))
  · rw [htake]
    intro d hd
    rw [parent_fill]
    exact parent_before hs hg hplaces.symm hbefore d hd
  · rw [htake]
    intro d _ hd
    rw [parent_fill, hprogress.others d hd, hg.parents]
  · exact fun hordinary =>
      children_again hs hg hplaces.symm hbefore hown hne hordinary ha hparent

end Edit

open Store

/-- Children cannot be computed because they cannot be gathered, and then no parent has changed,
nothing was logged, and the only locations that have are those of expressions without a line among
the value or the names of arguments of the node. Or they cannot be attached. If that is because of a
conflict, then those before the first child of another parent are attached, no other parent has
changed, and asking again fails in the same way and changes nothing that is there. -/
theorem failing_children {s t : Store} {n : NodeId} {policy : ParentPolicy} {fault : Fault}
    (h : (Edit.children n policy).perform s = (.error fault, t)) :
    ((Edit.gather n).perform s = (.error fault, t) ∧ fault.isConflict = false ∧ t.log = s.log ∧
        (∀ c, (t.node c).parent = (s.node c).parent) ∧
        ∀ c < s.nodes.size, t.node c = s.node c ∨
          c ∈ s.early n ∧ s.isExpression c = true ∧ (s.node c).hasLine = false ∧
            t.node c = { s.node c with
              position := (s.node c).position.completed (s.node n).position }) ∨
      ∃ cs u, (Edit.gather n).perform s = (.ok cs, u) ∧
        (s.Closed → policy = .strict → fault.isConflict = true →
          ∃ i, s.FirstConflict n cs i ∧
            (∀ d ∈ cs.take i, (t.node d).parent = .to (.node n)) ∧
            (∀ d < s.nodes.size, d ∉ cs.take i → (t.node d).parent = (s.node d).parent) ∧
            (s.Ordinary → ∃ t', (Edit.children n .strict).perform t = (.error fault, t') ∧
              ∀ d < t.nodes.size, t'.node d = t.node d)) := by
  rw [Edit.perform_children_gather] at h
  cases hg : (Edit.gather n).perform s with
  | mk r u =>
    cases r with
    | error fault' =>
      rw [hg] at h
      cases h
      exact Or.inl ⟨rfl, Edit.gather_fails hg⟩
    | ok cs =>
      refine Or.inr ⟨cs, u, rfl, ?_⟩
      rintro hs rfl hconflict
      cases hloop : (cs.forM (Edit.adopt n .strict)).perform u with
      | mk r' v =>
        simp only [hg, hloop] at h
        cases r' with
        | ok _ => cases h
        | error fault' =>
          cases h
          exact Edit.attaching_fails hs hg hloop hconflict

/-- A loop whose children are a property, twice, and a variable, and that goes over the name of an
argument of a mixin; the mixin has another argument, which has no name. -/
def brokenSheet : Store where
  nodes := #[
    some { position := { line := .int 1 }
           form := .statement (.list 0) (.each (.list 1) (.node 2)) },
    some { position := { line := .int 2 }, form := .statement (.list 3) (.prop (.list 3) .null) },
    some { form := .expression (.literal (.text "a")), parent := .to (.node 3) },
    some { position := { line := .int 5 }
           form := .statement (.list 3) (.mixinDef (.text "m") (.list 2) .null (.bool false)) }]
  lists := #[[.node 1, .node 1], [.text "color"], [.node 2, .tuple 0 []], []]

/-- The mixin hands its line to the first argument before it fails. The loop attaches what comes
before that argument, and says of it that it stands where the loop does, twice. -/
theorem failing_children_broken :
    brokenSheet.Closed ∧ brokenSheet.Ordinary ∧
      (∃ t, (Edit.children 3 .refresh).perform brokenSheet = (.error (.outOfRange "tuple"), t) ∧
        (∀ c, (t.node c).parent = (brokenSheet.node c).parent) ∧
        (t.node 2).position = { line := .int 5 }) ∧
      ∃ t, (Edit.children 0 .strict).perform brokenSheet =
          (.error (.secondParent "script_literal" "1" "mixindef" "5"), t) ∧
        brokenSheet.FirstConflict 0 [1, 1, 4, 2] 3 ∧
        (t.node 4).parent = .to (.node 0) ∧ (t.node 2).parent = .to (.node 3) ∧
        ∃ t', (Edit.children 0 .strict).perform t =
            (.error (.secondParent "script_literal" "1" "mixindef" "5"), t') ∧
          ∀ d < t.nodes.size, t'.node d = t.node d := by
  have hclosed : brokenSheet.Closed := by decide
  have hparents : ∀ n v, (brokenSheet.node n).parent = .to v → n = 2 ∧ v = .node 3 := by
    intro n v h
    match n with
    | 0 | 1 | 3 => cases h
    | 2 => exact ⟨rfl, (Backref.to.inj h).symm⟩
    | n + 4 => cases h
  have hordinary : brokenSheet.Ordinary := by
    refine ⟨fun _ _ _ h => (nomatch h), fun n v h => ?_, fun n ks hks => ?_⟩
    · rw [(hparents n v h).2]
      decide
    · match n with
      | 0 | 1 | 2 =>
        cases hks
        decide
      | 3 => cases hks
      | n + 4 =>
        rw [kids_new (.refl brokenSheet) (Nat.le_add_left 4 n)] at hks
        cases hks
        decide
  refine ⟨hclosed, hordinary, ?_, ?_⟩
  · rcases failing_children (rfl : (Edit.children 3 .refresh).perform brokenSheet =
      (.error (.outOfRange "tuple"), _)) with ⟨-, -, -, hsame, -⟩ | ⟨_, _, hgather, -⟩
    · exact ⟨_, rfl, hsame, rfl⟩
    · cases hgather
  · obtain ⟨t, hrun⟩ : ∃ t, (Edit.children 0 .strict).perform brokenSheet =
        (.error (.secondParent "script_literal" "1" "mixindef" "5"), t) := by
      have hfault : ((Edit.children 0 .strict).perform brokenSheet).1 =
          .error (.secondParent "script_literal" "1" "mixindef" "5") := by
        decide +kernel
      rw [← hfault]
      exact ⟨_, (Prod.eta _).symm⟩
    rcases failing_children hrun with ⟨hgather, -⟩ | ⟨_, _, hgather, hconflict⟩
    · cases hgather
    · cases hgather
      obtain ⟨i, hfirst, hattached, hothers, hagain⟩ := hconflict hclosed rfl rfl
      obtain rfl : i = 3 := by
        obtain ⟨c, hc, ⟨v, hv, -⟩, -⟩ := hfirst
        obtain ⟨rfl, -⟩ := hparents c v (parent?_eq_some.mp hv)
        match i with
        | 0 | 1 | 2 | i + 4 => cases hc
        | 3 => rfl
      exact ⟨t, hrun, hfirst, hattached 4 (by decide),
        hothers 2 (by decide) (by decide), hagain hordinary⟩

end SheetLint
