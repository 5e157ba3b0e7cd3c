import SheetLint.Proofs.Containers
import SheetLint.Proofs.Locations
import SheetLint.Proofs.Sameness

/-!
# Walking twice

A refreshing walk that is done leaves a document in which no location can be completed any more and
every child refers to one of its containers (`Locations`, `Containers`). A second walk therefore has
nothing to complete and nothing to fail at (`Resting.children`). It goes the same way as the first,
step by step (`Tour.again`): the same nodes, and for each variable that the first walk made another
one of the same name at the same place. So the parents end up the same too, though on the way they
may change back and forth where nodes are shared.
-/

namespace SheetLint

namespace Store

variable {s t u s₀ s₁ a b : Store} {root n m c x y : NodeId} {policy : ParentPolicy}
  {cs ds : List NodeId}

/-! ## Variables -/

/-- One and the same name is equal to itself, if it is there. -/
theorem same_self (s : Store) {v : Value} (h : v.isMissing = false) :
    (v.identical v || s.sameTo 1 v v) = true := by
  cases v with
  | missing owner lost => simp [Value.isMissing] at h
  | float x m => cases x with
    | infinite negative =>
      cases negative <;> simp [Value.identical, Value.cell?, sameTo, Value.number?,
        Binary64.magnitude, Magnitude.same]
    | _ => simp [Value.identical, Value.cell?, sameTo, Value.number?, Binary64.magnitude,
        Magnitude.same]
  | _ => simp [Value.identical, Value.cell?, sameTo, Value.number?, Magnitude.same]

/-- Variables of one name are equal. -/
theorem same_variables {name : Value} (hx : (s.node x).form = .expression (.variable name))
    (hy : (s.node y).form = .expression (.variable name)) (hname : name.isMissing = false) :
    s.same (.node x) (.node y) = true := by
  refine same_iff.mpr ⟨2, ?_⟩
  have hself := same_self s hname
  rw [sameTo]
  simp only [sameNode, hx, hy, Expression.fields, Value.pairwise, hself]
  simp

/-- Whatever variables are made for below a node does not count as an expression, and they get a
name. -/
def MakesProperly (s : Store) (root : NodeId) : Prop :=
  ∀ n ks, s.Below root n → s.kids n = some ks → ∀ name ∈ Kid.names ks,
    s.isExpression n = false ∧ name.isMissing = false

/-- Only statements make variables. -/
theorem exists_statement_of_name {ks : List Kid} {name : Value} (hks : s.kids n = some ks)
    (hname : name ∈ Kid.names ks) : ∃ body st, (s.node n).form = .statement body st := by
  simp only [kids, Option.bind_eq_bind, Option.bind_eq_some_iff] at hks
  obtain ⟨_, _, _, _, hlisted⟩ := hks
  simp only [listed, Option.bind_eq_bind, Option.bind_eq_some_iff] at hlisted
  obtain ⟨before, hbefore, hform⟩ := hlisted
  have hnone : Kid.names before = [] := by
    obtain ⟨ns, _, rfl⟩ := Option.map_eq_some_iff.mp hbefore
    exact Kid.names_nodes ns
  cases hf : (s.node n).form with
  | statement body st => exact ⟨body, st, rfl⟩
  | _ =>
    -- anything else lists its structural children alone
    rw [hf] at hform
    obtain rfl : before = ks := Option.some.inj hform
    rw [hnone] at hname
    exact absurd hname (by simp)

/-- So what makes variables counts as an expression only if it says so of itself. -/
theorem isExpression_of_name {ks : List Kid} {name : Value} (hks : s.kids n = some ks)
    (hname : name ∈ Kid.names ks)
    (hnotes : ((s.node n).notes.lookup "is_expression").isNone = true) :
    s.isExpression n = false := by
  obtain ⟨body, st, hform⟩ := exists_statement_of_name hks hname
  rw [isExpression, Node.expressionMark, Option.isNone_iff_eq_none.mp hnotes, hform]
  rfl

/-- Variables are made properly where no node has a mark of its own and no name was lost. -/
theorem makesProperly_of_nodes (hs : s.Closed) (there : root < s.nodes.size)
    (hnotes : ∀ n < s.nodes.size, ((s.node n).notes.lookup "is_expression").isNone = true)
    (hnames : ∀ n < s.nodes.size, ∀ ks ∈ s.kids n, ∀ name ∈ Kid.names ks,
      name.isMissing = false) : s.MakesProperly root := by
  intro n ks hn hks name hname
  have hsize := hn.lt_size hs there
  exact ⟨isExpression_of_name hks hname (hnotes n hsize), hnames n hsize ks hks name hname⟩

/-- A variable of a name that stands at a place. -/
structure IsVariable (s : Store) (x : NodeId) (name : Value) (p : Position) : Prop where
  form : (s.node x).form = .expression (.variable name)
  position : (s.node x).position = p

theorem IsVariable.lt_size {name : Value} {p : Position} (h : s.IsVariable x name p) :
    x < s.nodes.size := by
  rcases Nat.lt_or_ge x s.nodes.size with hx | hx
  · exact hx
  · have hform := h.form
    rw [node_of_size_le hx] at hform
    exact absurd hform (by simp)

/-- A variable and the node that it was made for, both at one place. -/
structure MadeFor (s : Store) (n x : NodeId) (name : Value) (p : Position) : Prop where
  container : (s.node n).position = p
  made : s.IsVariable x name p

/-- Whoever stands where the container does has nothing to take from it. -/
theorem position_fill_of_eq (h : (s.node x).position = (s.node n).position) (c : NodeId) :
    ((s.fill c n).node x).position = (s.node x).position := by
  rw [node_fill]
  split
  · rename_i hc
    rw [← hc.1, h, Position.completed_self]
  · rfl

namespace MadeFor

variable {name : Value} {p : Position}

/-- A variable stays where it was made when locations are completed. -/
theorem fill (h : s.MadeFor n x name p) (c : NodeId) : (s.fill c n).MadeFor n x name p := by
  have hplace : (s.node x).position = (s.node n).position :=
    h.made.position.trans h.container.symm
  refine ⟨(position_fill_of_eq rfl c).trans h.container, ?_,
    (position_fill_of_eq hplace c).trans h.made.position⟩
  rw [node_fill]
  split
  · rename_i hc
    rw [← hc.1]
    exact h.made.form
  · exact h.made.form

/-- And when parents are written. -/
theorem setParent (h : s.MadeFor n x name p) (c : NodeId) :
    (s.setParent (.node c) (.node n)).MadeFor n x name p := by
  refine ⟨?_, ?_, ?_⟩
  · rw [position_setParent]
    exact h.container
  · rw [node_setParent]
    split <;> exact h.made.form
  · rw [position_setParent]
    exact h.made.position

end MadeFor

/-- The variables that are made for a node stand where it does. -/
theorem made_of_children (hself : n < s.nodes.size)
    (hcs : (Edit.children n policy).perform s = (.ok cs, t)) :
    ∃ ks, s.kids n = some ks ∧ cs = Kid.places s.nodes.size ks ∧
      ∀ k name, (Kid.names ks)[k]? = some name →
        t.IsVariable (s.nodes.size + k) name (s.node n).position := by
  obtain ⟨ks, filled, hks, rfl, _, hloop⟩ := Edit.children_ok hcs
  refine ⟨ks, hks, rfl, fun k name hk => ?_⟩
  let P (u : Store) : Prop := u.MadeFor n (s.nodes.size + k) name (s.node n).position
  have hcollected : P ((s.fillAll n filled).addVariables n (Kid.names ks)) := by
    have hsize : n < (s.fillAll n filled).nodes.size := by rwa [size_fillAll]
    have hnew := node_addVariables_new (Kid.names ks) hsize hk
    rw [size_fillAll, position_fillAll] at hnew
    refine ⟨?_, ?_, ?_⟩
    · rw [node_addVariables (Kid.names ks) hsize, position_fillAll]
    · rw [hnew]
    · rw [hnew]
  have hattach : ∀ u v c, P u → u.attach (.node c) (.node n) policy = .ok v → P v :=
    fun u v c hu ha => Edit.attach_keeps (fun _ hu => hu.setParent c)
      (fun _ _ hu => ⟨hu.container, hu.made.form, hu.made.position⟩) hu ha
  have hadopted := Edit.forM_adopt_preserves P (fun _ => True) (fun u c hu _ => hu.fill c)
    (fun u v c hu _ ha => hattach u v c hu ha)
    (Kid.places s.nodes.size ks) hcollected fun _ _ => trivial
  rw [hloop] at hadopted
  exact hadopted.made

/-- What does not count as an expression stands where it did. -/
structure Unmoved (s₀ s : Store) : Prop where
  extends_ : s₀.Extends s
  position : ∀ n < s₀.nodes.size, s₀.isExpression n = false →
    (s.node n).position = (s₀.node n).position

/-- Computing children moves nothing that does not count as an expression. -/
theorem Unmoved.children (hs₀ : s₀.Closed) (h : s₀.Unmoved s) (n : NodeId)
    (policy : ParentPolicy) : s₀.Unmoved ((Edit.children n policy).perform s).2 := by
  refine Edit.children_keeps s₀.Unmoved (fun _ => True) ?_ ?_ ?_ ?_ h (fun _ _ => trivial) policy
  · intro u c hu _
    refine ⟨hu.extends_.fill c n, fun m hm hexpr => ?_⟩
    have hne : ¬(m = c ∧ u.isExpression c) := by
      rintro ⟨rfl, he⟩
      rw [isExpression_extends hs₀ hu.extends_ hm, hexpr] at he
      exact absurd he (by simp)
    rw [node_fill, if_neg hne]
    exact hu.position m hm hexpr
  · intro u name hu
    refine ⟨addVariable_extends hu.extends_ n name, fun m hm hexpr => ?_⟩
    rw [node_addVariable (Nat.lt_of_lt_of_le hm hu.extends_.nodes)]
    exact hu.position m hm hexpr
  · intro u c hu _
    refine ⟨hu.extends_.setParent c _, fun m hm hexpr => ?_⟩
    rw [position_setParent]
    exact hu.position m hm hexpr
  · exact fun u m hu => ⟨hu.extends_.note m, hu.position⟩

/-! ## The second walk changes nothing -/

/-- A store in the course of a second walk, which began in `s₁`: whatever was there then stands
where it did. -/
structure Resting (s₀ : Store) (root : NodeId) (s₁ s : Store) : Prop where
  attaching : Attaching (s₀.Contains root) s₀ root s
  later : s₁.Extends s
  position : ∀ n < s₁.nodes.size, (s.node n).position = (s₁.node n).position

/-- A second walk computes children without failing, and completes nothing. -/
theorem Resting.children (hs₀ : s₀.WellFormed root) (htop : ∀ n, ¬s₀.Contains root n root)
    (hs₁ : s₀.Extends s₁) (hrest : s₀.AtRest root s₁) (h : s₀.Resting root s₁ s)
    (hn : s₀.Below root n ∨ s₀.nodes.size ≤ n) :
    ∃ cs t, (Edit.children n .refresh).perform s = (.ok cs, t) ∧ s₀.Resting root s₁ t := by
  have hext := h.attaching.intact.extends_
  have ht := h.attaching.children hs₀ htop (fun _ _ h => h) hn .refresh
  have hlater := children_extends h.later n .refresh
  cases hcs : (Edit.children n .refresh).perform s with
  | mk r t =>
    rw [hcs] at ht hlater
    cases r with
    | error fault =>
      obtain ⟨hpolicy, _⟩ := h.attaching.children_fails hs₀ htop (fun _ _ h => h) hn hcs
      exact absurd hpolicy (by simp)
    | ok cs =>
      refine ⟨cs, t, rfl, ht, hlater, fun m hm => ?_⟩
      have hsize := Nat.lt_of_lt_of_le hm h.later.nodes
      by_cases hmem : m ∈ cs
      · -- variables of the first walk are given by nobody any more
        have hold : m < s₀.nodes.size := by
          by_contra hnew
          exact absurd hsize
            (Nat.not_lt.mpr (new_of_mem_children hs₀.closed hext hcs hmem (Nat.le_of_not_lt hnew)))
        have hleads := (mem_children_iff hs₀.closed hext hcs hold).mp hmem
        have hbelow := hn.resolve_right (Nat.not_le.mpr hleads.self_lt_size)
        -- what the container hands down is what it had to hand down after the first walk: nothing
        have hsame : handed s₀ s n m = handed s₀ s₁ n m := by
          have hself := Nat.lt_of_lt_of_le hleads.self_lt_size hs₁.nodes
          rw [handed, handed, h.position m hm, h.position n hself]
        rw [position_of_mem_children hs₀.closed hext hcs hmem hold, hsame]
        exact hrest n m ⟨hbelow, hleads⟩
      · rw [node_children_of_not_mem hcs hmem hsize]
        exact h.position m hm

/-- Where nothing is shared nothing is logged either: every child refers to its container
already. -/
theorem Attaching.log_children (hs₀ : s₀.WellFormed root) (htop : ∀ n, ¬s₀.Contains root n root)
    (hshares : ¬s₀.SharesBelow root) (h : Attaching (s₀.Contains root) s₀ root s)
    (hn : s₀.Below root n ∨ s₀.nodes.size ≤ n) (policy : ParentPolicy) :
    ((Edit.children n policy).perform s).2.log = s.log := by
  obtain ⟨ks, hks⟩ := hs₀.exists_kids h.intact.extends_ hn
  have hfit : ∀ n c, s₀.Contains root n c → s₀.Contains root n c := fun _ _ h => h
  let P (u : Store) : Prop := Computing (s₀.Contains root) s₀ root s n u ∧ u.log = s.log
  have hkept : P ((Edit.children n policy).perform s).2 := by
    refine Edit.children_preserves P (s₀.IsOffered root s n) ?_ ?_ ?_ ⟨.begin h n, rfl⟩ ?_
    · rintro u c ⟨hu, hlog⟩ _
      refine ⟨hu.fill hs₀ c n, ?_⟩
      rw [← hlog, Store.fill]
      split <;> rfl
    · rintro u name ⟨hu, hlog⟩
      exact ⟨hu.addVariable hs₀ n name, hlog⟩
    · rintro u v c ⟨hu, hlog⟩ hc ha
      refine ⟨hu.attach hs₀ htop hfit hc ha, ?_⟩
      rcases attach_inv ha with ⟨_, rfl⟩ | ⟨_, rfl⟩ | ⟨current, message, hcurrent, hne, _, _⟩
      · exact hlog
      · exact hlog
      · -- another parent would be another container
        rcases hu.parent_of_offered hc with hnone | ⟨m, hsome, hwho⟩
        · exact absurd (hcurrent.symm.trans hnone) (by simp)
        · rw [hcurrent] at hsome
          cases hsome
          rcases hwho with rfl | ⟨hm, hn⟩
          · exact absurd rfl hne
          · rw [hm.unique hshares hn] at hne
            exact absurd rfl hne
    · exact fun c hc => isOffered_of_kid hs₀.closed h.intact.extends_ hn hks
        (hc.imp_left fun hlisted => hlisted ks hks)
  exact hkept.2

/-- Where every node refers to its container or to nothing, no parent is replaced, and so a walk
logs nothing. -/
theorem Attaching.log_tour (hs₀ : s₀.WellFormed root) (htop : ∀ n, ¬s₀.Contains root n root)
    (hshares : ¬s₀.SharesBelow root) (h : Attaching (s₀.Contains root) s₀ root s)
    {stack left : List NodeId} {visits : List (Value × Store)}
    (htour : Walk.Tour policy stack s visits left u)
    (hstack : ∀ n ∈ stack, s₀.Below root n ∨ s₀.nodes.size ≤ n) : u.log = s.log := by
  induction htour with
  | rest => rfl
  | @step n rest cs left s t u visits hcs _ ih =>
    have hn := hstack n (List.mem_cons_self ..)
    have ht := h.children hs₀ htop (fun _ _ h => h) hn policy
    have hlog := h.log_children hs₀ htop hshares hn policy
    rw [hcs] at ht hlog
    rw [← hlog]
    exact ih ht (below_stack hs₀.closed h.intact.extends_ hstack hcs)

/-! ## Twins -/

/-- What is visited by the second walk where the first one visited a node: the same node, or for a
variable that was made on the way another one, made since `s₁`, of the same name at the same
place. -/
inductive Twin (s₀ s₁ a b : Store) : NodeId → NodeId → Prop where
  | listed {n : NodeId} : n < s₀.nodes.size → Twin s₀ s₁ a b n n
  | made {x y : NodeId} {name : Value} {p : Position} : name.isMissing = false →
      s₀.nodes.size ≤ x → a.IsVariable x name p → s₁.nodes.size ≤ y → b.IsVariable y name p →
      Twin s₀ s₁ a b x y

/-- What is made is left alone from then on. -/
theorem IsVariable.children (hs₀ : s₀.Closed) (hs : s₀.Extends s)
    (hcs : (Edit.children n policy).perform s = (.ok cs, t)) (hnew : s₀.nodes.size ≤ x)
    {name : Value} {p : Position} (h : s.IsVariable x name p) : t.IsVariable x name p := by
  have hnode := node_children_of_new hs₀ hs hcs hnew h.lt_size
  refine ⟨?_, ?_⟩
  · rw [hnode]
    exact h.form
  · rw [hnode]
    exact h.position

/-- Twins stay twins while the children of two nodes are computed. -/
theorem Twin.children (hs₀ : s₀.Closed) (hs₁ : s₀.Extends s₁) (ha : s₀.Extends a)
    (hb : s₀.Extends b) (hcs : (Edit.children n policy).perform a = (.ok cs, t))
    (hds : (Edit.children m policy).perform b = (.ok ds, u)) (h : Twin s₀ s₁ a b x y) :
    Twin s₀ s₁ t u x y := by
  cases h with
  | listed hn => exact .listed hn
  | made hname hx hvar hy hvar' =>
    exact .made hname hx (hvar.children hs₀ ha hcs hx) hy
      (hvar'.children hs₀ hb hds (Nat.le_trans hs₁.nodes hy))

/-- The children of a node are twins of those that the first walk computed. -/
theorem forall₂_twin_listed (hs₀ : s₀.Closed) (hmakes : s₀.MakesProperly root)
    (hs₁ : s₀.Unmoved s₁) (ha : s₀.Unmoved a) (hb : s₀.Resting root s₁ b)
    (hn : s₀.Below root n) (hold : n < s₀.nodes.size)
    (hcs : (Edit.children n policy).perform a = (.ok cs, t))
    (hds : (Edit.children n policy).perform b = (.ok ds, u)) :
    List.Forall₂ (Twin s₀ s₁ t u) cs ds := by
  have hbext := hb.attaching.intact.extends_
  obtain ⟨ks, hks, rfl, hmade⟩ :=
    made_of_children (Nat.lt_of_lt_of_le hold ha.extends_.nodes) hcs
  obtain ⟨ks', hks', rfl, hmade'⟩ := made_of_children (Nat.lt_of_lt_of_le hold hbext.nodes) hds
  rw [kids_extends hs₀ ha.extends_ hold] at hks
  rw [kids_extends hs₀ hbext hold, hks] at hks'
  cases hks'
  refine Kid.forall₂_places_places (fun c hc => .listed (kids_held hs₀ hks _ hc)) ?_
  intro k name hk
  -- whoever makes variables stands where it always did
  obtain ⟨hexpr, hname⟩ := hmakes n ks hn hks name (List.mem_of_getElem? hk)
  have hposition : (b.node n).position = (a.node n).position := by
    rw [hb.position n (Nat.lt_of_lt_of_le hold hs₁.extends_.nodes), hs₁.position n hold hexpr,
      ha.position n hold hexpr]
  have hvar' := hmade' k name hk
  rw [hposition] at hvar'
  exact .made hname (Nat.le_trans ha.extends_.nodes (Nat.le_add_right ..)) (hmade k name hk)
    (Nat.le_trans hb.later.nodes (Nat.le_add_right ..)) hvar'

/-- Twins have children that are twins: variables have none. -/
theorem Twin.forall₂_children (hs₀ : s₀.Closed) (hmakes : s₀.MakesProperly root)
    (hs₁ : s₀.Unmoved s₁) (ha : s₀.Unmoved a) (hb : s₀.Resting root s₁ b)
    (hx : s₀.Below root x ∨ s₀.nodes.size ≤ x) (h : Twin s₀ s₁ a b x y)
    (hcs : (Edit.children x policy).perform a = (.ok cs, t))
    (hds : (Edit.children y policy).perform b = (.ok ds, u)) :
    List.Forall₂ (Twin s₀ s₁ t u) cs ds := by
  cases h with
  | listed hold =>
    have hbelow := hx.resolve_right (Nat.not_le.mpr hold)
    exact forall₂_twin_listed hs₀ hmakes hs₁ ha hb hbelow hold hcs hds
  | made _ hx _ hy _ =>
    rw [children_of_new ha.extends_ hx hcs,
      children_of_new hb.attaching.intact.extends_ (Nat.le_trans hs₁.extends_.nodes hy) hds]
    exact .nil

end Store

open Store

namespace Walk

variable {s u s₁ a b : Store} {root n c x : NodeId} {stack left : List NodeId}
  {visits visits' : List (Value × Store)} {policy : ParentPolicy}

/-! ## Step by step along two walks -/

/-- What a walk made as a variable stays the variable that it is. -/
theorem Tour.isVariable (h : Tour policy stack a visits left u) (hs : s.Closed) (ha : s.Extends a)
    (hnew : s.nodes.size ≤ x) {name : Value} {p : Position} (hx : a.IsVariable x name p) :
    u.IsVariable x name p := by
  let P (_ : List (Value × Store)) (_ : List NodeId) (v : Store) : Prop :=
    s.Extends v ∧ v.IsVariable x name p
  have hend : P ([] ++ visits) left u := by
    refine h.keeps (P := P) (fun {_ n _ v cs w} ⟨hv, hx⟩ hcs => ?_) [] ⟨ha, hx⟩
    exact ⟨extends_of_children hv hcs, hx.children hs hv hcs hnew⟩
  exact hend.2

/-- A visit of the second walk where the first one, which ended in `s₁`, visited a twin: it gives
the same children, as far as they were there before both. -/
structure VisitTwins (s s₁ : Store) (root : NodeId) (e f : Value × Store) : Prop where
  twins : ∃ x y, e.1 = .node x ∧ f.1 = .node y ∧ Twin s s₁ s₁ f.2 x y
  gives : ∀ c < s.nodes.size, e.2.gives .refresh e.1 c = f.2.gives .refresh f.1 c
  giver : ∀ c, e.2.gives .refresh e.1 c = true → e.1 = f.1
  resting : s.Resting root s₁ f.2

/-- Twins that are asked for their children make for visits that are twins. -/
theorem VisitTwins.of_children {m : NodeId} {t v : Store} {cs ds : List NodeId} (hs : s.Closed)
    (hs₁ : s.Extends s₁) (ha : s.Extends a) (hb : s.Resting root s₁ b)
    (hcs : (Edit.children n .refresh).perform a = (.ok cs, t))
    (hds : (Edit.children m .refresh).perform b = (.ok ds, v))
    (htwin : Twin s s₁ a b n m) (hend : Twin s s₁ s₁ b n m) :
    VisitTwins s s₁ root (.node n, a) (.node m, b) := by
  have hbext := hb.attaching.intact.extends_
  refine ⟨⟨n, m, rfl, rfl, hend⟩, fun c hc => ?_, fun c hgives => ?_, hb⟩
  · rw [Bool.eq_iff_iff, gives_iff hcs, gives_iff hds, mem_children_iff hs ha hcs hc,
      mem_children_iff hs hbext hds hc]
    cases htwin with
    | listed _ => rfl
    | made _ hx _ hy _ =>
      constructor
      · exact fun h => absurd h.self_lt_size (Nat.not_lt.mpr hx)
      · exact fun h => absurd h.self_lt_size (Nat.not_lt.mpr (Nat.le_trans hs₁.nodes hy))
  · cases htwin with
    | listed _ => rfl
    | made _ hx _ _ _ =>
      -- a variable gives nothing
      have hmem := (gives_iff hcs).mp hgives
      rw [children_of_new ha hx hcs] at hmem
      exact absurd hmem (by simp)

/-- The second walk goes where the first one went, step by step. -/
theorem Tour.again (hs : s.WellFormed root) (htop : ∀ n, ¬s.Contains root n root)
    (hmakes : s.MakesProperly root) (hs₁ : s.Unmoved s₁) (hrest : s.AtRest root s₁)
    (h : Tour .refresh stack a visits left u) (ha : s.Unmoved a) (hu : u = s₁)
    (hstack : ∀ n ∈ stack, s.Below root n ∨ s.nodes.size ≤ n) :
    ∀ {stack' : List NodeId} {b : Store}, s.Resting root s₁ b →
      List.Forall₂ (Twin s s₁ a b) stack stack' →
      ∃ visits' left' u', Tour .refresh stack' b visits' left' u' ∧ s.Resting root s₁ u' ∧
        List.Forall₂ (Twin s s₁ u u') left left' ∧
        List.Forall₂ (VisitTwins s s₁ root) visits visits' := by
  induction h with
  | rest =>
    intro stack' b hb htwins
    exact ⟨[], stack', b, .rest, hb, htwins, .nil⟩
  | @step n rest cs left a t u visits hcs htour ih =>
    intro stack' b hb htwins
    cases htwins with
    | @cons _ m _ rest' htwin hrests =>
      have hn := hstack n (List.mem_cons_self ..)
      have hm : s.Below root m ∨ s.nodes.size ≤ m := by
        cases htwin with
        | listed _ => exact hn
        | made _ _ _ hy _ => exact Or.inr (Nat.le_trans hs₁.extends_.nodes hy)
      -- where the first walk did not fail the second does not either
      obtain ⟨ds, v, hds, hv⟩ := hb.children hs htop hs₁.extends_ hrest hm
      have hbext := hb.attaching.intact.extends_
      have ht := ha.children hs.closed n .refresh
      rw [hcs] at ht
      have hnext := below_stack hs.closed ha.extends_ hstack hcs
      have htwins' : List.Forall₂ (Twin s s₁ t v) (cs ++ rest) (ds ++ rest') := by
        refine List.rel_append (htwin.forall₂_children hs.closed hmakes hs₁ ha hb hn hcs hds) ?_
        exact hrests.imp fun _ _ h => h.children hs.closed hs₁.extends_ ha.extends_ hbext hcs hds
      -- what was made is at the end of the first walk what it was when it was visited
      have hend : Twin s s₁ s₁ b n m := by
        cases htwin with
        | listed hold => exact .listed hold
        | made hname hx hvar hy hvar' =>
          have hvar₁ := (Tour.step hcs htour).isVariable hs.closed ha.extends_ hx hvar
          rw [hu] at hvar₁
          exact .made hname hx hvar₁ hy hvar'
      obtain ⟨visits', left', u', htour', hu', hleft, hvisits⟩ := ih ht hu hnext hv htwins'
      refine ⟨_, left', u', .step hds htour', hu', hleft, .cons ?_ hvisits⟩
      exact .of_children hs.closed hs₁.extends_ ha.extends_ hb hcs hds htwin hend

/-- In all stores of the second walk everything rests. -/
theorem VisitTwins.resting_of_mem (h : List.Forall₂ (VisitTwins s s₁ root) visits visits') :
    ∀ f ∈ visits', s.Resting root s₁ f.2 := by
  induction h with
  | nil => simp
  | cons htwins _ ih =>
    intro f hf
    rcases List.mem_cons.mp hf with rfl | hf
    · exact htwins.resting
    · exact ih f hf

/-- The same visits give a node, so its last giver is the same. -/
theorem VisitTwins.givers_eq (h : List.Forall₂ (VisitTwins s s₁ root) visits visits')
    (hc : c < s.nodes.size) :
    (visits.filter fun e => e.2.gives .refresh e.1 c).map (·.1) =
      (visits'.filter fun e => e.2.gives .refresh e.1 c).map (·.1) := by
  induction h with
  | nil => rfl
  | @cons e f visits visits' htwins _ ih =>
    rw [List.filter_cons, List.filter_cons, ← htwins.gives c hc]
    cases hgives : e.2.gives .refresh e.1 c with
    | false => exact ih
    | true =>
      simp only [if_true, List.map_cons, ih]
      rw [htwins.giver c hgives]

/-! ## The end of the first walk -/

section First

variable (h : Tour .refresh [root] s visits [] u) (hs : s.WellFormed root)
include h hs

theorem Tour.unmoved : s.Unmoved u := by
  refine h.keeps (P := fun _ _ v => s.Unmoved v) (fun {_ n _ v cs w} hv hcs => ?_) []
    ⟨.refl s, fun _ _ _ => rfl⟩
  have hw := hv.children hs.closed n .refresh
  rwa [hcs] at hw

theorem Tour.intact : s.Intact u := by
  refine h.keeps (P := fun _ _ v => s.Intact v) (fun {_ n _ v cs w} hv hcs => ?_) [] (.refl hs)
  have hw := hv.children n .refresh
  rwa [hcs] at hw

/-- Once a refreshing walk is done every child refers to one of its containers. -/
theorem Tour.attaching (htop : ∀ n, ¬s.Contains root n root) :
    Attaching (s.Contains root) s root u where
  intact := h.intact hs
  top := h.parent_kept hs.closed hs.there htop
  attached n c := by
    rintro ⟨hn, hleads⟩
    have hc := hleads.lt_size hs.closed
    obtain ⟨v, hv⟩ := h.visits_below hs.closed hn
    have hgives := (h.gives_iff_leads hs.closed (.refl s) hv hc).mpr hleads
    obtain ⟨e, hlast, hparent⟩ := h.parent_last hs.closed ⟨_, hv, hgives⟩
    obtain ⟨he, hegives⟩ := List.mem_filter.mp (List.mem_of_getLast? hlast)
    obtain ⟨m, hm, hcontains | hnew⟩ := h.exists_giver hs.closed he hegives
    · refine Or.inr ⟨m, hcontains, ?_⟩
      rw [hparent, hm]
    · exact absurd hc (Nat.not_lt.mpr hnew)

end First

/-- The parents are the same after both walks. -/
theorem Tour.parent_again (h : Tour .refresh [root] s visits [] u) (hs : s.Closed)
    {u' : Store} (h' : Tour .refresh [root] u visits' [] u')
    (htwins : List.Forall₂ (VisitTwins s u root) visits visits') (hc : c < u.nodes.size) :
    (u'.node c).parent = (u.node c).parent := by
  have hu : s.Extends u := h.extends_ (.refl s)
  have hagain := h'.parent_eq hs hu (Or.inl hc)
  rcases Nat.lt_or_ge c s.nodes.size with hold | hnew
  · have hfirst := h.parent_eq hs (.refl s) (Or.inl hold)
    have hlast := congrArg List.getLast? (VisitTwins.givers_eq htwins hold)
    rw [List.getLast?_map, List.getLast?_map] at hlast
    -- whoever gave the node last did so both times, or nobody ever did
    cases hg : (visits.filter fun e => e.2.gives .refresh e.1 c).getLast? with
    | none =>
      rw [hg, Option.map_none] at hlast
      rw [hagain, Option.map_eq_none_iff.mp hlast.symm]
      rfl
    | some e =>
      rw [hg, Option.map_some] at hlast
      obtain ⟨f, hf, hef⟩ := Option.map_eq_some_iff.mp hlast.symm
      rw [hagain, hf, hfirst, hg]
      simp only [Option.elim_some, hef]
  · -- a variable of the first walk is given by nobody in the second
    have hnone : (visits'.filter fun e => e.2.gives .refresh e.1 c) = [] := by
      refine List.filter_eq_nil_iff.mpr fun e he => ?_
      rw [h'.not_gives_of_lt hs hu hnew hc e he]
      simp
    rw [hagain, hnone]
    rfl

/-- What a second walk visits where the first one, which ended in `s₁`, visited something: the very
same node, or for a variable that was made on the way another one, made since. The two are equal and
stand at the same place. -/
def Echoes (s s₁ : Store) (e f : Value × Store) : Prop :=
  (∃ n < s.nodes.size, e.1 = .node n ∧ f.1 = .node n) ∨
  ∃ x y name, e.1 = .node x ∧ f.1 = .node y ∧
    s.nodes.size ≤ x ∧ x < s₁.nodes.size ∧ s₁.nodes.size ≤ y ∧
    (f.2.node x).form = .expression (.variable name) ∧
    (f.2.node y).form = .expression (.variable name) ∧
    f.2.same (.node x) (.node y) = true ∧ (f.2.node y).position = (f.2.node x).position

/-- Twin visits echo each other. -/
theorem VisitTwins.echoes {e f : Value × Store} (h : VisitTwins s s₁ root e f) :
    Echoes s s₁ e f := by
  obtain ⟨x, y, hx, hy, htwin⟩ := h.twins
  cases htwin with
  | listed hold => exact Or.inl ⟨x, hold, hx, hy⟩
  | @made _ name _ hname hnew hvar hnew' hvar' =>
    have hsize := hvar.lt_size
    have hform : (f.2.node x).form = .expression (.variable name) :=
      (h.resting.later.form x hsize).trans hvar.form
    refine Or.inr ⟨x, y, name, hx, hy, hnew, hsize, hnew', hform, hvar'.form,
      same_variables hform hvar'.form hname, ?_⟩
    rw [hvar'.position, h.resting.position x hsize, hvar.position]

end Walk

/-- Walking twice is walking once. Once a refreshing walk over a document without a cycle is done, a
second one goes through as well. All the while every node that was there when it began, variables
made by the first walk included, stands where it did, and in the end it refers to the same parent.
The second walk visits the same nodes in the same order, except that a variable that was made on the
way is another one each time, equal to the first and at the same place. Where nothing is a child of
two nodes it has nothing to say either. -/
theorem refresh_walk_again {s : Store} {root : NodeId} (hs : s.WellFormed root)
    (hacyclic : s.AcyclicFrom root) (hmakes : s.MakesProperly root) {limit : Nat} {w : Walk}
    (hw : Walk.start .refresh limit (.node root) s = w) (hdone : w.finish = .done) :
    ∃ w' : Walk,
      (∀ limit, Walk.start .refresh limit (.node root) w.store = w'.cut w.store limit) ∧
      w'.finish = .done ∧
      (∀ n < w.store.nodes.size,
        (∀ e ∈ w'.visits, (e.2.node n).position = (w.store.node n).position) ∧
        (w'.store.node n).position = (w.store.node n).position ∧
        (w'.store.node n).parent = (w.store.node n).parent) ∧
      List.Forall₂ (Walk.Echoes s w.store) w.visits w'.visits ∧
      (¬s.SharesBelow root → w'.store.log = w.store.log) := by
  have htop := hacyclic.not_contains
  have htour : Walk.Tour .refresh [root] s w.visits [] w.store := by
    subst hw
    exact Walk.tour_of_done hdone
  have hunmoved := htour.unmoved hs
  have hattaching := htour.attaching hs htop
  have hresting : s.Resting root w.store w.store := ⟨hattaching, .refl _, fun _ _ => rfl⟩
  obtain ⟨visits, left, u, hagain, hu, hleft, htwins⟩ := htour.again hs htop hmakes hunmoved
    (htour.atRest hs.closed) ⟨.refl s, fun _ _ _ => rfl⟩ rfl (Walk.Tour.mem_root s root) hresting
    (.cons (.listed hs.there) .nil)
  cases hleft
  refine ⟨⟨visits, .done, u⟩, hagain.fromStack_cut, rfl, fun n hn => ⟨fun e he => ?_,
    hu.position n hn, htour.parent_again hs.closed hagain htwins hn⟩, ?_, fun hshares => ?_⟩
  · exact (Walk.VisitTwins.resting_of_mem htwins e he).position n hn
  · exact htwins.imp fun _ _ h => h.echoes
  · exact hattaching.log_tour hs htop hshares hagain (Walk.Tour.mem_root s root)

/-- A loop without a line, with a variable to be made, over a list with a variable in it. The list
is also the value of a property, so that it gets a line only after it was visited. -/
def lateSheet : Store where
  nodes := #[
    some { form := .statement (.list 0) (.each (.list 1) .null) },
    some { position := { line := .int 5 }
           form := .statement (.list 2) (.prop (.list 2) (.node 2)) },
    some { form := .expression (.list (.list 3) (.text "space")), parent := .to (.node 3) },
    some { position := { column := .int 4 }
           form := .expression (.variable (.text "colors")) }]
  lists := #[[.node 2, .node 1], [.text "color"], [], [.node 3]]

/-- The variable in the list gets its line when the list is visited again, and keeps it. -/
theorem refresh_walk_again_late :
    lateSheet.WellFormed 0 ∧ lateSheet.AcyclicFrom 0 ∧ lateSheet.MakesProperly 0 ∧
      lateSheet.SharesBelow 0 ∧
      ∃ w : Walk, Walk.start .refresh 9 (.node 0) lateSheet = w ∧ w.finish = .done ∧
        (w.store.node 3).position = { line := .int 5, column := .int 4 } ∧
        ∃ w' : Walk,
          (∀ limit, Walk.start .refresh limit (.node 0) w.store = w'.cut w.store limit) ∧
          w'.finish = .done ∧
          (w'.store.node 3).position = { line := .int 5, column := .int 4 } ∧
          (w'.store.node 2).parent = (w.store.node 2).parent ∧
          List.Forall₂ (Walk.Echoes lateSheet w.store) w.visits w'.visits := by
  have hwell : lateSheet.WellFormed 0 :=
    wellFormed_of_nodes (by decide) rfl (by decide) (by decide)
  have hacyclic : lateSheet.AcyclicFrom 0 :=
    acyclicFrom_of_rank (fun n => [3, 2, 1, 0].getD n 0) (by decide) 0
  have hmakes : lateSheet.MakesProperly 0 :=
    makesProperly_of_nodes hwell.closed hwell.there (by decide) (by decide)
  have hshares : lateSheet.SharesBelow 0 := by
    have hlist : lateSheet.Leads 0 2 := leads_iff_offspring.mpr (by decide)
    have hprop : lateSheet.Leads 0 1 := leads_iff_offspring.mpr (by decide)
    have hvalue : lateSheet.Leads 1 2 := leads_iff_offspring.mpr (by decide)
    exact ⟨0, 1, 2, by decide, ⟨.refl, hlist⟩, .single hprop, hvalue⟩
  have hposition : ((Walk.start .refresh 9 (.node 0) lateSheet).store.node 3).position =
      { line := .int 5, column := .int 4 } := rfl
  have hsize : 3 < (Walk.start .refresh 9 (.node 0) lateSheet).store.nodes.size := by decide
  obtain ⟨w', hcut, hdone', hkept, hechoes, -⟩ :=
    refresh_walk_again hwell hacyclic hmakes (w := Walk.start .refresh 9 (.node 0) lateSheet)
      rfl rfl
  refine ⟨hwell, hacyclic, hmakes, hshares, _, rfl, rfl, hposition, w', hcut, hdone', ?_,
    (hkept 2 (Nat.lt_of_succ_lt hsize)).2.2, hechoes⟩
  rw [(hkept 3 hsize).2.1, hposition]

end SheetLint
