import SheetLint.Proofs.Visitors

/-!
# A run is a walk that stops

A run of a linter lets go of what only its old lints led to, and then visits. Parents may be let go
on the way, but the table of children stays (`WellFormed.keepParents`), and the store in which the
linter has started over is abreast of itself, and of the store before if no parent was let go
(`Visitor.startedOver_abreast`). So the visit mirrors the walk that stops where the methods do not
go on (`Visitor.visiting_mirrors`).

In a tidy document whose parents are refreshed that walk visits what the table of children lists,
cut below the nodes at which it stops (`Visitor.run_expands`). Where it stops nowhere it is the walk
from the root, whatever the document and the policy are (`Visitor.run_retraces`).
-/

namespace SheetLint

open Store

/-- Being alike goes both ways. -/
theorem Agent.Alike.symm {a b : Agent} (h : a.Alike b) : b.Alike a := by
  obtain ⟨lints, file, parent, rfl⟩ := h
  obtain ⟨lints', file', h⟩ := a.role.exists_inRun
  refine ⟨lints', file', a.parent, ?_⟩
  rw [Role.inRun_inRun, ← h]

namespace Store

variable {s t : Store} {root n c : NodeId} {v : Value}

/-! ## Parents that are let go -/

theorem held_keepParent (stays : Cell → Bool) (r : Backref) :
    (keepParent stays r).held ⊆ r.held := by
  unfold keepParent
  split
  · split <;> simp [Backref.held]
  · exact fun _ h => h

/-- Letting go of parents puts nothing anywhere. -/
theorem contents_keepParents (s : Store) (stays : Cell → Bool) (c : Cell) :
    (s.keepParents stays).contents c ⊆ s.contents c := by
  have hkeep := held_keepParent stays
  intro v hv
  cases c with
  | node n =>
    have hnode : (s.keepParents stays).node? n =
        (s.node? n).map fun x => { x with parent := keepParent stays x.parent } := by
      unfold node? keepParents
      rw [Array.getElem?_map]
      rcases s.nodes[n]? with _ | _ | x <;> rfl
    rw [contents, hnode] at hv
    rw [contents]
    cases hx : s.node? n with
    | none => simp [hx] at hv
    | some x =>
      simp only [hx, Option.map_some, Option.elim_some, Node.held, List.mem_append] at hv ⊢
      exact hv.imp_left (Or.imp_right (hkeep x.parent ·))
  | agent i =>
    have hagent : (s.keepParents stays).agent? i =
        (s.agent? i).map fun a => { a with parent := a.parent.map (keepParent stays) } := by
      unfold agent? keepParents
      rw [Array.getElem?_map]
    rw [contents, hagent] at hv
    rw [contents]
    cases ha : s.agent? i with
    | none => simp [ha] at hv
    | some a =>
      simp only [ha, Option.map_some, Option.elim_some, Agent.held, List.mem_append] at hv ⊢
      refine hv.imp_left (Or.imp_right fun hparent => ?_)
      cases hp : a.parent with
      | none => simp [hp] at hparent
      | some r =>
        rw [hp] at hparent
        exact hkeep r hparent
  | _ => exact hv

/-- Letting go of parents leaves nothing dangling. -/
theorem Closed.keepParents (hs : s.Closed) (stays : Cell → Bool) :
    (s.keepParents stays).Closed := by
  intro c v hv k hk
  have hplace := hs c v (contents_keepParents s stays c hv) k hk
  cases k with
  | node n =>
    show n < (s.keepParents stays).nodes.size
    rwa [size_keepParents]
  | agent i =>
    show i < (s.keepParents stays).agents.size
    have hsize : (s.keepParents stays).agents.size = s.agents.size := by simp [Store.keepParents]
    rwa [hsize]
  | _ => exact hplace

theorem kids_keepParents (hs : s.Closed) (stays : Cell → Bool) :
    (s.keepParents stays).kids = s.kids := by
  have hext := (Extends.refl s).keepParents stays
  funext n
  rcases Nat.lt_or_ge n s.nodes.size with hold | hnew
  · exact kids_extends hs hext hold
  · rw [kids_new hext hnew, kids_new (.refl s) hnew]

/-- Ways down are a matter of the table of children alone. -/
theorem leads_congr (h : t.kids = s.kids) : t.Leads = s.Leads := by
  funext n c
  rw [Leads, Leads, h]

theorem below_congr (h : t.kids = s.kids) : t.Below = s.Below := by
  funext root n
  rw [Below, Below, leads_congr h]

theorem contains_congr (h : t.kids = s.kids) : t.Contains root n c ↔ s.Contains root n c := by
  rw [Contains, Contains, below_congr h, leads_congr h]

theorem acyclicFrom_congr (h : t.kids = s.kids) : t.AcyclicFrom root ↔ s.AcyclicFrom root := by
  rw [AcyclicFrom, AcyclicFrom, below_congr h, leads_congr h]

theorem expansion_congr (h : t.kids = s.kids) (stop : NodeId → Bool) :
    ∀ depth, t.expansion stop depth = s.expansion stop depth
  | 0 => rfl
  | d + 1 => by
    funext k
    rcases k with n | name
    · rw [expansion, expansion, h, expansion_congr h stop d]
    · rfl

/-- A well-formed document stays well formed. -/
theorem WellFormed.keepParents (h : s.WellFormed root) (stays : Cell → Bool) :
    (s.keepParents stays).WellFormed root where
  closed := h.closed.keepParents stays
  unbacked := h.unbacked
  present n := by
    rw [node_keepParents]
    exact h.present n
  there := by
    rw [size_keepParents]
    exact h.there
  listed n hn := by
    rw [below_congr (kids_keepParents h.closed stays)] at hn
    rw [kids_keepParents h.closed]
    exact h.listed n hn

/-- A child that refers to a node, or to nothing, still does, or no longer refers to anything. -/
theorem parent?_keepParents (stays : Cell → Bool)
    (h : s.parent? c = .ok none ∨ ∃ m, s.parent? c = .ok (some (.node m))) :
    (s.keepParents stays).parent? c = .ok none ∨
      ∃ m, (s.keepParents stays).parent? c = .ok (some (.node m)) := by
  simp only [parent?_eq_none, parent?_eq_some, node_keepParents] at h ⊢
  rcases h with (h | h) | ⟨m, h⟩
  · simp [h, keepParent]
  · simp [h, keepParent]
  · rw [h, keepParent]
    split
    · exact Or.inr ⟨m, rfl⟩
    · exact Or.inl (Or.inr rfl)

/-- Nothing that is there leads to a list that is not. -/
theorem Holds.avoids_next (h : s.Holds v) : v.Avoids s.lists.size :=
  fun hmem => Nat.lt_irrefl _ (h _ hmem)

/-- A list that is yet to be made is led to by nothing. -/
theorem Closed.shuns_next (hs : s.Closed) : s.Shuns s.lists.size where
  held n v hv := by
    rcases hs.held n with hheld | hempty
    · exact (hheld v hv).avoids_next
    · have hcells : ∀ w ∈ ({} : Node).held, w.cells = [] := by decide
      rw [hempty] at hv
      exact Value.avoids_of_cells (hcells v hv)
  list l _ v hv := (hs.list l v hv).avoids_next
  table k e he := ⟨(hs.key k e he).avoids_next, (hs.entry k e he).avoids_next⟩
  agent i a name v ha _ hown := by
    refine (hs (.agent i) v ?_).avoids_next
    rw [contents, ha]
    exact Agent.own?_mem hown

namespace Follows

variable {i : AgentId} {b : Agent} (h : s.Follows t)
include h

/-- There are no agents but those that were there. -/
theorem agent_before (hb : t.agent? i = some b) : ∃ a, s.agent? i = some a ∧ a.Alike b := by
  have hi : i < s.agents.size := by
    rw [← h.agents]
    exact (Array.getElem?_eq_some_iff.mp hb).1
  have ha : s.agent? i = some s.agents[i] := Array.getElem?_eq_getElem hi
  obtain ⟨c, hc, hac⟩ := h.agent i _ ha
  obtain rfl := Option.some.inj (hc.symm.trans hb)
  exact ⟨_, ha, hac⟩

/-- Agents at the same place are alike, or there are none. -/
theorem rel (i : AgentId) : Option.Rel Agent.Alike (t.agent? i) (s.agent? i) := by
  cases hb : t.agent? i with
  | some b =>
    obtain ⟨a, ha, hab⟩ := h.agent_before hb
    rw [ha]
    exact .some hab.symm
  | none =>
    cases ha : s.agent? i with
    | none => exact .none
    | some a =>
      obtain ⟨b, hb', _⟩ := h.agent i a ha
      rw [hb] at hb'
      cases hb'

theorem named (hs : s.Named) : t.Named := by
  intro i b v hb hv
  obtain ⟨a, ha, hab⟩ := h.agent_before hb
  rw [hab.own? (by decide)] at hv
  exact hs i a v ha hv

/-- What agents hold leads to a list no more than it did. -/
theorem agent_shuns {L : ListId} (hs : s.Shuns L) (i : AgentId) (b : Agent) (name : String)
    (v : Value) (hb : t.agent? i = some b) (hname : name ∉ agentNames)
    (hv : b.own? name = some v) : v.Avoids L := by
  obtain ⟨a, ha, hab⟩ := h.agent_before hb
  have hnames := hname
  simp only [agentNames, List.mem_cons, List.not_mem_nil, or_false, not_or] at hname
  rw [hab.own? ⟨hname.1, hname.2.1⟩] at hv
  exact hs.agent i a name v ha hnames hv

end Follows

end Store

namespace Visitor

open Linter

variable {V : Visitor}

/-! ## Starting over -/

section StartedOver

variable {a : Agent} {l : Linter} (ha : V.start.agent? V.linter = some a) (hl : a.role = .linter l)
  (stays : Cell → Bool)
include ha hl

/-- A linter that has started over is in the course of its run, and has no lints. -/
theorem startedOver_working : V.Working (startedOver V.start V.linter a l V.file stays) where
  follows := ((Follows.refl V.start).restarted ha hl V.file).keepParents stays
  lints := lintsOf_startedOver ha V.file stays
  inFile := by
    rw [linter?_startedOver ha]
    rfl
  new := Nat.le_refl _
  there := by
    show V.start.lists.size < (V.start.lists.push []).size
    simp

/-- It is abreast of itself, and of the store before if no parent was let go. -/
theorem startedOver_abreast {v : Store}
    (hv : v = startedOver V.start V.linter a l V.file stays ∨
      v = V.start ∧ (startedOver V.start V.linter a l V.file stays).nodes = V.start.nodes) :
    (startedOver V.start V.linter a l V.file stays).Abreast V.lints v := by
  -- no list of the document is the new one, for there was no place for it before
  have hfollows := (startedOver_working ha hl stays).follows
  have hkept := (V.closed.keepParents stays).shuns_next
  have hbefore := V.closed.shuns_next
  have hlist : ∀ k, k ≠ V.lints →
      (startedOver V.start V.linter a l V.file stays).list k = V.start.list k := by
    intro k hk
    show (V.start.addList []).list k = V.start.list k
    rw [list_addList, if_neg hk]
  have hshuns : (startedOver V.start V.linter a l V.file stays).Shuns V.lints := by
    refine ⟨hkept.held, fun k hk => ?_, hkept.table, hfollows.agent_shuns hbefore⟩
    rw [hlist k hk]
    exact hbefore.list k hk
  rcases hv with rfl | ⟨rfl, hnodes⟩
  · exact {
      nodes := rfl, tables := rfl, list := fun _ _ => rfl, size := rfl
      agents := (Follows.refl _).rel
      log := rfl, shuns := hshuns, named := hfollows.named V.named
      unbacked := V.unbacked, unbacked' := V.unbacked }
  · exact {
      nodes := hnodes.symm, tables := rfl, list := fun k hk => (hlist k hk).symm
      size := hfollows.agents.symm, agents := hfollows.rel
      log := rfl, shuns := hshuns, named := hfollows.named V.named
      unbacked := V.unbacked, unbacked' := V.unbacked }

end StartedOver

/-- The linter has started over, and is about to visit. -/
structure StartsOver (V : Visitor) (u : Store) : Prop where
  reset : (reset V.linter V.file).perform V.start = (.ok (), u)
  working : V.Working u
  empty : u.list V.lints = []
  before : ∃ stays, u.nodes = (V.start.keepParents stays).nodes ∧
    (V.start.keepParents stays).Extends u
  abreast : ∀ v, v = u ∨ v = V.start ∧ u.nodes = V.start.nodes → u.Abreast V.lints v

theorem exists_startsOver (V : Visitor) : ∃ u, V.StartsOver u := by
  obtain ⟨a, l, ha, hl, hb, _⟩ := V.isLinter
  obtain ⟨stays, hreset⟩ := perform_reset ha hl hb V.file
  refine ⟨_, hreset, startedOver_working ha hl stays, ?_, ⟨stays, rfl, ?_⟩,
    fun v => startedOver_abreast ha hl stays⟩
  · show (V.start.addList []).list V.start.lists.size = []
    rw [list_addList, if_pos rfl]
  · exact ((Extends.refl (V.start.keepParents stays)).addList []).of_rest rfl rfl rfl

/-! ## Runs and walks -/

variable (V) in
/-- A run: all that happens in its course, and what comes of it. -/
def told : Account (List Value) :=
  Told.run V.linter (.node V.root) V.file V.start

variable (V) in
/-- The visit of a run in which the linter has started over. -/
def visiting (u : Store) : Account Unit :=
  Told.visitTo V.linter (depth u) (.node V.root) u

/-- A run visits what the visit from where the linter has started over does, and gives what was
recorded. -/
theorem told_eq {u : Store} (h : V.StartsOver u) :
    visitsOf V.told.events = visitsOf (V.visiting u).events ∧
      V.told.store = (V.visiting u).store ∧
      V.told.outcome = (V.visiting u).outcome.bind fun _ =>
        (V.visiting u).store.items ((V.visiting u).store.lintsOf V.linter) := by
  have htells := Told.reset_tells (i := V.linter) V.file V.start
  have hnone := Told.reset_visitsNothing (i := V.linter) V.file V.start
  rw [h.reset] at htells
  cases hr : Told.reset V.linter V.file V.start with
  | mk es r t =>
    rw [hr] at htells hnone
    obtain ⟨rfl, rfl⟩ := Prod.mk.inj htells
    rw [told, Told.run, Told.bind_ok hr, silently_bind_ok (Edit.perform_get u), visiting]
    cases hvisit : Told.visitTo V.linter (depth u) (.node V.root) u with
    | mk fs r' w =>
      cases r' with
      | error fault =>
        rw [Told.bind_error hvisit]
        exact ⟨by rw [visitsOf_append, hnone]; rfl, rfl, rfl⟩
      | ok _ =>
        rw [Told.bind_ok hvisit, Told.silently, recorded, Edit.perform_tryRead]
        refine ⟨?_, rfl, rfl⟩
        rw [visitsOf_append, hnone, visitsOf_append]
        exact List.append_nil _

/-- What the methods have recorded in the course of the run can be recorded. -/
abbrev RecordsAll (V : Visitor) : Prop :=
  ∀ e ∈ visitsOf V.told.events, V.Recordable e

/-- The walk that stops where the methods do not go on. -/
def pruning (V : Visitor) (v : Store) : Walk :=
  Walk.pruned (stopsAt V.levels) V.policy (V.start.nodes.size + 2) V.root v

/-- The visit mirrors the walk that stops where the methods do not go on. -/
theorem visiting_mirrors {u v : Store} (h : V.StartsOver u) (hrecords : V.RecordsAll)
    (hv : v = u ∨ v = V.start ∧ u.nodes = V.start.nodes) :
    V.Mirrors u v (V.visiting u) (V.pruning v) ∧ (V.pruning v).finish ≠ .limit := by
  have hext : V.start.Extends v := by
    rcases hv with rfl | ⟨rfl, _⟩
    · exact h.working.follows.extends_
    · exact .refl _
  have hends : (V.pruning v).finish ≠ .limit :=
    (Walk.pruned_ends (stopsAt V.levels) V.policy V.closed _ V.root v hext
      (Or.inl (endsWithin_of_acyclic V.closed V.acyclic))).1
  have hdepth : V.start.nodes.size + 2 ≤ depth u := by
    have hnodes := h.working.follows.extends_.nodes
    unfold depth
    omega
  refine ⟨visitTo_mirrors _ _ V.root u v hdepth h.working (h.abreast v hv) hends
    fun e he => hrecords e ?_, hends⟩
  rw [(told_eq h).1]
  exact he

/-! ## What is visited in a tidy document -/

/-- A document that is well formed, in which the kinds of nodes are texts and what is kept as a
parent is a node. -/
structure Tidy (V : Visitor) : Prop where
  wellFormed : V.start.WellFormed V.root
  kinds : ∀ n, V.start.Below V.root n → ∃ kind, (V.start.node n).kind = .text kind
  parents : ∀ n c, V.start.Contains V.root n c →
    V.start.parent? c = .ok none ∨ ∃ m, V.start.parent? c = .ok (some (.node m))

/-- Whether a visit goes on is a matter of the kind, if that is a text. -/
theorem stopsAt_of_kind {ls : List Level} {s : Store} {n : NodeId} {kind : String}
    (hs : s.hasBacked = false) (hkind : (s.node n).kind = .text kind) :
    stopsAt ls s n = (methodFor ls kind).elim false (!·.descends) := by
  have hprint : s.kindOf (.node n) = .ok kind := by
    rw [Store.kindOf, getAttribute_kind, hkind]
    exact tryBare_of_unbacked hs (.text kind)
  rw [stopsAt, methodAt, hprint]
  rfl

namespace Tidy

variable (h : V.Tidy) {u : Store}
include h

/-- It does not change in the course of a walk. -/
theorem stopsAt_later {stays : Cell → Bool} {s : Store} {n : NodeId}
    (hs : (V.start.keepParents stays).Intact s) (hn : V.start.Below V.root n) :
    stopsAt V.levels s n = stopsAt V.levels V.start n := by
  obtain ⟨kind, hkind⟩ := h.kinds n hn
  have hold := hn.lt_size V.closed V.there
  have hform := hs.extends_.form n (by rwa [size_keepParents])
  have hnotes := hs.extends_.notes n (by rwa [size_keepParents])
  rw [node_keepParents] at hform hnotes
  rw [stopsAt_of_kind V.unbacked hkind, stopsAt_of_kind hs.unbacked]
  rw [← hkind, Node.kind, Node.kind, hnotes, Node.nodeClass, hform]
  rfl

/-- A walk that refreshes parents can begin where the linter has started over. -/
theorem refreshing (hu : V.StartsOver u) {stays : Cell → Bool}
    (hnodes : u.nodes = (V.start.keepParents stays).nodes)
    (hext : (V.start.keepParents stays).Extends u) :
    Walk.Refreshing (V.start.keepParents stays) V.root u := by
  have hnode : ∀ n, u.node n = (V.start.keepParents stays).node n := fun n => by
    rw [Store.node, node?, hnodes]
    rfl
  refine ⟨⟨hext, hu.working.follows.backed.trans V.unbacked, fun n => ?_⟩, ?_, fun n c hc => ?_⟩
  · rw [hnode]
    exact (h.wellFormed.keepParents stays).present n
  · rw [hnode]
  · rw [contains_congr (kids_keepParents V.closed stays)] at hc
    have hsame : (u.node c).parent = ((V.start.keepParents stays).node c).parent := by rw [hnode]
    refine (parent?_keepParents stays (h.parents n c hc)).imp (parent?_congr hsame).mpr ?_
    rintro ⟨m, hm⟩
    exact ⟨m, trivial, (parent?_congr hsame).mpr hm⟩

end Tidy

/-- What is shown by a visit is shown by one like it. -/
theorem SameVisit.shows_ {s : Store} {e f : Value × Store} {k : Kid} (h : SameVisit e f)
    (hf : s.Shows f k) : s.Shows e k := by
  rcases k with n | name
  · exact h.1.trans hf
  · obtain ⟨n, hn, hnew, hform⟩ := hf
    refine ⟨n, h.1.trans hn, hnew, ?_⟩
    rwa [Store.node, node?, h.2]

/-- The same visits show the same kids. -/
theorem shows_of_same {s : Store} {xs ys : List (Value × Store)}
    (h : List.Forall₂ SameVisit xs ys) :
    ∀ {ks : List Kid}, List.Forall₂ s.Shows ys ks → List.Forall₂ s.Shows xs ks := by
  induction h with
  | nil => exact id
  | cons hsame _ ih =>
    intro ks hshows
    cases hshows with
    | cons hk hrest => exact .cons (hsame.shows_ hk) (ih hrest)

/-- In a tidy document, where parents are refreshed, the walk comes to its end and visits what is
listed. -/
theorem pruning_expands {u : Store} (hu : V.StartsOver u) (htidy : V.Tidy)
    (hpolicy : V.policy = .refresh) {depth : Nat} (hdepth : V.start.nodes.size + 2 ≤ depth) :
    (V.pruning u).finish = .done ∧ List.Forall₂ V.start.Shows (V.pruning u).visits
      (V.start.expansion (stopsAt V.levels V.start) depth (.node V.root)) := by
  obtain ⟨stays, hnodes, hext⟩ := hu.before
  obtain ⟨e, rfl⟩ : ∃ e, depth = e + 1 := ⟨depth - 1, by omega⟩
  -- what was let go plays no part in what is listed: the walk is compared with the store after it
  have hkids := kids_keepParents V.closed stays
  have hsize := size_keepParents V.start stays
  have hwell := htidy.wellFormed.keepParents stays
  have hacyclic := (acyclicFrom_congr hkids).mpr V.acyclic
  have hends := endsWithin_of_acyclic hwell.closed hacyclic
  rw [hsize] at hends
  have hexpands : Walk.Expands (V.start.keepParents stays) V.root u (V.pruning u)
      (V.start.expansion (stopsAt V.levels V.start) (e + 1) (.node V.root)) := by
    rw [pruning, hpolicy, ← expansion_congr hkids]
    refine Walk.pruned_expands hwell hacyclic.not_contains (fun s n hs hn => ?_) _ e V.root _ u
      (Nat.le_of_succ_le_succ hdepth) (htidy.refreshing hu hnodes hext) ⟨rfl, .refl⟩ (Or.inl hends)
    rw [below_congr hkids] at hn
    exact htidy.stopsAt_later hs hn
  refine ⟨hexpands.done, hexpands.visits.imp fun visit kid hshown => ?_⟩
  rcases kid with n | name
  · exact hshown
  · obtain ⟨n, hn, hnew, hform⟩ := hshown
    exact ⟨n, hn, hsize ▸ hnew, hform⟩

/-- In a tidy document a run that refreshes parents visits what is listed, and the lints are those
to be recorded there, in order. -/
theorem run_expands (hrecords : V.RecordsAll) (htidy : V.Tidy) (hpolicy : V.policy = .refresh) :
    ∃ lints, V.told.outcome = .ok lints ∧
      (∀ depth, V.start.nodes.size + 2 ≤ depth →
        List.Forall₂ V.start.Shows (visitsOf V.told.events)
          (V.start.expansion (stopsAt V.levels V.start) depth (.node V.root))) ∧
      List.Forall₂ V.Reports (V.toRecord (visitsOf V.told.events)) lints := by
  obtain ⟨u, hu⟩ := exists_startsOver V
  obtain ⟨hmirrors, _⟩ := visiting_mirrors hu hrecords (Or.inl rfl)
  obtain ⟨hvisits, _, houtcome⟩ := told_eq hu
  obtain ⟨hdone, _⟩ := pruning_expands hu htidy hpolicy (Nat.le_refl _)
  -- nothing was recorded before the visit, so what it recorded is all there is
  obtain ⟨new, hnew, hreports⟩ := hmirrors.lints
  rw [hu.empty, List.nil_append] at hnew
  rw [hvisits]
  refine ⟨new, ?_, fun depth hdepth => ?_, hreports⟩
  · obtain ⟨_, hok⟩ | ⟨fault, hfault, _⟩ := hmirrors.ended
    · rw [houtcome, hok, hmirrors.working.lints, ← hnew]
      rfl
    · rw [hdone] at hfault
      cases hfault
  · exact shows_of_same hmirrors.visits (pruning_expands hu htidy hpolicy hdepth).2

/-! ## Where all methods go on -/

/-- A run did what a walk does, the walk of all others from the same document: nodes visited, the
nodes and tables afterwards, the lists but for that of the lints, the messages about parents, and
the fault if there is one. The agents are left alone by both. -/
structure Retraces (V : Visitor) (u v : Store) (w : Walk) : Prop where
  visits : List.Forall₂ SameVisit (visitsOf V.told.events) w.visits
  nodes : w.store.nodes = V.told.store.nodes
  tables : w.store.tables = V.told.store.tables
  lists : ∀ l, l ≠ V.lints → w.store.list l = V.told.store.list l
  agents : V.told.store.agents = u.agents ∧ w.store.agents = v.agents
  log : w.store.log.filter Message.isReparenting = V.told.store.log.filter Message.isReparenting
  faults : ∀ fault, V.told.outcome = .error fault ↔ w.finish = .failed fault

/-- Where all methods go on, a run retraces the walk. -/
theorem run_retraces (hrecords : V.RecordsAll)
    (hdescends : ∀ l ∈ V.levels, ∀ m ∈ l.methods, m.2.descends = true) {u v : Store}
    (hu : V.StartsOver u) (hv : v = u ∨ v = V.start ∧ u.nodes = V.start.nodes) :
    ∃ w : Walk, w.finish ≠ .limit ∧
      (∀ limit, Walk.start V.policy limit (.node V.root) v = w.cut v limit) ∧
      V.Retraces u v w := by
  -- a walk that never stops is the plain one
  have hnever : stopsAt V.levels = fun _ _ => false := by
    funext s n
    rw [stopsAt]
    cases hm : methodAt V.levels (.node n, s) with
    | none => rfl
    | some m =>
      obtain ⟨kind, _, hfor⟩ := Option.bind_eq_some_iff.mp hm
      obtain ⟨l, hl, hmem⟩ := mem_of_methodFor hfor
      rw [Option.elim_some, hdescends l hl _ hmem]
      rfl
  obtain ⟨hmirrors, hends⟩ := visiting_mirrors hu hrecords hv
  obtain ⟨hvisits, hstore, houtcome⟩ := told_eq hu
  have hwalk : V.pruning v = Walk.preorder V.policy (V.start.nodes.size + 2) V.root v := by
    rw [pruning, hnever, Walk.pruned_never]
  refine ⟨V.pruning v, hends, ?_, ?_⟩
  · rw [hwalk] at hends ⊢
    exact Walk.start_eq_cut hends
  · refine ⟨?_, ?_, ?_, ?_, ?_, ?_, fun fault => ?_⟩
    · rw [hvisits]
      exact hmirrors.visits
    · rw [hstore]
      exact hmirrors.abreast.nodes
    · rw [hstore]
      exact hmirrors.abreast.tables
    · rw [hstore]
      exact hmirrors.abreast.list
    · rw [hstore]
      exact hmirrors.agents
    · rw [hstore]
      exact hmirrors.abreast.log
    · rw [houtcome]
      obtain ⟨hdone, hok⟩ | ⟨fault', hfailed, herror⟩ := hmirrors.ended
      · rw [hok, hdone, hmirrors.working.lints]
        exact iff_of_false (by simp [Except.bind, Store.items]) (by simp)
      · rw [herror, hfailed]
        exact ⟨fun h => congrArg WalkEnd.failed (Except.error.inj h),
          fun h => congrArg Except.error (WalkEnd.failed.inj h)⟩

/-- The visitor is a walk that stops. What a run does is told, and ends as it ends. In a tidy
document whose parents are refreshed it visits what is listed in preorder below the root, cut below
every occurrence of a node whose method does not go on, and gives the lints in that order. Where all
methods go on it is the walk from the root under the policy of the linter, in the document as it is
when the linter has started over, or as it was before that if no parent was let go. -/
theorem run_is_stopping_walk (V : Visitor) (hrecords : V.RecordsAll) :
    (run V.linter (.node V.root) V.file).perform V.start = (V.told.outcome, V.told.store) ∧
      (V.Tidy → V.policy = .refresh → ∃ lints, V.told.outcome = .ok lints ∧
        (∀ depth, V.start.nodes.size + 2 ≤ depth →
          List.Forall₂ V.start.Shows (visitsOf V.told.events)
            (V.start.expansion (stopsAt V.levels V.start) depth (.node V.root))) ∧
        List.Forall₂ V.Reports (V.toRecord (visitsOf V.told.events)) lints) ∧
      ((∀ l ∈ V.levels, ∀ m ∈ l.methods, m.2.descends = true) →
        ∃ u, (reset V.linter V.file).perform V.start = (.ok (), u) ∧
          ∀ v, v = u ∨ v = V.start ∧ u.nodes = V.start.nodes →
            ∃ w : Walk, w.finish ≠ .limit ∧
              (∀ limit, Walk.start V.policy limit (.node V.root) v = w.cut v limit) ∧
              V.Retraces u v w) := by
  obtain ⟨u, hu⟩ := exists_startsOver V
  exact ⟨Told.run_tells _ _ V.start, run_expands hrecords,
    fun hdescends => ⟨u, hu.reset, fun _ hv => run_retraces hrecords hdescends hu hv⟩⟩

end Visitor

/-- A class that has something to say about loops and variables. -/
def namingLevel : Level where
  className := "Naming"
  methods := [("each", { findings := [⟨.text "loop", false⟩], descends := true }),
    ("script_variable", { findings := [⟨.text "variable", false⟩], descends := true })]

/-- A class that does not go on from properties. -/
def haltingLevel : Level where
  className := "Halting"
  methods := [("prop", { findings := [⟨.text "first", false⟩, ⟨.text "second", true⟩],
                         descends := false })]

/-- A loop with a variable to be made, over an expression that is also the value of a property. One
linter does not go on from properties. The other does, and its settings name the strict policy. -/
def watchedSheet : Store where
  nodes := #[
    some { position := { line := .int 1 }
           form := .statement (.list 0) (.each (.list 1) (.node 2)) },
    some { position := { line := .int 2 }
           form := .statement (.list 2) (.prop (.list 2) (.node 2)) },
    some { position := { column := .int 4 }
           form := .expression (.variable (.text "colors")) }]
  lists := #[[.node 1], [.text "color"], [], []]
  tables := #[[]]
  agents := #[
    { role := .linter { behaviour := .chain [haltingLevel, namingLevel], settings := .null
                        lints := .list 3 } },
    { role := .linter { behaviour := .chain [namingLevel], settings := .agent 2
                        lints := .list 3 } },
    { role := .settings (.table 0) (.policy .strict) }]

/-- A linter that visits that sheet. -/
def watching (i : AgentId) (levels : List Level) (policy : ParentPolicy)
    (isLinter : ∃ a l, watchedSheet.agent? i = some a ∧ a.role = .linter l ∧ a.backing = none ∧
      l.behaviour = .chain levels)
    (notes : watchedSheet.notes (.agent i) = []) (below : methodFor levels "children" = none)
    (hasPolicy : ((Linter.policy i).perform watchedSheet).1 = .ok policy) : Visitor where
  start := watchedSheet
  root := 0
  linter := i
  levels := levels
  policy := policy
  file := .text "a.scss"
  closed := by decide
  unbacked := rfl
  methods n v hv := by
    have hnotes : (watchedSheet.node n).notes = [] := by
      match n with
      | 0 | 1 | 2 | n + 3 => rfl
    rw [hnotes] at hv
    cases hv
  named i a v ha hv := by
    match i with
    | 0 | 1 =>
      cases ha
      cases hv
      rfl
    | 2 =>
      cases ha
      cases hv
    | i + 3 => cases ha
  there := by decide
  acyclic := acyclicFrom_of_rank (fun n => 2 - n) (by decide) 0
  isLinter := isLinter
  unhidden := by
    rw [notes]
    exact ⟨rfl, fun _ => rfl⟩
  below := below
  hasPolicy := hasPolicy

def haltingVisitor : Visitor :=
  watching 0 [haltingLevel, namingLevel] .refresh ⟨_, _, rfl, rfl, rfl, rfl⟩ rfl rfl rfl

def strictVisitor : Visitor :=
  watching 1 [namingLevel] .strict ⟨_, _, rfl, rfl, rfl, rfl⟩ rfl rfl rfl

/-- The value of the property is not visited below it, but it is below the loop. Under the strict
policy it is refused the second time. -/
theorem run_is_stopping_walk_watched :
    (haltingVisitor.RecordsAll ∧ haltingVisitor.Tidy ∧ haltingVisitor.policy = .refresh ∧
      ∃ lints, haltingVisitor.told.outcome = .ok lints ∧
        List.Forall₂ watchedSheet.Shows (visitsOf haltingVisitor.told.events)
          [.node 0, .node 1, .variable (.text "color"), .node 2] ∧
        List.Forall₂ haltingVisitor.Reports
          (haltingVisitor.toRecord (visitsOf haltingVisitor.told.events)) lints) ∧
      strictVisitor.RecordsAll ∧
        (∀ l ∈ strictVisitor.levels, ∀ m ∈ l.methods, m.2.descends = true) ∧
        ∃ u w, (Linter.reset 1 (.text "a.scss")).perform watchedSheet = (.ok (), u) ∧
          (∀ limit, Walk.start .strict limit (.node 0) u = w.cut u limit) ∧
          strictVisitor.Retraces u u w ∧ ∃ fault, w.finish = .failed fault := by
  have hrecords : haltingVisitor.RecordsAll := by decide +kernel
  have hrecords' : strictVisitor.RecordsAll := by decide +kernel
  have htidy : haltingVisitor.Tidy := by
    refine ⟨wellFormed_of_nodes haltingVisitor.closed rfl (by decide) (by decide), fun n _ => ?_,
      fun n c _ => Or.inl (parent?_eq_none.mpr (Or.inl ?_))⟩
    · show ∃ kind, (watchedSheet.node n).kind = .text kind
      match n with
      | 0 | 1 | 2 | n + 3 => exact ⟨_, rfl⟩
    · show (watchedSheet.node c).parent = .none
      match c with
      | 0 | 1 | 2 => rfl
      | c + 3 => rfl
  have hdescends : ∀ l ∈ strictVisitor.levels, ∀ m ∈ l.methods, m.2.descends = true := by decide
  have hlisted : watchedSheet.expansion (stopsAt haltingVisitor.levels watchedSheet) 5 (.node 0) =
      [.node 0, .node 1, .variable (.text "color"), .node 2] := by rfl
  have hfails : ∃ fault, strictVisitor.told.outcome = .error fault := by
    have hnot : ¬∃ lints, strictVisitor.told.outcome = .ok lints := by decide +kernel
    cases hr : strictVisitor.told.outcome with
    | error fault => exact ⟨fault, rfl⟩
    | ok lints => exact absurd ⟨lints, hr⟩ hnot
  obtain ⟨_, hexpands, _⟩ := Visitor.run_is_stopping_walk haltingVisitor hrecords
  obtain ⟨_, _, hretraces⟩ := Visitor.run_is_stopping_walk strictVisitor hrecords'
  obtain ⟨lints, hlints, hvisits, hreports⟩ := hexpands htidy rfl
  obtain ⟨u, hreset, hwalks⟩ := hretraces hdescends
  obtain ⟨w, _, hcut, hretraced⟩ := hwalks u (Or.inl rfl)
  obtain ⟨fault, hfault⟩ := hfails
  refine ⟨⟨hrecords, htidy, rfl, lints, hlints, ?_, hreports⟩, hrecords', hdescends, u, w, hreset,
    hcut, hretraced, fault, (hretraced.faults fault).mp hfault⟩
  rw [← hlisted]
  exact hvisits 5 (by decide)

end SheetLint
