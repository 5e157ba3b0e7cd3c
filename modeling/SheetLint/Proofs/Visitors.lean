import SheetLint.Proofs.Chains
import SheetLint.Proofs.Journal
import SheetLint.Proofs.Pruned
import SheetLint.Proofs.Remarks

/-!
# Visitors

A linter whose class is a chain of visit methods that record lints at the node and then go on to its
children, or do not, walks its document: what it visits is what the walk visits that stops at the
nodes whose method does not go on. `Visitor.Mirrors` is how a visit is compared with a walk. The two
start from stores abreast; they visit the same nodes, each with all nodes of the store the same,
they end in stores abreast, and both fail with the same fault or neither does. What is more, the
lints recorded on the way are those that the methods say, in order (`Visitor.visitTo_mirrors`).
-/

namespace SheetLint

open Store

/-- The method that a chain of classes has for a value that is visited, by its kind. -/
def methodAt (ls : List Level) (visit : Value × Store) : Option VisitMethod :=
  (visit.2.kindOf visit.1).toOption.bind (methodFor ls)

/-- What is recorded at a value that is visited. -/
def findingsAt (ls : List Level) (visit : Value × Store) : List Finding :=
  (methodAt ls visit).elim [] VisitMethod.findings

/-- Whether a linter that visits a node does not go on to its children. -/
def stopsAt (ls : List Level) (s : Store) (n : NodeId) : Bool :=
  (methodAt ls (.node n, s)).elim false (!·.descends)

/-- A linter that is about to visit a document, in the store as it is before the run. -/
structure Visitor where
  start : Store
  root : NodeId
  linter : AgentId
  /-- The classes of the linter, the most derived first. -/
  levels : List Level
  policy : ParentPolicy
  file : Value
  closed : start.Closed
  /-- Nothing was ever put in place of the attributes of something, so that none was lost. -/
  unbacked : start.hasBacked = false
  methods : ∀ n v, (start.node n).notes.lookup "traversal_children" = some v → v.isMissing = false
  named : start.Named
  there : root < start.nodes.size
  acyclic : start.AcyclicFrom root
  isLinter : ∃ a l, start.agent? linter = some a ∧ a.role = .linter l ∧ a.backing = none ∧
    l.behaviour = .chain levels
  /-- No visit of the class is hidden by something written to the linter. -/
  unhidden : (start.notes (.agent linter)).lookup "visit" = none ∧
    ∀ kind, (start.notes (.agent linter)).lookup ("visit_" ++ kind) = none
  /-- No class has something else done in place of visiting the children. -/
  below : methodFor levels "children" = none
  hasPolicy : ((Linter.policy linter).perform start).1 = .ok policy

namespace Visitor

variable (V : Visitor)

/-- The list that the lints of the run go to. -/
abbrev lints : ListId := V.start.lists.size

/-- The linter in the course of its run. -/
abbrev Working (s : Store) : Prop := V.start.AtWork V.linter V.lints V.file s

/-- What is recorded at a value that is visited can be recorded. -/
def Recordable (visit : Value × Store) : Prop :=
  ∀ f ∈ findingsAt V.levels visit,
    ∃ lint, ((Linter.record V.linter visit.1 f.description f.fixable).perform visit.2).1 = .ok lint

instance {ε α : Type} : (x : Except ε α) → Decidable (∃ a, x = .ok a)
  | .ok a => .isTrue ⟨a, rfl⟩
  | .error _ => .isFalse nofun

instance (visit : Value × Store) : Decidable (V.Recordable visit) :=
  inferInstanceAs (Decidable (∀ f ∈ findingsAt V.levels visit, _))

/-- All that is to be recorded at some values, one after the other. -/
def toRecord (visits : List (Value × Store)) : List ((Value × Store) × Finding) :=
  visits.flatMap fun visit => (findingsAt V.levels visit).map (visit, ·)

/-- A lint is what was to be recorded at a value: it has the value's line and column, and the
severity that the linter had before the run. -/
def Reports (e : (Value × Store) × Finding) (lint : Value) : Prop :=
  ∃ line column sev, e.1.2.lineAndColumn e.1.1 = .ok (line, column) ∧
    ((Linter.severity V.linter).perform V.start).1 = .ok sev ∧
    lint.report? = some {
      linter := .agent V.linter, file := V.file, line, column, length := .int 1
      description := e.2.description, severity := sev, fixable := e.2.fixable }

variable {V} {s t w : Store} {n : NodeId}

theorem holds_linter : V.start.Holds (.agent V.linter) := by
  obtain ⟨a, _, ha, _⟩ := V.isLinter
  intro c hc
  obtain rfl : c = .agent V.linter := by simpa [Value.cells] using hc
  exact (Array.getElem?_eq_some_iff.mp ha).1

/-! ## What a run finds -/

namespace Working

variable (h : V.Working s)
include h

theorem linter? : ∃ l, s.linter? V.linter = some l ∧ l.behaviour = .chain V.levels := by
  obtain ⟨a, l, ha, hl, _, hchain⟩ := V.isLinter
  obtain ⟨b, hb, lints, file, parent, rfl⟩ := h.follows.agent V.linter a ha
  refine ⟨{ l with lints, file }, ?_, hchain⟩
  simp [Store.linter?, hb, hl, Role.inRun]

theorem visitOf? (kind : String) :
    s.visitOf? V.linter kind = (methodFor V.levels kind).map VisitMethod.actions := by
  obtain ⟨l, hl, hchain⟩ := h.linter?
  rw [Store.visitOf?, hl, Option.bind_some, hchain, LinterClass.visit?_chain]

theorem descentOf? : s.descentOf? V.linter = none := by
  obtain ⟨l, hl, hchain⟩ := h.linter?
  rw [Store.descentOf?, hl, Option.bind_some, hchain, LinterClass.descent?_chain V.below]

theorem notes : s.notes (.agent V.linter) = V.start.notes (.agent V.linter) :=
  Linter.notes_agent h.follows holds_linter

theorem callable {method : String}
    (hm : (V.start.notes (.agent V.linter)).lookup method = none) :
    s.callable (.agent V.linter) method = .ok () := by
  rw [Store.callable, h.notes, hm]

/-- The policy is read, and nothing else happens. -/
theorem perform_policy : (Linter.policy V.linter).perform s = (.ok V.policy, s) := by
  have hsame := Linter.policy_sameResult V.closed h.follows holds_linter
  have hstore : ((Linter.policy V.linter).perform s).2 = s := by
    rw [Linter.policy, Edit.perform_bind, Edit.perform_tryRead]
    cases s.getAttribute (.agent V.linter) "parent_policy" with
    | error fault => rfl
    | ok v => cases v <;> rfl
  unfold Edit.SameResult at hsame
  rw [V.hasPolicy] at hsame
  exact Prod.ext (toOption_eq_some.mp hsame) hstore

/-- The method of a node that computes its children was not lost. -/
theorem getAttribute_children (n : NodeId) :
    ∃ v, s.getAttribute (.node n) "traversal_children" = .ok v := by
  have hnotes : ∀ v, (s.node n).notes.lookup "traversal_children" = some v →
      v.isMissing = false := by
    intro v hv
    rcases Nat.lt_or_ge n V.start.nodes.size with hold | hnew
    · rw [h.follows.extends_.notes n hold] at hv
      exact V.methods n v hv
    · rw [(h.follows.extends_.leaf n hnew).2] at hv
      cases hv
  have hclass : ∀ c : NodeClass, "traversal_children" ∉ c.fieldNames := by
    intro c
    cases c <;> decide
  have hfields : (s.node n).fields.lookup "traversal_children" = none := by
    rw [lookup_fields _ (by decide), List.lookup_eq_none_iff]
    intro e he
    rw [bne_iff_ne]
    rintro hname
    exact hclass _ (hname ▸ (List.of_mem_zip he).1)
  rw [show s.getAttribute (.node n) "traversal_children" =
    s.orMissing (.node n) "traversal_children"
      (((s.node n).fields.lookup "traversal_children" <|>
        (s.node n).notes.lookup "traversal_children") <|>
          Members.node? (s.node n).nodeClass "traversal_children") from rfl, hfields]
  cases hv : (s.node n).notes.lookup "traversal_children" with
  | none => exact ⟨_, rfl⟩
  | some v => exact ⟨v, orMissing_of_present _ _ _ (hnotes v hv)⟩

/-- Whatever kind a node has can be printed. -/
theorem kindOf (n : NodeId) : ∃ kind, s.kindOf (.node n) = .ok kind := by
  have hb : s.hasBacked = false := h.follows.backed.trans V.unbacked
  rw [Store.kindOf, getAttribute_kind]
  exact ⟨_, tryBare_of_unbacked hb _⟩

end Working

/-! ## Steps without an entry -/

section Steps

variable {α β : Type}

theorem silently_bind_ok {e : Edit α} {a : α} (h : e.perform s = (.ok a, t)) (f : α → Told β) :
    (Told.silently e >>= f) s = f a t := by
  have hfirst : Told.silently e s = ⟨[], .ok a, t⟩ := by
    rw [Told.silently, h]
  rw [Told.bind_ok hfirst, List.nil_append]

theorem tryRead_bind_ok {f : Store → Except Fault α} {a : α} (h : f s = .ok a) (g : α → Told β) :
    (Told.silently (Edit.tryRead f) >>= g) s = g a s :=
  silently_bind_ok (by rw [Edit.perform_tryRead, h]) g

theorem bind_congr {x y : Told α} (h : x s = y s) (f : α → Told β) : (x >>= f) s = (y >>= f) s := by
  simp only [bind, h]

/-- Nothing is told by doing nothing afterwards. -/
theorem bind_pure_unit (x : Told Unit) (s : Store) : (x >>= fun _ => pure ()) s = x s := by
  cases h : x s with
  | mk es r t =>
    cases r with
    | error fault => rw [Told.bind_error h]
    | ok a =>
      rw [Told.bind_ok h]
      show (⟨es ++ [], .ok (), t⟩ : Account Unit) = ⟨es, .ok (), t⟩
      rw [List.append_nil]

end Steps

/-! ## One visit -/

/-- Lints are recorded at a node one after the other, and then the rest is done. -/
theorem actAll_findings (down : Value → Told Unit) {r : Store} (rest : List Action) :
    ∀ {fs : List Finding} {s : Store}, V.Working s → (∀ m, s.node m = r.node m) →
      (∀ f ∈ fs, ∃ line column sev, V.start.Records V.linter V.file sev ∧
        r.lineAndColumn (.node n) = .ok (line, column)) →
      ∃ t new, Told.actAll V.linter down (.node n) (fs.map Finding.action ++ rest) s =
          Told.actAll V.linter down (.node n) rest t ∧ s.Aside V.lints t ∧
        t.list V.lints = s.list V.lints ++ new ∧
        List.Forall₂ V.Reports (fs.map (((.node n, r) : Value × Store), ·)) new
  | [], s, _, _, _ => ⟨s, [], rfl, .refl _ s, by rw [List.append_nil], .nil⟩
  | f :: fs, s, hs, hnodes, hfs => by
    obtain ⟨line, column, sev, hrecords, hplace⟩ := hfs f (List.mem_cons_self ..)
    obtain ⟨lint, s', hrecord, haside, hlist, hreport⟩ := hs.perform_record V.closed V.unbacked
      holds_linter hrecords (lineAndColumn_congr (hnodes n) hplace) f.description f.fixable
    obtain ⟨t, new, hrest, ht, hnew, hreports⟩ := actAll_findings down rest
      (hs.aside haside) (fun m => (haside.node m).trans (hnodes m))
      fun f hf => hfs f (List.mem_cons_of_mem _ hf)
    refine ⟨t, lint :: new, ?_, haside.trans ht, ?_,
      .cons ⟨line, column, sev, hplace, hrecords.severity, hreport⟩ hreports⟩
    · rw [List.map_cons, List.cons_append, Told.actAll, ← hrest]
      have hlint : (do
          let _ ← Linter.record V.linter (.node n) f.description f.fixable
          return : Edit Unit).perform s = (.ok (), s') := by
        rw [Edit.perform_bind_ok hrecord]
        rfl
      exact silently_bind_ok hlint _
    · rw [hnew, hlist, List.append_assoc]
      rfl

/-- A visit of a node records what its method says, and then goes on or does not. -/
theorem dispatch_node (hs : V.Working s) (hrecordable : V.Recordable (.node n, s))
    (down : Value → Told Unit) :
    ∃ t new, (stopsAt V.levels s n = true ∧
          Told.dispatch V.linter down (.node n) s = ⟨[], .ok (), t⟩ ∨
        stopsAt V.levels s n = false ∧
          Told.dispatch V.linter down (.node n) s = down (.node n) t) ∧
      s.Aside V.lints t ∧ t.list V.lints = s.list V.lints ++ new ∧
      List.Forall₂ V.Reports (V.toRecord [(.node n, s)]) new := by
  obtain ⟨kind, hkind⟩ := hs.kindOf n
  have hnote : (s.notes (.agent V.linter)).lookup ("visit_" ++ kind) = none := by
    rw [hs.notes]
    exact V.unhidden.2 kind
  have hmethod : methodAt V.levels (.node n, s) = methodFor V.levels kind := by
    rw [methodAt, hkind]
    rfl
  have hdispatch : Told.dispatch V.linter down (.node n) s =
      match methodFor V.levels kind with
      | none => down (.node n) s
      | some m => Told.actAll V.linter down (.node n) m.actions s := by
    rw [Told.dispatch, tryRead_bind_ok (hs.callable V.unhidden.1), tryRead_bind_ok hkind,
      silently_bind_ok (Edit.perform_get s)]
    simp only [hnote, hs.visitOf?]
    cases methodFor V.levels kind <;> rfl
  rw [hdispatch, toRecord, List.flatMap_singleton, findingsAt, stopsAt, hmethod]
  -- without a method the visit goes on at once; else what follows the findings says whether it does
  cases hm : methodFor V.levels kind with
  | none => exact ⟨s, [], Or.inr ⟨rfl, rfl⟩, .refl _ s, by rw [List.append_nil], .nil⟩
  | some m =>
    have hfs : ∀ f ∈ m.findings, ∃ line column sev, V.start.Records V.linter V.file sev ∧
        s.lineAndColumn (.node n) = .ok (line, column) := by
      intro f hf
      refine hs.record_needs V.closed V.unbacked holds_linter (hrecordable f ?_)
      rw [findingsAt, hmethod, hm]
      exact hf
    obtain ⟨t, new, hrest, ht, hnew, hreports⟩ := actAll_findings down
      (if m.descends then [.descend] else []) hs (fun _ => rfl) hfs
    refine ⟨t, new, ?_, ht, hnew, hreports⟩
    cases hd : m.descends with
    | false =>
      rw [hd] at hrest
      refine Or.inl ⟨by rw [Option.elim_some, hd]; rfl, ?_⟩
      show Told.actAll V.linter down (.node n) m.actions s = _
      rw [VisitMethod.actions, hd]
      exact hrest
    | true =>
      rw [hd] at hrest
      refine Or.inr ⟨by rw [Option.elim_some, hd]; rfl, ?_⟩
      show Told.actAll V.linter down (.node n) m.actions s = _
      rw [VisitMethod.actions, hd]
      exact hrest.trans (bind_pure_unit (down (.node n)) t)

/-- To go on from a node is to compute its children and to visit them. -/
theorem descend_node (hs : V.Working s) (visit : Value → Told Unit) :
    Told.descend V.linter visit (.node n) s =
      (Told.children n V.policy >>= fun cs => cs.forM fun c => visit (.node c)) s := by
  have hmethod : (V.start.notes (.agent V.linter)).lookup "visit_children" = none :=
    V.unhidden.2 "children"
  obtain ⟨v, hv⟩ := hs.getAttribute_children n
  have hchildren : Told.childrenFor V.linter (.node n) s = Told.children n V.policy s := by
    rw [Told.childrenFor, tryRead_bind_ok hv, silently_bind_ok hs.perform_policy]
  show Told.descendTo V.linter visit (999 + 1) (.node n) s = _
  rw [Told.descendTo, tryRead_bind_ok (hs.callable hmethod),
    silently_bind_ok (Edit.perform_read _ s), hs.descentOf?]
  exact bind_congr hchildren _

/-! ## Visits and walks -/

/-- The same value is visited, and all nodes are the same at that moment. -/
def SameVisit (e f : Value × Store) : Prop := e.1 = f.1 ∧ e.2.nodes = f.2.nodes

/-- What came of visits that began in `s` is what came of a walk that began in `w`, and the lints
are those to be recorded at what was visited. -/
structure Mirrors (V : Visitor) (s w : Store) (a : Account Unit) (x : Walk) : Prop where
  working : V.Working a.store
  abreast : a.store.Abreast V.lints x.store
  agents : a.store.agents = s.agents ∧ x.store.agents = w.agents
  visits : List.Forall₂ SameVisit (visitsOf a.events) x.visits
  ended : x.finish = .done ∧ a.outcome = .ok () ∨
    ∃ fault, x.finish = .failed fault ∧ a.outcome = .error fault
  lints : ∃ new, a.store.list V.lints = s.list V.lints ++ new ∧
    List.Forall₂ V.Reports (V.toRecord (visitsOf a.events)) new

theorem toRecord_append (xs ys : List (Value × Store)) :
    V.toRecord (xs ++ ys) = V.toRecord xs ++ V.toRecord ys :=
  List.flatMap_append

namespace Mirrors

/-- Where nothing is left to do. -/
theorem nothing (hs : V.Working s) (h : s.Abreast V.lints w) :
    V.Mirrors s w ⟨[], .ok (), s⟩ ⟨[], .done, w⟩ where
  working := hs
  abreast := h
  agents := ⟨rfl, rfl⟩
  visits := .nil
  ended := Or.inl ⟨rfl, rfl⟩
  lints := ⟨[], by rw [List.append_nil], .nil⟩

/-- Where the same fault came up in both. -/
theorem failed (hs : V.Working s) (h : s.Abreast V.lints w) (fault : Fault) :
    V.Mirrors s w ⟨[], .error fault, s⟩ ⟨[], .failed fault, w⟩ where
  working := hs
  abreast := h
  agents := ⟨rfl, rfl⟩
  visits := .nil
  ended := Or.inr ⟨fault, rfl, rfl⟩
  lints := ⟨[], by rw [List.append_nil], .nil⟩

/-- A node was visited, and lints were recorded at it, before what came next. -/
theorem visiting {es : List Event} {a : Account Unit} {x : Walk} {s' w' : Store} {new : List Value}
    (h : V.Mirrors s' w' a x) (hes : visitsOf es = []) (hnodes : s.nodes = w.nodes)
    (hagents : s'.agents = s.agents ∧ w'.agents = w.agents)
    (hnew : s'.list V.lints = s.list V.lints ++ new)
    (hreports : List.Forall₂ V.Reports (V.toRecord [(.node n, s)]) new) :
    V.Mirrors s w ⟨.visited (.node n) s :: (es ++ a.events), a.outcome, a.store⟩
      (x.visiting (.node n) w) := by
  have hvisits : visitsOf (.visited (.node n) s :: (es ++ a.events)) =
      [(.node n, s)] ++ visitsOf a.events := by
    show (Value.node n, s) :: visitsOf (es ++ a.events) = _
    rw [visitsOf_append, hes]
    rfl
  obtain ⟨more, hmore, hreports'⟩ := h.lints
  refine ⟨h.working, h.abreast, ⟨h.agents.1.trans hagents.1, h.agents.2.trans hagents.2⟩, ?_,
    h.ended, new ++ more, ?_, ?_⟩
  · rw [hvisits]
    exact .cons ⟨rfl, hnodes⟩ h.visits
  · rw [hmore, hnew, List.append_assoc]
  · rw [hvisits, toRecord_append]
    exact List.rel_append hreports hreports'

/-- One after the other. -/
theorem append {a b : Account Unit} {x y : Walk} (h : V.Mirrors s w a x)
    (h' : V.Mirrors a.store x.store b y) :
    V.Mirrors s w ⟨a.events ++ b.events, b.outcome, b.store⟩ (y.after x.visits) := by
  obtain ⟨new, hnew, hreports⟩ := h.lints
  obtain ⟨more, hmore, hreports'⟩ := h'.lints
  refine ⟨h'.working, h'.abreast, ⟨h'.agents.1.trans h.agents.1, h'.agents.2.trans h.agents.2⟩, ?_,
    h'.ended, new ++ more, ?_, ?_⟩
  · rw [visitsOf_append]
    exact List.rel_append h.visits h'.visits
  · rw [hmore, hnew, List.append_assoc]
  · rw [visitsOf_append, toRecord_append]
    exact List.rel_append hreports hreports'

end Mirrors

/-- Children are computed alike in stores abreast, and nothing is recorded. -/
theorem children_alike (hs : V.Working s) (h : s.Abreast V.lints w) (n : NodeId) :
    ∃ es r s' w', Told.children n V.policy s = ⟨es, r, s'⟩ ∧ visitsOf es = [] ∧
      (Edit.children n V.policy).perform w = (r, w') ∧ V.Working s' ∧ s'.Abreast V.lints w' ∧
      (s'.agents = s.agents ∧ w'.agents = w.agents) ∧ s'.list V.lints = s.list V.lints := by
  have htells := Told.children_tells n V.policy s
  obtain ⟨hresult, hkept, _⟩ := Edit.parallel_children n V.policy h
  have hagents := (agents_marks_children s n V.policy).1
  have hagents' := (agents_marks_children w n V.policy).1
  have hext := children_extends (.refl s) n V.policy
  cases hw : (Edit.children n V.policy).perform w with
  | mk r w' =>
    cases hc : Told.children n V.policy s with
    | mk es r' s' =>
      have hes := Told.children_visitsNothing n V.policy s
      rw [hc] at htells hes
      rw [htells] at hresult hkept hagents hext
      rw [hw] at hresult hkept hagents'
      obtain rfl : r = r' := hresult
      refine ⟨es, r, s', w', rfl, hes, rfl, ?_, hkept, ⟨hagents, hagents'⟩, hext.list _ hs.there⟩
      have hbacked : s'.hasBacked = s.hasBacked := hkept.unbacked.trans h.unbacked.symm
      exact hs.of_agents (hs.follows.extends_.trans hext) hagents hbacked hext.lists

/-- Visits of several nodes mirror the walks from them, one after the other. -/
theorem forM_mirrors {visit : Value → Told Unit} {walk : NodeId → Store → Walk}
    (hvisit : ∀ n s w, V.Working s → s.Abreast V.lints w → (walk n w).finish ≠ .limit →
      (∀ e ∈ visitsOf (visit (.node n) s).events, V.Recordable e) →
        V.Mirrors s w (visit (.node n) s) (walk n w)) :
    ∀ (cs : List NodeId) (s w : Store), V.Working s → s.Abreast V.lints w →
      (Walk.inTurn walk cs w).finish ≠ .limit →
      (∀ e ∈ visitsOf ((cs.forM fun c => visit (.node c)) s).events, V.Recordable e) →
        V.Mirrors s w ((cs.forM fun c => visit (.node c)) s) (Walk.inTurn walk cs w)
  | [], _, _, hs, h, _, _ => .nothing hs h
  | c :: cs, s, w, hs, h, hend, hrec => by
    have hforM : ((c :: cs).forM fun c => visit (.node c)) s =
      (visit (.node c) >>= fun _ => cs.forM fun c => visit (.node c)) s := rfl
    rw [hforM] at hrec ⊢
    rw [Walk.inTurn] at hend ⊢
    have hfirst := hvisit c s w hs h
    cases ha : visit (.node c) s with
    | mk es r t =>
      have hrec' : ∀ e ∈ visitsOf es, V.Recordable e := by
        intro e he
        refine hrec e ?_
        cases r with
        | error fault => rwa [Told.bind_error ha]
        | ok _ =>
          rw [Told.bind_ok ha, visitsOf_append]
          exact List.mem_append_left _ he
      rw [ha] at hfirst
      -- the walk goes on to the next node exactly where the visit does
      cases hf : (walk c w).finish with
      | limit =>
        rw [hf] at hend
        exact absurd hf hend
      | done =>
        simp only [hf] at hend ⊢
        have hfirst := hfirst (by simp [hf]) hrec'
        obtain ⟨_, rfl⟩ | ⟨fault, hfault, _⟩ := hfirst.ended
        case inr => simp [hf] at hfault
        rw [Told.bind_ok ha] at hrec ⊢
        have hrest := forM_mirrors hvisit cs t (walk c w).store hfirst.working hfirst.abreast hend
          fun e he => hrec e (by
            rw [visitsOf_append]
            exact List.mem_append_right _ he)
        exact hfirst.append hrest
      | failed fault =>
        simp only
        have hfirst := hfirst (by simp [hf]) hrec'
        obtain ⟨hdone, _⟩ | ⟨fault', _, rfl⟩ := hfirst.ended
        case inl => simp [hf] at hdone
        rw [Told.bind_error ha]
        exact hfirst

/-- A visit mirrors the walk that stops where the methods do not go on, whatever the depths are at
which the two give up, if the walk does not come to its own. -/
theorem visitTo_mirrors : ∀ (d depth : Nat) (n : NodeId) (s w : Store), d ≤ depth → V.Working s →
    s.Abreast V.lints w → (Walk.pruned (stopsAt V.levels) V.policy d n w).finish ≠ .limit →
    (∀ e ∈ visitsOf (Told.visitTo V.linter depth (.node n) s).events, V.Recordable e) →
      V.Mirrors s w (Told.visitTo V.linter depth (.node n) s)
        (Walk.pruned (stopsAt V.levels) V.policy d n w)
  | 0, _, _, _, _, _, _, _, hend, _ => absurd rfl hend
  | d + 1, depth + 1, n, s, w, hd, hs, h, hend, hrec => by
    let down := Told.descend V.linter (Told.visitTo V.linter depth)
    have hvisit : Told.visitTo V.linter (depth + 1) (.node n) s =
        ⟨.visited (.node n) s :: (Told.dispatch V.linter down (.node n) s).events,
          (Told.dispatch V.linter down (.node n) s).outcome,
          (Told.dispatch V.linter down (.node n) s).store⟩ := rfl
    -- both find the same method, and from there on the visit has recorded lints, which the walk
    -- does not see
    have hstops : stopsAt V.levels w n = stopsAt V.levels s n := by
      rw [stopsAt, stopsAt, methodAt, methodAt, h.kindOf]
    rw [hvisit] at hrec ⊢
    rw [Walk.pruned, hstops] at hend ⊢
    obtain ⟨t, new, hcases, haside, hnew, hreports⟩ :=
      dispatch_node hs (hrec (.node n, s) (List.mem_cons_self ..)) down
    have ht := hs.aside haside
    have htw := h.aside haside
    obtain ⟨hstop, hdispatch⟩ | ⟨hgoes, hdispatch⟩ := hcases
    · have hnone : visitsOf [] = [] := rfl
      rw [if_pos hstop, hdispatch]
      exact (Mirrors.nothing ht htw).visiting hnone h.nodes.symm ⟨haside.agents, rfl⟩ hnew hreports
    · rw [if_neg (by simp [hgoes])] at hend ⊢
      rw [hdispatch, show down (.node n) t = _ from descend_node ht _] at hrec ⊢
      obtain ⟨es, r, t', w', hchildren, hes, hw, ht', htw', hagents, hlist⟩ :=
        children_alike ht htw n
      rw [hw] at hend ⊢
      have hagents' : t'.agents = s.agents ∧ w'.agents = w.agents :=
        ⟨hagents.1.trans haside.agents, hagents.2⟩
      have hnew' := hlist.trans hnew
      cases r with
      | error fault =>
        have hfailed := (Mirrors.failed ht' htw' fault).visiting hes h.nodes.symm hagents' hnew'
          hreports
        rw [Told.bind_error hchildren]
        rwa [List.append_nil] at hfailed
      | ok cs =>
        rw [Told.bind_ok hchildren] at hrec ⊢
        refine (forM_mirrors (fun n s w hs h hend hrec => visitTo_mirrors d depth n s w
          (Nat.le_of_succ_le_succ hd) hs h hend hrec) cs t' w' ht' htw' hend ?_).visiting hes
            h.nodes.symm hagents' hnew' hreports
        intro e he
        refine hrec e (List.mem_cons_of_mem _ ?_)
        show e ∈ visitsOf (es ++ _)
        rw [visitsOf_append]
        exact List.mem_append_right _ he

end Visitor

end SheetLint
