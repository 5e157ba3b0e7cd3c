import SheetLint.Proofs.Shown

/-!
# Locations that are handed down early are handed down in any case

A node that does not hand its location down early ends up in the same store, children, locations and
parents, because all whom it would have told early are among the children. While it attaches the
children it is behind by what was not handed down yet (`Edit.Behind`), and catches up with the last
of them (`early_redundant`).

On the way a message can be logged, that a child has moved, and in a message one may read a location
that is still to come. Then the wording differs, and nothing else. A message that gives nothing of
the sort away is tactful (`Store.Tactful`). To be anything else it takes a kind or a line that is an
expression itself, or leads to one; where kinds are words and lines are numbers all messages are
tactful (`Edit.reticent_of_plainspoken`).
-/

namespace SheetLint

namespace Store

variable {s t : Store} {n c : NodeId} {policy : ParentPolicy}

/-- What is printed when `c` moves to `n` can be drawn to its end, and of some expressions depicts
only those that have taken their location from `n` by then. -/
def Tactful (s : Store) (n c : NodeId) (early : List NodeId) : Prop :=
  ∀ current, s.parent? c = .ok (some current) → current ≠ .node n →
    ∀ w ∈ (s.fill c n).told c n current, (s.fill c n).Ends w ∧
      ∀ e ∈ early, (s.fill c n).Depicts w (.node e) → (s.fill c n).Rests n e

/-- To hand a location down does nothing to what has it. -/
theorem position_fillAll_of_rests {cs : List NodeId} (h : c ∈ cs → s.Rests n c) :
    ((s.fillAll n cs).node c).position = (s.node c).position := by
  rw [node_fillAll]
  split
  · rename_i hc
    exact h hc.1 hc.2
  · rfl

theorem Fuller.withLog (h : s.Fuller t) (log : List Message) : s.Fuller (t.withLog log) :=
  ⟨h.lists, h.tables, h.agents, h.hasBacked, h.form, h.notes, h.position⟩

theorem Fuller.attach {u : Store} (h : s.Fuller t)
    (ha : t.attach (.node c) (.node n) policy = .ok u) : s.Fuller u := by
  rcases attach_cases ha with rfl | rfl | ⟨m, rfl⟩
  · exact h
  · exact h.setParent c _
  · exact (h.note m).setParent c _

/-- Kinds and lines are words and numbers, and lead nowhere. -/
structure Plainspoken (s : Store) : Prop where
  kind : ∀ n, (s.node n).kind.cell? = none
  agent : ∀ i w, s.getAttribute (.agent i) "kind" = .ok w → w.cell? = none
  line : ∀ n, (s.node n).position.line.cell? = none

namespace Plainspoken

/-- Only new lines matter. -/
theorem of_fuller (h : s.Plainspoken) (ht : s.Fuller t)
    (line : ∀ n, (t.node n).position.line.cell? = none) : t.Plainspoken where
  kind n := by
    rw [ht.kind]
    exact h.kind n
  agent i w hw := h.agent i w (ht.hasKind hw)
  line := line

/-- Completing a location keeps kinds words and lines numbers. -/
theorem fill (h : s.Plainspoken) (c n : NodeId) : (s.fill c n).Plainspoken := by
  refine h.of_fuller ((Fuller.refl s).fill c n) fun d => ?_
  rw [node_fill]
  split
  · rw [Position.completed]
    split
    · exact h.line n
    · exact h.line c
  · exact h.line d

/-- So does attaching a child. -/
theorem attach (h : s.Plainspoken) (ha : s.attach (.node c) (.node n) policy = .ok t) :
    t.Plainspoken := by
  refine h.of_fuller ((Fuller.refl s).attach ha) fun d => ?_
  rcases attach_cases ha with rfl | rfl | ⟨m, rfl⟩
  · exact h.line d
  · rw [position_setParent]
    exact h.line d
  · rw [position_setParent]
    exact h.line d

/-- A variable stands where its container does, and its kind is a word. -/
theorem addVariable (h : s.Plainspoken) (n : NodeId) (name : Value) :
    (s.addVariable n name).Plainspoken where
  kind d := by
    rw [Store.addVariable, node_addNode]
    split
    · rfl
    · exact h.kind d
  agent i w hw := by
    rw [getAttribute_agent (by decide)] at hw
    refine h.agent i w ?_
    rw [getAttribute_agent (by decide)]
    exact hw
  line d := by
    rw [Store.addVariable, node_addNode]
    split
    · exact h.line n
    · exact h.line d

/-- Words and numbers depict nothing. -/
theorem tactful (h : s.Plainspoken) (early : List NodeId) : s.Tactful n c early := by
  intro current _ _ w hw
  have hfill := h.fill c n
  have hplain : w.cell? = none := by
    simp only [told, List.cons_append, List.nil_append, List.mem_cons, Option.mem_toList] at hw
    rcases hw with rfl | rfl | rfl | hw
    · exact hfill.kind c
    · exact hfill.line c
    · exact hfill.kind n
    · cases hkind : (s.fill c n).getAttribute current "kind" with
      | error fault => simp [hkind, Except.toOption] at hw
      | ok x =>
        rw [hkind] at hw
        cases hw
        rcases getAttribute_kind_cases hkind with ⟨m, rfl⟩ | ⟨i, rfl⟩
        · rw [getAttribute_kind] at hkind
          cases hkind
          exact hfill.kind m
        · exact hfill.agent i w hkind
  have halone : ∀ {x}, (s.fill c n).Depicts w x → x.cell? = none := fun hx =>
    eq_of_depicts hplain hx ▸ hplain
  refine ⟨fun i hi => ?_, fun e _ he => ?_⟩
  · cases halone hi
  · cases halone he

end Plainspoken

end Store

namespace Edit

open Store

variable {s t u p q r : Store} {n c : NodeId} {policy : ParentPolicy} {early cs : List NodeId}

/-! ## One step behind -/

/-- `p` is behind `r` by what `n` hands down to some nodes, and by the wording of messages. -/
structure Behind (n : NodeId) (early : List NodeId) (p r : Store) : Prop where
  store : r = (p.fillAll n early).withLog r.log
  length : r.log.length = p.log.length

namespace Behind

theorem fill (h : Behind n early p r) (c : NodeId) : Behind n early (p.fill c n) (r.fill c n) where
  store := by
    rw [log_fill, ← fillAll_fill, ← fill_withLog, ← h.store]
  length := by
    rw [log_fill, log_fill, h.length]

theorem setParent (h : Behind n early p r) (c : NodeId) (v : Value) :
    Behind n early (p.setParent (.node c) v) (r.setParent (.node c) v) where
  store := by
    rw [fillAll_setParent]
    exact congrArg (·.setParent (.node c) v) h.store
  length := h.length

/-- A message in both logs leaves the one store behind the other by as much as before. -/
theorem note (h : Behind n early p r) (m m' : Message) :
    Behind n early (p.note m) (r.note m') where
  store := by
    have hnote : p.note m = p.withLog (p.log ++ [m]) := rfl
    have hstore := congrArg (·.withLog (r.log ++ [m'])) h.store
    rw [hnote, fillAll_withLog]
    exact hstore
  length := by
    simp only [Store.note, List.length_append, List.length_singleton, h.length]

variable (h : Behind n early p r)
include h

theorem fuller : p.Fuller r := by
  rw [h.store]
  exact ((Fuller.refl p).fillAll n early).withLog _

theorem parent? (c : NodeId) {found : Option Value} :
    p.parent? c = .ok found ↔ r.parent? c = .ok found := by
  refine (parent?_congr ?_).symm
  rw [h.store]
  exact parent_fillAll n early p c

/-- What rests stands where it does. -/
theorem position {e : NodeId} (he : e ∈ early → p.Rests n e) :
    (r.node e).position = (p.node e).position := by
  rw [h.store]
  exact position_fillAll_of_rests he

/-- Where a child is attached it is attached as well where less was handed down, and in the same
words if these are tactful. -/
theorem adopt (ha : (adopt n policy c).perform r = (.ok ⟨⟩, t)) :
    ∃ q, (Edit.adopt n policy c).perform p = (.ok ⟨⟩, q) ∧ Behind n early q t ∧
      (policy = .strict ∨ p.Tactful n c early → p.log = r.log → q.log = t.log) := by
  have hfill := h.fill c
  have hattach := of_adopt_ok ha
  rw [perform_adopt]
  have hlog : p.log = r.log → (p.fill c n).log = (r.fill c n).log := by
    rw [log_fill, log_fill]
    exact id
  rcases attach_inv hattach with ⟨hsame, rfl⟩ | ⟨hnone, rfl⟩ | ⟨current, _, hother, hne, rfl, _⟩
  · rw [attach_of_same ((hfill.parent? c).mpr hsame)]
    exact ⟨_, rfl, hfill, fun _ => hlog⟩
  · rw [attach_of_none ((hfill.parent? c).mpr hnone)]
    exact ⟨_, rfl, hfill.setParent c _, fun _ => hlog⟩
  · -- the child has another parent, and that it moved is said in both stores
    have hstays := hfill.position fun _ => rests_fill p n c
    rw [attach_moves hother hne] at hattach
    cases hm : (r.fill c n).reparented (.node c) current (.node n) with
    | error fault => simp [hm] at hattach
    | ok m =>
    rw [hm] at hattach
    cases hattach
    obtain ⟨m', hm', hwords⟩ := hfill.fuller.reparented hstays hm
    rw [attach_moves ((hfill.parent? c).mpr hother) hne, hm']
    refine ⟨_, rfl, (hfill.note m' m).setParent c _, fun hquiet hpr => ?_⟩
    have hfound : p.parent? c = .ok (some current) := by
      rw [← parent?_congr (parent_fill p c n c)]
      exact (hfill.parent? c).mpr hother
    have htactful := hquiet.resolve_left (by simp) current hfound hne
    obtain rfl : m' = m := hwords fun w hw => ⟨(htactful w hw).1, fun e he =>
      hfill.position fun hearly => (htactful w hw).2 e hearly he⟩
    exact congrArg (· ++ [m']) (hlog hpr)

end Behind

/-! ## The whole loop -/

/-- All messages that are logged while children are attached are tactful about some expressions. -/
def Discreet (n : NodeId) (policy : ParentPolicy) (early cs : List NodeId) (s : Store) : Prop :=
  ∀ before c after, cs = before ++ c :: after → ∀ u,
    (before.forM (adopt n policy)).perform s = (.ok ⟨⟩, u) → u.Tactful n c early

theorem Discreet.head (h : Discreet n policy early (c :: cs) s) : s.Tactful n c early :=
  h [] c cs rfl s rfl

theorem Discreet.tail (h : Discreet n policy early (c :: cs) s)
    (hadopt : (adopt n policy c).perform s = (.ok ⟨⟩, t)) : Discreet n policy early cs t := by
  rintro before d after rfl u hu
  refine h (c :: before) d after rfl u ?_
  rw [forM_cons, perform_bind_ok hadopt, hu]

theorem discreet_of_plainspoken (h : s.Plainspoken) : Discreet n policy early cs s := by
  intro before c _ _ u hu
  have hkept : ((before.forM (adopt n policy)).perform s).2.Plainspoken :=
    forM_adopt_preserves Plainspoken (fun _ => True) (fun _ c h _ => h.fill c n)
      (fun _ _ _ h _ ha => h.attach ha) before h fun _ _ => trivial
  rw [hu] at hkept
  exact hkept.tactful early

/-- A node that hands nothing down early is tactful, in all messages that are logged, about those to
which it would have. -/
def Reticent (n : NodeId) (policy : ParentPolicy) (s : Store) : Prop :=
  ∀ cs u, (gatherPlain n).perform s = (.ok cs, u) → Discreet n policy (s.early n) cs u

/-- Where kinds are words and lines are numbers a node is tactful in any case. -/
theorem reticent_of_plainspoken (h : s.Plainspoken) : Reticent n policy s := by
  intro cs u hu
  obtain ⟨names, hnames⟩ := gatherPlain_adds s n
  rw [hu] at hnames
  obtain rfl : u = s.addVariables n names := hnames
  exact discreet_of_plainspoken
    (addVariables_keeps (P := Plainspoken) (fun _ name h => h.addVariable n name) names h)

/-- Where all children are attached they are attached as well where less was handed down. -/
theorem Behind.forM_adopt : ∀ {cs : List NodeId} {p r : Store}, Behind n early p r →
    (cs.forM (Edit.adopt n policy)).perform r = (.ok ⟨⟩, t) →
      ∃ q, (cs.forM (Edit.adopt n policy)).perform p = (.ok ⟨⟩, q) ∧ Behind n early q t ∧
        (policy = .strict ∨ Discreet n policy early cs p → p.log = r.log → q.log = t.log)
  | [], p, _, h, hloop => by
    cases hloop
    exact ⟨p, rfl, h, fun _ => id⟩
  | c :: cs, p, r, h, hloop => by
    rw [forM_cons] at hloop
    obtain ⟨_, u, hfirst, hrest⟩ := of_perform_bind_ok hloop
    obtain ⟨q, hq, hnext, hword⟩ := h.adopt hfirst
    obtain ⟨q', hq', hend, hwords⟩ := Behind.forM_adopt hnext hrest
    refine ⟨q', by rw [forM_cons, perform_bind_ok hq, hq'], hend, fun hquiet hlog => ?_⟩
    exact hwords (hquiet.imp_right fun h => h.tail hq) (hword (hquiet.imp_right Discreet.head) hlog)

/-- Children that are gathered without handing anything down early are then attached. -/
theorem perform_childrenPlain (hcs : (gatherPlain n).perform s = (.ok cs, u))
    (hloop : (cs.forM (adopt n policy)).perform u = (.ok ⟨⟩, t)) :
    (childrenWith Early.nothing n policy).perform s = (.ok cs, t) := by
  have hsplit : childrenWith Early.nothing n policy =
      (do let cs ← gatherPlain n; cs.forM (adopt n policy); return cs) := by
    simp only [childrenWith, gatherPlain, bind_assoc]
  rw [hsplit, perform_bind_ok hcs, perform_bind_ok hloop]
  rfl

end Edit

open Store Edit

/-- A node that gets its children would get the same ones if it handed nothing down early, and leave
the same store behind: the same locations, the same parents, and as many messages. These read the
same under the strict policy. Under the refreshing one they do if those that are logged without
handing down early depict nothing that is still to be handed its location, and can be drawn to their
end. -/
theorem early_redundant {s t : Store} {n : NodeId} {policy : ParentPolicy} {cs : List NodeId}
    (h : (Edit.children n policy).perform s = (.ok cs, t)) :
    ∃ log, (childrenWith Early.nothing n policy).perform s = (.ok cs, { t with log }) ∧
      log.length = t.log.length ∧
      (policy = .strict ∨ Reticent n policy s → log = t.log) := by
  rw [perform_children_gather] at h
  cases hgather : (gather n).perform s with
  | mk result u =>
  cases result with
  | error fault => simp [hgather] at h
  | ok cs' =>
  cases hloop : (cs'.forM (adopt n policy)).perform u with
  | mk result t' =>
  cases result with
  | error fault =>
    simp only [hgather, hloop] at h
    cases h
  | ok _ =>
  simp only [hgather, hloop] at h
  cases h
  obtain ⟨names, hplain, rfl⟩ := gather_plain hgather
  -- a variable stands where the node does, so nobody is behind for the variables
  have hbegin : Behind n (s.early n) (s.addVariables n names)
      ((s.addVariables n names).fillAll n (s.early n)) := ⟨rfl, by rw [log_fillAll]⟩
  obtain ⟨q, hq, hend, hwords⟩ := hbegin.forM_adopt hloop
  have hcaught : q.fillAll n (s.early n) = q :=
    fillAll_eq_self fun c hc => forM_adopt_rests hq c (mem_of_early hgather hc)
  have hstore : t = q.withLog t.log := by
    have hstore := hend.store
    rwa [hcaught] at hstore
  refine ⟨q.log, ?_, hend.length.symm, fun hquiet => ?_⟩
  · have hq' : ({ t with log := q.log } : Store) = q := by
      rw [hstore]
      rfl
    rw [hq']
    exact perform_childrenPlain hplain hq
  · refine hwords (hquiet.imp_right fun h => h _ _ hplain) ?_
    rw [log_fillAll]

/-- A mixin in a rule. The name of one argument stands in a pair with its default and again by
itself, and is attached to the rule; the default is a keyword as well. -/
def includingSheet : Store where
  nodes := #[
    some { position := { line := .int 1 }, form := .statement (.list 0) (.rule .null) },
    some { position := { line := .int 3, file := .text "a.scss" }
           form := .statement (.list 2) (.mixin (.text "m") (.list 1) (.table 0) .null .null) },
    some { form := .expression (.literal (.text "a")), parent := .to (.node 0) },
    some { form := .expression (.literal (.int 7)) }]
  lists := #[[.node 1], [.tuple 0 [.node 2, .node 3], .node 2], []]
  tables := #[[(.text "k", .node 3)]]

/-- The mixin hands its line to the argument before it says that this has moved, and to the default
after that. It gets the same children, and says the same, if it does not. -/
theorem early_redundant_including :
    ∃ t, (Edit.children 1 .refresh).perform includingSheet = (.ok [2, 3, 2, 4, 3], t) ∧
      t.log = [.reparented "script_literal" "3" "rule" "mixin"] ∧
      (t.node 2).position = { line := .int 3, file := .text "a.scss" } ∧
      (childrenWith Early.nothing 1 .refresh).perform includingSheet =
        (.ok [2, 3, 2, 4, 3], t) := by
  have hplain : includingSheet.Plainspoken := by
    refine ⟨fun n => ?_, fun i w h => (nomatch h), fun n => ?_⟩
    · match n with
      | 0 | 1 | 2 | 3 | n + 4 => rfl
    · match n with
      | 0 | 1 | 2 | 3 | n + 4 => rfl
  obtain ⟨t, ht⟩ : ∃ t, (Edit.children 1 .refresh).perform includingSheet =
      (.ok [2, 3, 2, 4, 3], t) := ⟨_, rfl⟩
  have hlog : t.log = [.reparented "script_literal" "3" "rule" "mixin"] :=
    (congrArg (·.2.log) ht).symm
  have hposition : (t.node 2).position = { line := .int 3, file := .text "a.scss" } :=
    (congrArg (fun r => (r.2.node 2).position) ht).symm
  obtain ⟨log, hchildren, _, hsame⟩ := early_redundant ht
  obtain rfl := hsame (Or.inr (reticent_of_plainspoken hplain))
  exact ⟨t, ht, hlog, hposition, hchildren⟩

/-- A rule in a rule, whose line is an expression, and a property that has that expression as its
value and takes the inner rule for a child. -/
def telltaleSheet : Store where
  nodes := #[
    some { form := .expression .script },
    some { position := { line := .node 0 }, form := .statement (.list 1) (.rule .null)
           parent := .to (.node 2) },
    some { position := { line := .int 1 }, form := .statement (.list 0) (.rule .null) },
    some { position := { line := .int 5 }
           form := .statement (.list 0) (.prop (.list 1) (.node 0)) }]
  lists := #[[.node 1], []]

/-- To hand a location down early is not redundant where a message tells of it. -/
theorem early_not_redundant_telltale :
    ∃ t u, (Edit.children 3 .refresh).perform telltaleSheet = (.ok [1, 0], t) ∧
      (childrenWith Early.nothing 3 .refresh).perform telltaleSheet = (.ok [1, 0], u) ∧
      t.log =
        [.reparented "rule" "ScriptNode(line=5, column=None, filename=None)" "rule" "prop"] ∧
      u.log =
        [.reparented "rule" "ScriptNode(line=None, column=None, filename=None)" "rule" "prop"] ∧
      u.log ≠ t.log :=
  ⟨_, _, rfl, rfl, rfl, rfl, by decide⟩

end SheetLint
