import SheetLint.Proofs.Sameness
import SheetLint.Proofs.Runs

/-!
# What can be read in a later store

Walks and runs change little that can be read by name: the location of a node and its reference to
a parent, and the lints and the file of a linter. `Store.Follows` says of a store that nothing else
became of what was there. Attributes of other names are then read as before, or can be read in
neither store (`toOption_getAttribute`), and with them what an agent is asked for while a linter
works.

Which fault keeps something from being read plays no part here, so readings are compared as options.
-/

namespace SheetLint

namespace Role

/-- A role with other lints and another file, if it is that of a linter. -/
def inRun (r : Role) (lints file : Value) : Role :=
  match r with
  | .linter l => .linter { l with lints, file }
  | r => r

theorem inRun_inRun (r : Role) (lints file lints' file' : Value) :
    (r.inRun lints file).inRun lints' file' = r.inRun lints' file' := by
  cases r <;> rfl

theorem exists_inRun (r : Role) : ∃ lints file, r = r.inRun lints file := by
  cases r with
  | linter l => exact ⟨l.lints, l.file, rfl⟩
  | _ => exact ⟨.null, .null, rfl⟩

end Role

namespace Agent

/-- Two agents differ at most in their lints, their file and their parent. -/
def Alike (a b : Agent) : Prop :=
  ∃ lints file parent, b = { a with role := a.role.inRun lints file, parent }

theorem Alike.refl (a : Agent) : a.Alike a := by
  obtain ⟨lints, file, h⟩ := a.role.exists_inRun
  refine ⟨lints, file, a.parent, ?_⟩
  rw [← h]

theorem Alike.trans {a b c : Agent} (h : a.Alike b) (h' : b.Alike c) : a.Alike c := by
  obtain ⟨lints, file, parent, rfl⟩ := h
  obtain ⟨lints', file', parent', rfl⟩ := h'
  refine ⟨lints', file', parent', ?_⟩
  rw [Role.inRun_inRun]

/-- What is read by names other than those of the lints and the file. -/
theorem Alike.own? {a b : Agent} (h : a.Alike b) {name : String}
    (hname : name ≠ "_lints" ∧ name ≠ "_filename") : b.own? name = a.own? name := by
  obtain ⟨lints, file, parent, rfl⟩ := h
  have hl : (name == "_lints") = false := by simpa using hname.1
  have hf : (name == "_filename") = false := by simpa using hname.2
  unfold Agent.own?
  cases a.role with
  | linter l =>
    simp only [Role.inRun, Role.parts, Role.shared, List.lookup_cons, List.lookup_nil, hl, hf]
  | _ => rfl

theorem Alike.member {a b : Agent} (h : a.Alike b) (name : String) :
    Members.agent? b.role name = Members.agent? a.role name := by
  obtain ⟨lints, file, parent, rfl⟩ := h
  cases a.role <;> rfl

end Agent

namespace Store

variable {s t u : Store} {v : Value} {name : String}

/-- What became of a store is a later one, in which the agents are what they were. -/
structure Follows (s t : Store) : Prop where
  extends_ : s.Extends t
  agents : t.agents.size = s.agents.size
  agent : ∀ i a, s.agent? i = some a → ∃ b, t.agent? i = some b ∧ a.Alike b
  backed : t.hasBacked = s.hasBacked

theorem Follows.refl (s : Store) : s.Follows s :=
  ⟨.refl s, rfl, fun _ a ha => ⟨a, ha, .refl a⟩, rfl⟩

/-- What extends a store, with the agents of one that follows it, follows it too. -/
theorem Follows.of_agents (h : s.Follows t) (hu : s.Extends u) (agents : u.agents = t.agents)
    (backed : u.hasBacked = t.hasBacked) : s.Follows u where
  extends_ := hu
  agents := by rw [agents, h.agents]
  agent i a ha := by
    unfold agent?
    rw [agents]
    exact h.agent i a ha
  backed := by rw [backed, h.backed]

/-- What is let go is no more than what referred to a parent. -/
theorem Follows.keepParents (h : s.Follows t) (stays : Cell → Bool) :
    s.Follows (t.keepParents stays) := by
  refine ⟨h.extends_.keepParents stays, ?_, fun i a ha => ?_, h.backed⟩
  · rw [← h.agents]
    simp [Store.keepParents]
  · obtain ⟨b, hb, hab⟩ := h.agent i a ha
    refine ⟨{ b with parent := b.parent.map (keepParent stays) }, ?_, hab.trans ?_⟩
    · unfold agent? at hb ⊢
      simp [Store.keepParents, hb]
    · obtain ⟨lints, file, hrole⟩ := b.role.exists_inRun
      refine ⟨lints, file, b.parent.map (keepParent stays), ?_⟩
      rw [← hrole]

/-- A linter that starts over is the linter that it was. -/
theorem Follows.restarted (h : s.Follows t) {i : AgentId} {a : Agent} {l : Linter}
    (ha : t.agent? i = some a) (hl : a.role = .linter l) (file : Value) :
    s.Follows ((t.addList []).setAgent i (restarted a l t.lists.size file)) := by
  refine ⟨(h.extends_.addList []).setAgent i _, ?_, fun j b hb => ?_, h.backed⟩
  · rw [← h.agents]
    simp [setAgent, Store.addList]
  · obtain ⟨c, hc, hbc⟩ := h.agent j b hb
    by_cases hij : j = i
    · subst hij
      obtain rfl : a = c := Option.some.inj (ha.symm.trans hc)
      refine ⟨_, Linter.agent?_setAgent (s := t.addList []) ha, hbc.trans ?_⟩
      refine ⟨.list t.lists.size, file, a.parent, ?_⟩
      rw [Store.restarted, hl]
      rfl
    · refine ⟨c, ?_, hbc⟩
      unfold agent? at hc ⊢
      rw [setAgent, Array.getElem?_setIfInBounds, if_neg fun h => hij h.symm]
      exact hc

/-! ## Nodes -/

/-- The names under which a node shows its location. -/
def positionNames : List String := ["line", "column", "filename"]

/-- The names under which a node shows its parent, or who has it as one. -/
def parentNames : List String := ["parent", "_parent_ref", "__weakref__"]

theorem lookup_fields (x : Node) (h : name ∉ positionNames) :
    x.fields.lookup name = (x.nodeClass.fieldNames.zip x.form.fields).lookup name := by
  simp only [positionNames, List.mem_cons, List.not_mem_nil, or_false, not_or] at h
  have hl : (name == "line") = false := by simpa using h.1
  have hc : (name == "column") = false := by simpa using h.2.1
  have hf : (name == "filename") = false := by simpa using h.2.2
  simp only [Node.fields, List.cons_append, List.nil_append, List.lookup_cons, hl, hc, hf]

theorem toOption_orMissing (s : Store) (v : Value) (name : String) (found : Option Value) :
    (s.orMissing v name found).toOption = found.filter (!·.isMissing) := by
  cases found with
  | none => rfl
  | some w => cases w <;> rfl

theorem toOption_underscored {ask ask' : Value → String → Except Fault Value} (v : Value) :
    (t.underscored ask' v).toOption = (s.underscored ask v).toOption := by
  cases v <;> rfl

/-- Nodes of the same form with the same notes show the same, parents apart. -/
theorem nodeAttribute_congr {ask ask' : Value → String → Except Fault Value} {n m : NodeId}
    (hform : (t.node m).form = (s.node n).form) (hnotes : (t.node m).notes = (s.node n).notes)
    (hfields : (t.node m).fields.lookup name = (s.node n).fields.lookup name)
    (hname : name ∉ parentNames) :
    (t.nodeAttribute ask' m name).toOption = (s.nodeAttribute ask n name).toOption := by
  have hclass : (t.node m).nodeClass = (s.node n).nodeClass := congrArg Form.nodeClass hform
  have hkind : (t.node m).kind = (s.node n).kind := by
    unfold Node.kind
    rw [hnotes, hclass]
  have hmark : (t.node m).expressionMark = (s.node n).expressionMark := by
    unfold Node.expressionMark
    rw [hnotes, hform]
  simp only [parentNames, List.mem_cons, List.not_mem_nil, or_false, not_or] at hname
  unfold nodeAttribute
  simp only [hform, hfields, hnotes, hclass, hkind, hmark]
  split
  · exact absurd rfl hname.1
  · exact toOption_underscored _
  · rfl
  · rfl
  · exact absurd rfl hname.2.1
  · exact absurd rfl hname.2.2
  · rfl
  · rw [toOption_orMissing, toOption_orMissing]

/-! ## Anything that is held -/

theorem Holds.exists_agent {i : AgentId} (h : s.Holds (.agent i)) : ∃ a, s.agent? i = some a :=
  ⟨_, Array.getElem?_eq_getElem (h (.agent i) (by simp [Value.cells]))⟩

/-- The names under which something may be read that walks and runs change. -/
def changingNames : List String := positionNames ++ parentNames ++ ["_lints", "_filename"]

/-- What an agent has under a name that is not computed. -/
theorem toOption_agentAttribute {ask : Value → String → Except Fault Value} {i : AgentId}
    {a : Agent} (ha : s.agent? i = some a) (hpolicy : name ≠ "parent_policy")
    (hreference : name ≠ "_parent_ref") (hweak : name ≠ "__weakref__") :
    (s.agentAttribute ask i name).toOption =
      if name = "__class__" then some (.foreign "type")
      else (a.own? name <|> Members.agent? a.role name).filter (!·.isMissing) := by
  unfold agentAttribute
  rw [ha]
  simp only
  split
  · exact absurd rfl hpolicy
  · exact absurd rfl hpolicy
  · exact absurd rfl hweak
  · rfl
  · exact absurd rfl hreference
  · rename_i hclass _ _ _
    rw [if_neg hclass, toOption_orMissing]

/-- Agents that are alike have the same attributes, under all names that no run changes. -/
theorem agentAttribute_congr {ask ask' : Value → String → Except Fault Value} {i : AgentId}
    {a b : Agent} (ha : s.agent? i = some a) (hb : t.agent? i = some b) (hab : a.Alike b)
    (hask : ∀ l, a.role = .linter l →
      (ask' l.settings name).toOption = (ask l.settings name).toOption)
    (hname : name ∉ changingNames) :
    (t.agentAttribute ask' i name).toOption = (s.agentAttribute ask i name).toOption := by
  simp only [changingNames, positionNames, parentNames, List.mem_append, List.mem_cons,
    List.not_mem_nil, or_false, not_or] at hname
  obtain ⟨⟨_, _, hreference, hweak⟩, hlints, hfile⟩ := hname
  by_cases hpolicy : name = "parent_policy"
  · subst hpolicy
    obtain ⟨lints, file, parent, rfl⟩ := hab
    obtain ⟨role, notes, _, _⟩ := a
    cases role with
    | linter l =>
      have hl := hask l rfl
      cases hnull : l.settings.isNull <;> simp [agentAttribute, ha, hb, Role.inRun, hnull, hl]
    | _ => simp [agentAttribute, ha, hb, Role.inRun, toOption_orMissing, Agent.own?]
  · rw [toOption_agentAttribute ha hpolicy hreference hweak,
      toOption_agentAttribute hb hpolicy hreference hweak, hab.own? ⟨hlints, hfile⟩,
      hab.member name]

/-- What is held has the same attributes in every store that follows, as far as these are no
matter of walks and runs. -/
theorem toOption_attributeAlong (hs : s.Closed) (h : s.Follows t) (hname : name ∉ changingNames) :
    ∀ (chain : Nat) {v : Value}, s.Holds v →
      (t.attributeAlong chain v name).toOption = (s.attributeAlong chain v name).toOption
  | 0, _, _ => rfl
  | chain + 1, v, hv => by
    have hparents : name ∉ parentNames := by
      simp only [changingNames, List.mem_append, not_or] at hname
      exact hname.1.2
    have hweak : (name == "__weakref__") = false := by
      simp only [parentNames, List.mem_cons, List.not_mem_nil, or_false, not_or] at hparents
      simpa using hparents.2.2
    cases v with
    | node n =>
      have hn : n < s.nodes.size := hv (.node n) (by simp [Value.cells])
      have hposition : name ∉ positionNames := by
        simp only [changingNames, List.mem_append, not_or] at hname
        exact hname.1.1
      refine nodeAttribute_congr (h.extends_.form n hn) (h.extends_.notes n hn) ?_ hparents
      rw [lookup_fields _ hposition, lookup_fields _ hposition, Node.nodeClass, Node.nodeClass,
        h.extends_.form n hn]
    | agent i =>
      obtain ⟨a, ha⟩ := hv.exists_agent
      obtain ⟨b, hb, hab⟩ := h.agent i _ ha
      refine agentAttribute_congr ha hb hab (fun l hl => ?_) hname
      refine toOption_attributeAlong hs h hname chain ?_
      refine hs (.agent i) l.settings ?_
      rw [contents, ha]
      simp [Agent.held, hl, Role.parts]
    | location m l c n =>
      simp only [attributeAlong, toOption_orMissing, List.lookup_cons, List.lookup_nil, hweak]
    | lint m source file loc description severity fixable =>
      simp only [attributeAlong, toOption_orMissing, List.lookup_cons, List.lookup_nil, hweak]
    | missing owner lost => rfl
    | _ => simp only [attributeAlong, toOption_orMissing]

theorem toOption_getAttribute (hs : s.Closed) (h : s.Follows t) (hv : s.Holds v)
    (hname : name ∉ changingNames) :
    (t.getAttribute v name).toOption = (s.getAttribute v name).toOption := by
  unfold getAttribute
  rw [h.agents]
  exact toOption_attributeAlong hs h hname _ hv

end Store

end SheetLint
