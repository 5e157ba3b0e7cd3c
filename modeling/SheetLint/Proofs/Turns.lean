import SheetLint.Proofs.Findings

/-!
# The turns of linters

The linters of a document take their turns one after the other. Settings switch some of them off by
name, and these are passed over; each of the others runs and gives lints. `Document.Turns` says what
comes of that: the lints as they are emitted, whichever linter they are attributed to, and the store
in the end. Nothing is required of a linter but that it has a name and that its run comes to an end;
it may as well be a stand-in.

Whether a linter is switched off is a matter of the entries of the settings, and can always be told
(`perform_isEnabled`): runs do not touch settings (`Configured.runOne`).
-/

namespace SheetLint

/-- An emitted lint that says something definite: a linter with a name, a file and a description
that are texts, a location of whole numbers and a severity. Lints and locations are told apart by
marks. -/
structure Emission where
  mark : Nat
  place : Nat
  linter : AgentId
  name : String
  file : String
  line : Int
  column : Int
  length : Int
  description : String
  severity : Severity
  fixable : Bool
  deriving DecidableEq, Repr

namespace Emission

/-- An emission as a value. -/
def value (x : Emission) : Value :=
  .lint x.mark (.agent x.linter) (.text x.file)
    (.location x.place (.int x.line) (.int x.column) (.int x.length)) (.text x.description)
    (.severity x.severity) x.fixable

end Emission

namespace Store

variable {s t : Store} {i : AgentId} {k : TableId} {name : String}

/-- Whether settings with these entries leave a linter of this name switched on. -/
def switchedOn (s : Store) (settings : TableId) (name : String) : Bool :=
  Settings.enabledIn (.store s) (Settings.sectionOf (.store s) (s.table settings) (.text name))

/-- Settings that keep their entries in a table, and whose answers nothing hides, in a store in
which nothing was ever put in place of the attributes of something. -/
structure Configured (s : Store) (settings : AgentId) (entries : TableId) : Prop where
  unbacked : s.hasBacked = false
  agents : ∀ i a, s.agent? i = some a → a.backing = none
  settings : ∃ a policy, s.agent? settings = some a ∧ a.role = .settings (.table entries) policy ∧
    ∀ name ∈ ["is_linter_enabled", "linter_config"], a.notes.lookup name = none

namespace Configured

/-- Settings stay what they are when agents do. -/
theorem of_agents (h : s.Configured i k) (agents : t.agents = s.agents)
    (backed : t.hasBacked = s.hasBacked) : t.Configured i k := by
  have hagent : ∀ j, t.agent? j = s.agent? j := fun j => by rw [agent?, agents, agent?]
  refine ⟨backed.trans h.unbacked, fun j a ha => h.agents j a ((hagent j).symm.trans ha), ?_⟩
  rw [hagent]
  exact h.settings

/-- Settings are the same in what becomes of a store. -/
theorem follows (h : s.Configured i k) (hfollows : s.Follows t) : t.Configured i k where
  unbacked := hfollows.backed.trans h.unbacked
  agents j b hb := by
    -- nobody joins the agents, so whoever is there later was there before
    obtain ⟨hj, -⟩ := Array.getElem?_eq_some_iff.mp hb
    rw [hfollows.agents] at hj
    have ha : s.agent? j = some s.agents[j] := Array.getElem?_eq_getElem hj
    obtain ⟨c, hc, lints, file, parent, rfl⟩ := hfollows.agent j _ ha
    obtain rfl := Option.some.inj (hc.symm.trans hb)
    show s.agents[j].backing = none
    exact h.agents j _ ha
  settings := by
    obtain ⟨a, policy, ha, hrole, hnotes⟩ := h.settings
    obtain ⟨b, hb, lints, file, parent, rfl⟩ := hfollows.agent i a ha
    exact ⟨_, policy, hb, by rw [hrole]; rfl, hnotes⟩

/-- Settings have the methods that tell what is switched off. -/
theorem getAttribute (h : s.Configured i k)
    (hname : name ∈ ["is_linter_enabled", "linter_config"]) :
    s.getAttribute (.agent i) name = .ok Members.method := by
  obtain ⟨⟨role, notes, parent, backing⟩, policy, ha, rfl, hnotes⟩ := h.settings
  have hnone := hnotes name hname
  simp only [List.mem_cons, List.not_mem_nil, or_false] at hname
  rcases hname with rfl | rfl <;>
    simp only [Store.getAttribute, attributeAlong, agentAttribute, ha, Agent.own?, hnone] <;> rfl

/-- They show the table that they were made with. -/
theorem settingsTable (h : s.Configured i k)
    (hname : name ∈ ["is_linter_enabled", "linter_config"]) :
    s.settingsTable (.agent i) name = .ok (.table k) := by
  have hcheck : s.checkMethod (.agent i) name = .ok () := by
    unfold Store.checkMethod
    rw [h.getAttribute hname]
    rfl
  obtain ⟨⟨role, notes, parent, backing⟩, policy, ha, rfl, -⟩ := h.settings
  unfold Store.settingsTable
  simp only [hcheck, ha]

/-- Of every linter with a name it can be told whether it is switched on. -/
theorem perform_isEnabled (h : s.Configured i k) {linter : Value}
    (hname : s.getAttribute linter "name" = .ok (.text name)) :
    (Document.isEnabled (.agent i) linter).perform s = (.ok (s.switchedOn k name), s) := by
  have hsection : s.sectionOf (.agent i) (.text name) =
      .ok (Settings.sectionOf (.store s) (s.table k) (.text name)) := by
    rw [sectionOf, h.settingsTable (by simp)]
    simp only [keyFault?]
    split <;> simp_all
  simp only [Document.isEnabled, Edit.enabled, Edit.perform_bind, Edit.perform_tryRead,
    h.getAttribute (List.mem_cons_self ..), hname, h.settingsTable (List.mem_cons_self ..),
    hsection, Edit.perform_get, Edit.perform_pure]
  rfl

end Configured

end Store

namespace Linter

open Store

variable {s t : Store} {i j : AgentId} {k : TableId}

/-- Visits change no agent. -/
theorem progress_agents (i : AgentId) :
    Progress (fun s t => t.agents = s.agents ∧ t.hasBacked = s.hasBacked) (fun _ _ => True) i where
  later := ⟨fun _ => ⟨rfl, rfl⟩, fun h h' => ⟨h'.1.trans h.1, h'.2.trans h.2⟩⟩
  stable _ _ := trivial
  children {s n} policy _ := by
    refine Edit.children_keeps (fun t => t.agents = s.agents ∧ t.hasBacked = s.hasBacked)
      (fun _ => True) (fun t c h _ => ?_) (fun _ _ h => h) (fun _ _ h _ => h) (fun _ _ h => h)
      ⟨rfl, rfl⟩ (fun _ _ => trivial) policy
    rw [Store.fill]
    split <;> exact h
  child _ _ _ _ := trivial
  mark _ := ⟨rfl, rfl⟩
  list _ _ := ⟨rfl, rfl⟩
  table _ _ := ⟨rfl, rfl⟩
  note _ _ _ := ⟨rfl, rfl⟩
  append {s t v} happend := by
    obtain ⟨l, -, rfl⟩ := append_inv happend
    exact ⟨rfl, rfl⟩

/-- A run leaves settings as they are. -/
theorem run_configured (h : s.Configured j k) {a : Agent} {l : Linter} (ha : s.agent? i = some a)
    (hl : a.role = .linter l) (root file : Value) :
    ((run i root file).perform s).2.Configured j k := by
  obtain ⟨stays, hreset⟩ := perform_reset ha hl (h.agents i a ha) file
  have hstarted : (startedOver s i a l file stays).Configured j k :=
    h.follows (((Follows.refl s).restarted ha hl file).keepParents stays)
  -- starting over writes to the linter alone, and the visits to no agent at all
  have hvisit := (progress_agents i).moves_visitAny (fun _ _ => trivial)
    (depth (startedOver s i a l file stays)) root (startedOver s i a l file stays)
  rw [store_run hreset]
  exact hstarted.of_agents hvisit.1 hvisit.2

end Linter

namespace Document

open Store

variable {s : Store} {j : AgentId} {k : TableId}

/-- Whoever has a turn leaves settings as they are. -/
theorem runOne_configured (h : s.Configured j k) (linter root file : Value) :
    ((runOne linter root file).perform s).2.Configured j k :=
  runOne_keeps (fun ha hl h => Linter.run_configured h ha hl root file) linter s h

/-- The turns that linters take over a document in a file, under settings with these entries: what
is emitted, one lint after the other, and what becomes of the store. -/
inductive Turns (settings : TableId) (root file : Value) :
    List Value → Store → List Emission → Store → Prop where
  | done (s : Store) : Turns settings root file [] s [] s
  | off {linter : Value} {rest : List Value} {s u : Store} {name : String} {xs : List Emission} :
    s.getAttribute linter "name" = .ok (.text name) → s.switchedOn settings name = false →
    Turns settings root file rest (s.note (.skipped name)) xs u →
    Turns settings root file (linter :: rest) s xs u
  | on {linter : Value} {rest : List Value} {s t u : Store} {name : String}
      {xs ys : List Emission} :
    s.getAttribute linter "name" = .ok (.text name) → s.switchedOn settings name = true →
    (runOne linter root file).perform s = (.ok (xs.map Emission.value), t) →
    Turns settings root file rest t ys u →
    Turns settings root file (linter :: rest) s (xs ++ ys) u

/-- After all turns settings are what they were. -/
theorem Turns.configured {root file : Value} {linters : List Value} {xs : List Emission} {u : Store}
    (h : Turns k root file linters s xs u) (hs : s.Configured j k) : u.Configured j k := by
  induction h with
  | done _ => exact hs
  | off _ _ _ ih => exact ih (hs.of_agents rfl rfl)
  | @on linter _ s t _ _ _ _ _ _ hrun _ ih =>
    have ht := runOne_configured hs linter root file
    rw [hrun] at ht
    exact ih ht

end Document

end SheetLint
