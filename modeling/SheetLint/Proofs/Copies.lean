import SheetLint.Proofs.Choices
import SheetLint.Proofs.Reached

/-!
# What copies of settings protect

Settings keep a copy of the table they are made from and hand out copies of it and of its sections.
A copy is a table of its own that shares whatever is inside: single keys of a copy can be written
without harm, and so can everything else that the settings' own table does not lead to. An
assignment that spares what the table leads to leaves it leading to the same (`Kept.reached_iff`),
so the answers of settings stay as they are through any number of them (`settings_answers_kept`).

It is no more than that: what is assigned further down, in what a copy shares with the settings, is
seen by them (`settings_share_sections`).
-/

namespace SheetLint

/-- An edit that begins by reading has the same outcome where the same is read, and then too. -/
theorem Edit.outcome_tryRead_bind {α β : Type} {f : Store → Except Fault α} {g : α → Edit β}
    {s u : Store} (hf : f u = f s)
    (hg : ∀ a, f s = .ok a → ((g a).perform u).1 = ((g a).perform s).1) :
    ((tryRead f >>= g).perform u).1 = ((tryRead f >>= g).perform s).1 := by
  rw [perform_bind, perform_bind, perform_tryRead, perform_tryRead, hf]
  cases hs : f s with
  | error fault => rfl
  | ok a => exact hg a hs

namespace Store

variable {s u : Store} {t : TableId} {c : Cell} {v : Value}

theorem table_setTable (s : Store) {k m : TableId} (h : k ≠ m) (entries : Table) :
    (s.setTable k entries).table m = s.table m := by
  unfold table setTable
  rw [Array.getElem?_setIfInBounds, if_neg h]

/-- Everything that a table leads to is there. -/
def Complete (s : Store) (t : TableId) : Prop :=
  ∀ c, s.Reached [.table t] c → s.hasPlace c

/-- Nothing but lists and tables changes, and none that a table leads to. -/
structure Kept (t : TableId) (s u : Store) : Prop where
  rest : u = { s with lists := u.lists, tables := u.tables }
  lists : s.lists.size ≤ u.lists.size
  tables : s.tables.size ≤ u.tables.size
  list : ∀ l, s.Reached [.table t] (.list l) → u.list l = s.list l
  table : ∀ k, s.Reached [.table t] (.table k) → u.table k = s.table k

namespace Kept

theorem refl (t : TableId) (s : Store) : Kept t s s :=
  ⟨rfl, Nat.le_refl _, Nat.le_refl _, fun _ _ => rfl, fun _ _ => rfl⟩

theorem contents (h : Kept t s u) (hc : s.Reached [.table t] c) : u.contents c = s.contents c := by
  cases c with
  | list l => exact h.list l hc
  | table k => rw [Store.contents, Store.contents, h.table k hc]
  | node n => rw [h.rest]; rfl
  | agent i => rw [h.rest]; rfl
  | _ => rfl

/-- The table leads to what it led to. -/
theorem reached_iff (h : Kept t s u) : u.Reached [.table t] c ↔ s.Reached [.table t] c := by
  constructor
  · intro hc
    induction hc with
    | named hv hc => exact .named hv hc
    | held _ hv hc ih =>
      rw [h.contents ih] at hv
      exact .held ih hv hc
  · intro hc
    induction hc with
    | named hv hc => exact .named hv hc
    | held hk hv hc ih =>
      rw [← h.contents hk] at hv
      exact .held ih hv hc

theorem trans {w : Store} (h : Kept t s u) (h' : Kept t u w) : Kept t s w where
  rest := by
    rw [h'.rest, h.rest]
  lists := Nat.le_trans h.lists h'.lists
  tables := Nat.le_trans h.tables h'.tables
  list l hl := (h'.list l (h.reached_iff.mpr hl)).trans (h.list l hl)
  table k hk := (h'.table k (h.reached_iff.mpr hk)).trans (h.table k hk)

/-- A table that leads to nothing but what is there still does. -/
theorem complete (h : Kept t s u) (hs : s.Complete t) : u.Complete t := by
  intro c hc
  have hplace := hs c (h.reached_iff.mp hc)
  cases c with
  | list l => exact Nat.lt_of_lt_of_le hplace h.lists
  | table k => exact Nat.lt_of_lt_of_le hplace h.tables
  | node n => rw [h.rest]; exact hplace
  | agent i => rw [h.rest]; exact hplace
  | _ => trivial

theorem unbacked (h : Kept t s u) (hs : s.hasBacked = false) : u.hasBacked = false := by
  rw [h.rest]
  exact hs

/-- A new table is nothing that was there. -/
theorem addTable (hs : s.Complete t) (entries : Table) : Kept t s (s.addTable entries) where
  rest := rfl
  lists := Nat.le_refl _
  tables := by simp [Store.addTable]
  list l hl := rfl
  table k hk := by
    have hlt : k < s.tables.size := hs _ hk
    rw [table_addTable, if_neg (Nat.ne_of_lt hlt)]

/-- To assign an item changes what is assigned to and nothing else. -/
theorem assign (hb : s.hasBacked = false) {k new : Value} (hu : s.assign v k new = .ok u)
    (hv : ∀ c, v.cell? = some c → ¬ s.Reached [.table t] c) : Kept t s u := by
  unfold Store.assign at hu
  split at hu
  · simp at hu
  · split at hu
    · -- a table
      rename_i m _
      cases hput : s.putKey (s.table m) k new with
      | error fault => simp [hput, Except.map] at hu
      | ok entries =>
        simp only [hput, Except.map, Except.ok.injEq] at hu
        rw [writeTable_of_unbacked hb] at hu
        subst hu
        refine ⟨rfl, Nat.le_refl _, by simp [setTable], fun l hl => rfl, fun k hk => ?_⟩
        refine table_setTable s ?_ entries
        rintro rfl
        exact hv _ rfl hk
    · -- a list
      split at hu
      · cases hu
        refine ⟨rfl, by simp [setList], Nat.le_refl _, fun l hl => ?_, fun k hk => rfl⟩
        rw [list_setList, if_neg]
        rintro ⟨rfl, _⟩
        exact hv _ rfl hl
      · simp at hu
    · simp at hu
    · simp at hu

end Kept

/-! ## Answers -/

/-- Values that name nothing but what a table leads to. -/
def LeadsTo (s : Store) (t : TableId) (v : Value) : Prop :=
  ∀ c ∈ v.cells, s.Reached [.table t] c

theorem LeadsTo.self (s : Store) (t : TableId) : s.LeadsTo t (.table t) :=
  fun _ hc => .named (List.mem_cons_self ..) hc

/-- A table leads to what is in the tables that it leads to. -/
theorem LeadsTo.entry {k : TableId} (h : s.LeadsTo t (.table k)) :
    ∀ e ∈ s.table k, s.LeadsTo t e.2 := by
  intro e he c hc
  refine .held (h (.table k) (by simp [Value.cells])) ?_ hc
  exact List.mem_append_right _ (List.mem_map_of_mem he)

theorem leadsTo_passes (s : Store) (t : TableId) : (Reading.store s).Passes (s.LeadsTo t) := by
  intro v es hv hes
  cases v with
  | table k =>
    cases hes
    exact hv.entry
  | _ => simp [Reading.store, table?] at hes

/-- Settings that keep their entries in a table. -/
def IsSettings (s : Store) (i : AgentId) (t : TableId) : Prop :=
  ∃ a policy, s.agent? i = some a ∧ a.role = .settings (.table t) policy

/-- Attributes are not looked up in lists or tables. -/
theorem attributeAlong_cells (s : Store) (lists : Array (List Value)) (tables : Array Table) :
    ∀ chain, ({ s with lists, tables } : Store).attributeAlong chain = s.attributeAlong chain
  | 0 => rfl
  | chain + 1 => by
    have ih := attributeAlong_cells s lists tables chain
    funext v name
    cases v with
    | node n =>
      rw [attributeAlong, attributeAlong, ih]
      rfl
    | agent i =>
      rw [attributeAlong, attributeAlong, ih]
      rfl
    | _ => rfl

namespace Kept

variable (h : Kept t s u)
include h

theorem table? (hv : s.LeadsTo t v) : u.table? v = s.table? v := by
  cases v with
  | table k => rw [Store.table?, Store.table?, h.table k (hv _ (by simp [Value.cells]))]
  | _ => rfl

theorem truthy (hv : s.LeadsTo t v) : u.truthy v = s.truthy v := by
  cases v with
  | list l => rw [Store.truthy, Store.truthy, h.list l (hv _ (by simp [Value.cells]))]
  | table k => rw [Store.truthy, Store.truthy, h.table k (hv _ (by simp [Value.cells]))]
  | _ => rfl

/-- Sections are read as before, for they are in tables that the table leads to. -/
theorem agrees : Reading.Agrees (s.LeadsTo t) (Reading.store s) (Reading.store u) where
  same := rfl
  ofText := rfl
  table? _ hv := h.table? hv
  truthy _ hv := h.truthy hv

theorem getAttribute (v : Value) (name : String) :
    u.getAttribute v name = s.getAttribute v name := by
  rw [h.rest]
  exact congrFun (congrFun (attributeAlong_cells s u.lists u.tables _) v) name

theorem typeName (v : Value) : u.typeName v = s.typeName v := by
  rw [h.rest]
  cases v <;> rfl

theorem checkMethod (v : Value) (name : String) : u.checkMethod v name = s.checkMethod v name := by
  unfold Store.checkMethod
  simp only [h.getAttribute, h.typeName]

theorem methodFault (v : Value) (name : String) : u.methodFault v name = s.methodFault v name := by
  unfold Store.methodFault
  rw [h.getAttribute]
  cases s.getAttribute v name with
  | error fault => rfl
  | ok w => cases w <;> simp only [callFault, h.typeName]

theorem agent? (i : AgentId) : u.agent? i = s.agent? i := by
  rw [h.rest]
  rfl

theorem isSettings {i : AgentId} (hi : s.IsSettings i t) : u.IsSettings i t := by
  obtain ⟨a, policy, ha, hrole⟩ := hi
  exact ⟨a, policy, (h.agent? i).trans ha, hrole⟩

theorem settingsTable (v : Value) (method : String) :
    u.settingsTable v method = s.settingsTable v method := by
  unfold Store.settingsTable
  simp only [h.checkMethod, h.methodFault, h.agent?]

end Kept

variable {i : AgentId}

/-- Settings show the table that they were made with. -/
theorem IsSettings.settingsTable (hi : s.IsSettings i t) {method : String} {w : Value}
    (hw : s.settingsTable (.agent i) method = .ok w) : w = .table t := by
  obtain ⟨⟨role, notes, parent, backing⟩, policy, ha, rfl⟩ := hi
  unfold Store.settingsTable at hw
  cases hcheck : s.checkMethod (.agent i) method with
  | error fault => simp [hcheck] at hw
  | ok _ =>
    simp only [hcheck, ha, Except.ok.injEq] at hw
    exact hw.symm

/-- The table that settings show is a copy of their own. -/
theorem IsSettings.fresh_config (hi : s.IsSettings i t) :
    s.fresh? (.agent i) "config" = some (.ok (.table (s.table t))) := by
  obtain ⟨⟨role, notes, parent, backing⟩, policy, ha, rfl⟩ := hi
  simp [fresh?, ha, agentFresh?, copiedEntries, Except.map]

/-- The sections of settings are led to by their table. -/
theorem IsSettings.leadsTo (hi : s.IsSettings i t) {linter : Value} {own : Table}
    (hown : s.sectionOf (.agent i) linter = .ok own) : ∀ e ∈ own, s.LeadsTo t e.2 := by
  unfold Store.sectionOf at hown
  cases htable : s.settingsTable (.agent i) "linter_config" with
  | error fault => simp [htable] at hown
  | ok w =>
    obtain rfl := hi.settingsTable htable
    simp only [htable] at hown
    split at hown
    · simp at hown
    · cases hown
      exact (leadsTo_passes s t).sectionOf (LeadsTo.self s t).entry linter

namespace Kept

variable (h : Kept t s u)
include h

/-- The section of a linter is the same, since the settings lead to it. -/
theorem sectionOf (hi : s.IsSettings i t) (linter : Value) :
    u.sectionOf (.agent i) linter = s.sectionOf (.agent i) linter := by
  unfold Store.sectionOf
  rw [h.settingsTable]
  cases htable : s.settingsTable (.agent i) "linter_config" with
  | error fault => rfl
  | ok w =>
    obtain rfl := hi.settingsTable htable
    have hself := LeadsTo.self s t
    have hentries : u.table t = s.table t := h.table t (hself _ (by simp [Value.cells]))
    have hkey : u.keyFault? linter = s.keyFault? linter := by
      refine keyFault?_congr fun n _ => ?_
      rw [h.rest]
      rfl
    simp only [hentries, h.agrees.sections? hself.entry,
      h.agrees.sectionOf (leadsTo_passes s t) hself.entry, hkey]

theorem enabled (hi : s.IsSettings i t) (linter : Value) :
    ((Edit.enabled (.agent i) linter).perform u).1 =
      ((Edit.enabled (.agent i) linter).perform s).1 := by
  unfold Edit.enabled
  refine Edit.outcome_tryRead_bind (h.settingsTable _ _) fun _ _ => ?_
  refine Edit.outcome_tryRead_bind (h.sectionOf hi linter) fun own hown => ?_
  exact congrArg Except.ok (h.agrees.enabledIn (hi.leadsTo hown))

/-- So is its severity. A warning may be worded differently, but does not change the answer. -/
theorem severity (hb : s.hasBacked = false) (hi : s.IsSettings i t) (linter : Value)
    (fallback : Severity) :
    ((Edit.severity (.agent i) linter (.severity fallback)).perform u).1 =
      ((Edit.severity (.agent i) linter (.severity fallback)).perform s).1 := by
  have hub := h.unbacked hb
  unfold Edit.severity
  refine Edit.outcome_tryRead_bind (h.settingsTable _ _) fun _ _ => ?_
  refine Edit.outcome_tryRead_bind (h.sectionOf hi linter) fun own hown => ?_
  refine Edit.outcome_tryRead_bind (severityIn_congr hb hub own) fun choice _ => ?_
  cases choice with
  | unset => rfl
  | known v => rfl
  | unknown raw =>
    have hword : ∀ w : Store, w.getAttribute (.severity fallback) "value" =
        .ok (.text fallback.word) := fun _ => rfl
    simp only [Edit.perform_bind, Edit.perform_tryRead, hword, Edit.perform_read,
      Edit.perform_warn, Edit.perform_pure]

end Kept

/-- What settings answer is the same in two stores: their policy, their entries with all lists and
tables that these lead to, and the sections, the switches and the severities of all linters. -/
structure SameAnswers (i : AgentId) (t : TableId) (s u : Store) : Prop where
  policy : u.getAttribute (.agent i) "parent_policy" = s.getAttribute (.agent i) "parent_policy"
  config : u.fresh? (.agent i) "config" = s.fresh? (.agent i) "config"
  lists : ∀ l, s.Reached [.table t] (.list l) → u.list l = s.list l
  tables : ∀ k, s.Reached [.table t] (.table k) → u.table k = s.table k
  section_ : ∀ linter, u.sectionOf (.agent i) linter = s.sectionOf (.agent i) linter
  enabled : ∀ linter, ((Edit.enabled (.agent i) linter).perform u).1 =
    ((Edit.enabled (.agent i) linter).perform s).1
  severity : ∀ linter fallback,
    ((Edit.severity (.agent i) linter (.severity fallback)).perform u).1 =
      ((Edit.severity (.agent i) linter (.severity fallback)).perform s).1

/-- What settings answer is kept as long as no list or table is written that their table leads
to. -/
theorem Kept.sameAnswers (h : Kept t s u) (hb : s.hasBacked = false) (hi : s.IsSettings i t) :
    SameAnswers i t s u where
  policy := h.getAttribute _ _
  config := by
    have hself : u.table t = s.table t := h.table t (LeadsTo.self s t _ (by simp [Value.cells]))
    rw [hi.fresh_config, IsSettings.fresh_config (h.isSettings hi), hself]
  lists := h.list
  tables := h.table
  section_ := h.sectionOf hi
  enabled := h.enabled hi
  severity := h.severity hb hi

end Store

/-! ## Assignments -/

/-- What an item is assigned in: something at hand, or a copy that settings hand out. -/
inductive ItemTarget where
  | given (v : Value)
  | config
  | sectionOf (linter : Value)

/-- An assignment to the item at the end of a path of keys. -/
structure ItemWrite where
  target : ItemTarget
  path : List Value
  new : Value

namespace ItemTarget

/-- Whether settings make a copy of their own for this. -/
def isCopy : ItemTarget → Bool
  | .given _ => false
  | .config => true
  | .sectionOf _ => true

/-- What is written to, or into what is inside of it. -/
def fetch (settings : Value) : ItemTarget → Edit Value
  | .given v => return v
  | .config => Edit.attributeOf settings "config"
  | .sectionOf linter => Edit.sectionCopy settings linter

end ItemTarget

namespace ItemWrite

/-- The table or list that all keys of the path but the last lead to. -/
def holder (settings : Value) (w : ItemWrite) : Edit Value := do
  let v ← w.target.fetch settings
  Edit.tryRead (·.follow v w.path.dropLast)

/-- Assigns the item. -/
def run (settings : Value) (w : ItemWrite) : Edit Unit := do
  let v ← w.holder settings
  Edit.change (·.assignLast v w.path w.new)

/-- A row of assignments. One that fails changes no item, and the next one is made all the same. -/
def runAll (settings : Value) (ws : List ItemWrite) (s : Store) : Store :=
  ws.foldl (fun s w => ((w.run settings).perform s).2) s

/-- An assignment that settings do not notice: to a key of a copy itself, or in something that the
table of the settings does not lead to. -/
inductive Harmless (settings : Value) (t : TableId) (s : Store) (w : ItemWrite) : Prop where
  | copy (target : w.target.isCopy = true) (path : w.path.length = 1)
  | apart (spared : ∀ v u, (w.holder settings).perform s = (.ok v, u) →
      ∀ c, v.cell? = some c → ¬ s.Reached [.table t] c)

/-- A row of assignments, each harmless when its turn comes. -/
inductive AllHarmless (settings : Value) (t : TableId) : Store → List ItemWrite → Prop where
  | nil {s : Store} : AllHarmless settings t s []
  | cons {s : Store} {w : ItemWrite} {ws : List ItemWrite} (first : w.Harmless settings t s)
    (rest : AllHarmless settings t ((w.run settings).perform s).2 ws) :
    AllHarmless settings t s (w :: ws)

end ItemWrite

section

open Store

variable {s : Store} {t : TableId} {i : AgentId} {c : Cell}

/-- A copy is a new table, and to make it changes nothing else. -/
theorem ItemTarget.perform_fetch (hi : s.IsSettings i t) (target : ItemTarget) :
    (∃ fault, (target.fetch (.agent i)).perform s = (.error fault, s)) ∨
      (∃ v, target = .given v ∧ (target.fetch (.agent i)).perform s = (.ok v, s)) ∨
      ∃ entries, (target.fetch (.agent i)).perform s =
        (.ok (.table s.nextTable), s.addTable entries) := by
  cases target with
  | given v => exact .inr (.inl ⟨v, rfl, rfl⟩)
  | config =>
    refine .inr (.inr ⟨s.table t, ?_⟩)
    unfold fetch Edit.attributeOf
    rw [Edit.perform_bind_ok (Edit.perform_get s)]
    simp only [hi.fresh_config]
    rfl
  | sectionOf linter =>
    unfold fetch Edit.sectionCopy
    cases hown : s.sectionOf (.agent i) linter with
    | error fault =>
      refine .inl ⟨fault, ?_⟩
      simp only [Edit.perform_bind, Edit.perform_tryRead, hown]
    | ok own =>
      refine .inr (.inr ⟨own, ?_⟩)
      simp only [Edit.perform_bind, Edit.perform_tryRead, hown, Edit.perform_newTable,
        Edit.perform_pure]

namespace ItemWrite

variable {w : ItemWrite}

/-- To find what is to be written to changes nothing, apart from the copy that may be made. -/
theorem kept_holder (hs : s.Complete t) (hi : s.IsSettings i t) (w : ItemWrite) :
    Kept t s ((w.holder (.agent i)).perform s).2 := by
  unfold holder
  rw [Edit.perform_bind]
  rcases w.target.perform_fetch hi with ⟨fault, hf⟩ | ⟨v, _, hf⟩ | ⟨entries, hf⟩
  · rw [hf]
    exact .refl t s
  · rw [hf]
    simp only [Edit.perform_tryRead]
    exact .refl t s
  · rw [hf]
    simp only [Edit.perform_tryRead]
    exact .addTable hs entries

/-- What a harmless assignment writes to is nothing that the settings' table leads to. -/
theorem Harmless.spared (h : w.Harmless (.agent i) t s) (hs : s.Complete t)
    (hi : s.IsSettings i t) {v : Value} {u : Store}
    (hv : (w.holder (.agent i)).perform s = (.ok v, u)) :
    ∀ c, v.cell? = some c → ¬ s.Reached [.table t] c := by
  cases h with
  | apart spared => exact spared v u hv
  | copy htarget hpath =>
    have hnone : w.path.dropLast = [] := by
      rw [← List.length_eq_zero_iff, List.length_dropLast, hpath]
    unfold holder at hv
    rw [Edit.perform_bind, hnone] at hv
    rcases w.target.perform_fetch hi with ⟨fault, hf⟩ | ⟨v, hgiven, _⟩ | ⟨entries, hf⟩
    · simp [hf] at hv
    · simp [hgiven, ItemTarget.isCopy] at htarget
    · simp only [hf, Edit.perform_tryRead, follow, Prod.mk.injEq, Except.ok.injEq] at hv
      obtain ⟨rfl, -⟩ := hv
      -- the copy has no place yet, and all that is reached has one
      rintro c hc hreached
      cases hc
      exact absurd (hs _ hreached) (Nat.lt_irrefl _)

/-- A harmless assignment leaves what the settings' table leads to as it is. -/
theorem Harmless.kept (h : w.Harmless (.agent i) t s) (hb : s.hasBacked = false)
    (hs : s.Complete t) (hi : s.IsSettings i t) : Kept t s ((w.run (.agent i)).perform s).2 := by
  have hholder := kept_holder hs hi w
  unfold run
  rw [Edit.perform_bind]
  cases hv : (w.holder (.agent i)).perform s with
  | mk r u =>
    rw [hv] at hholder
    cases r with
    | error fault => exact hholder
    | ok v =>
      simp only [Edit.perform_change]
      cases hassign : u.assignLast v w.path w.new with
      | error fault => exact hholder
      | ok u' =>
        refine hholder.trans ?_
        unfold assignLast at hassign
        cases hkey : w.path.getLast? with
        | none => simp [hkey] at hassign
        | some k =>
          rw [hkey] at hassign
          refine .assign (hholder.unbacked hb) hassign fun c hc hreached => ?_
          exact h.spared hs hi hv c hc (hholder.reached_iff.mp hreached)

/-- Harmless assignments leave what the settings' table leads to as it is. -/
theorem AllHarmless.kept {ws : List ItemWrite} (h : AllHarmless (.agent i) t s ws)
    (hb : s.hasBacked = false) (hs : s.Complete t) (hi : s.IsSettings i t) :
    Kept t s (runAll (.agent i) ws s) := by
  induction h with
  | nil => exact .refl t _
  | cons first rest ih =>
    have hfirst := first.kept hb hs hi
    exact hfirst.trans (ih (hfirst.unbacked hb) (hfirst.complete hs) (hfirst.isSettings hi))

end ItemWrite

/-! ## Settings made of a table -/

/-- Where nothing was lost there is a policy, whatever a table says. -/
theorem choosePolicy_ok (hb : s.hasBacked = false) (es : Table) :
    ∃ policy ws, Settings.choosePolicy (Reading.store s) es = .ok (policy, ws) := by
  unfold Settings.choosePolicy
  cases (Reading.store s).lookupText es Settings.policyKey with
  | none => exact ⟨_, _, rfl⟩
  | some raw =>
    simp only [Reading.word?_of_unbacked hb]
    split
    · exact ⟨_, _, rfl⟩
    · exact ⟨_, _, rfl⟩

/-- Settings can be made of every table, and keep a copy of it. -/
theorem perform_newSettings (hb : s.hasBacked = false) (d : TableId) : ∃ policy ms,
    (Edit.newSettings (.table d)).perform s =
      (.ok s.nextAgent, { s with
        tables := s.tables.push (s.table d)
        agents := s.agents.push { role := .settings (.table s.nextTable) (.policy policy) }
        log := s.log ++ ms }) := by
  have hentries : s.settingsEntries (.table d) = .ok (s.table d) := by
    cases hd : s.table d <;> simp [settingsEntries, truthy, copiedEntries, hd]
  obtain ⟨policy, ws, hpolicy⟩ :=
    choosePolicy_ok (s := s.addTable (s.table d)) hb (s.table d)
  refine ⟨policy, ws.map (·.message (Reading.store (s.addTable (s.table d)))), ?_⟩
  simp only [Edit.newSettings, Edit.perform_bind, Edit.perform_tryRead, hentries,
    Edit.perform_newTable, hpolicy, Edit.perform_warn]
  rfl

/-- What has a place holds the same after tables, agents and messages were added. -/
theorem contents_pushed (s : Store) (entries : Table) (a : Agent) (log : List Message)
    (hc : s.hasPlace c) :
    contents { s with tables := s.tables.push entries, agents := s.agents.push a, log } c =
      s.contents c := by
  cases c with
  | table k =>
    have hk : (s.tables.push entries)[k]? = s.tables[k]? := by
      rw [Array.getElem?_push, if_neg (Nat.ne_of_lt hc)]
    simp only [contents, table, hk]
  | agent i =>
    have hi : (s.agents.push a)[i]? = s.agents[i]? := by
      rw [Array.getElem?_push, if_neg (Nat.ne_of_lt hc)]
    simp only [contents, agent?, hi]
  | _ => rfl

/-- All that a new copy leads to was there before, but for the copy itself. -/
theorem complete_newSettings (hs : s.Closed) (d : TableId) (a : Agent) (log : List Message) :
    Complete { s with tables := s.tables.push (s.table d), agents := s.agents.push a, log }
      s.nextTable := by
  have hcopy : table { s with
      tables := s.tables.push (s.table d), agents := s.agents.push a, log } s.nextTable =
      s.table d := by
    simp [table, nextTable]
  -- from the copy a way leads into what the copied table holds, all of which had a place
  have hold : ∀ c, Reached { s with
      tables := s.tables.push (s.table d), agents := s.agents.push a, log }
      [.table s.nextTable] c → c = .table s.nextTable ∨ s.hasPlace c := by
    intro c hc
    induction hc with
    | named hv hc =>
      rw [List.mem_singleton.mp hv] at hc
      exact .inl (List.mem_singleton.mp hc)
    | held _ hv hc ih =>
      rcases ih with rfl | hplace
      · rw [contents, hcopy] at hv
        exact .inr (hs (.table d) _ hv _ hc)
      · rw [contents_pushed s _ _ _ hplace] at hv
        exact .inr (hs _ _ hv _ hc)
  intro c hc
  rcases hold c hc with rfl | hplace
  · simp [hasPlace, nextTable]
  · cases c with
    | table k => exact Nat.lt_of_lt_of_le hplace (by simp)
    | agent i => exact Nat.lt_of_lt_of_le hplace (by simp)
    | _ => exact hplace

end

open Store in
/-- Settings made of a table answer the same after any assignments into that table, into copies that
they hand out, or into anything else, as long as each writes to a key of a copy itself or to
something that the table of the settings does not lead to. -/
theorem settings_answers_kept (s : Store) (hs : s.Closed) (hb : s.hasBacked = false) (d : TableId) :
    ∃ i u, (Edit.newSettings (.table d)).perform s = (.ok i, u) ∧ u.IsSettings i s.nextTable ∧
      ∀ ws, ItemWrite.AllHarmless (.agent i) s.nextTable u ws →
        SameAnswers i s.nextTable u (ItemWrite.runAll (.agent i) ws u) := by
  obtain ⟨policy, ms, hu⟩ := perform_newSettings hb d
  have hi : IsSettings ((Edit.newSettings (.table d)).perform s).2 s.nextAgent s.nextTable := by
    rw [hu]
    exact ⟨_, _, Array.getElem?_push_size, rfl⟩
  rw [hu] at hi
  refine ⟨_, _, hu, hi, fun ws hws => ?_⟩
  exact (hws.kept hb (complete_newSettings hs d _ _) hi).sameAnswers hb hi

/-- A table of settings with the section of one linter. -/
def oneSection : Store where
  tables := #[[(.text "linters", .table 1)], [(.text "A", .table 2)],
    [(.text "enabled", .bool true)]]

/-- The settings that are made of it. -/
def oneSectionSettings : Store := ((Edit.newSettings (.table 0)).perform oneSection).2

/-- Keys of both copies are written, and then a key of the table that the settings were made of. -/
theorem settings_answers_kept_section :
    oneSection.Closed ∧ oneSection.hasBacked = false ∧
      Store.SameAnswers 0 3 oneSectionSettings (ItemWrite.runAll (.agent 0)
        [⟨.config, [.text "linters"], .null⟩,
          ⟨.sectionOf (.text "A"), [.text "enabled"], .bool false⟩,
          ⟨.given (.table 0), [.text "linters"], .null⟩] oneSectionSettings) := by
  have hclosed : oneSection.Closed := by decide
  refine ⟨hclosed, rfl, ?_⟩
  obtain ⟨i, u, hu, -, hkept⟩ := settings_answers_kept oneSection hclosed rfl 0
  obtain ⟨hi, rfl⟩ : Except.ok i = .ok 0 ∧ u = oneSectionSettings :=
    Prod.mk.inj (hu.symm.trans rfl)
  obtain rfl := Except.ok.inj hi
  refine hkept _ (.cons (.copy rfl rfl) (.cons (.copy rfl rfl) (.cons (.apart ?_) .nil)))
  rintro v u hv c hc
  cases hv
  cases hc
  rw [← Store.mem_reach]
  decide

/-- What is inside of the table that settings were made of, or of a copy that they hand out, they
see changed. -/
theorem settings_share_sections :
    ((Edit.enabled (.agent 0) (.text "A")).perform oneSectionSettings).1 = .ok true ∧
      ∀ target ∈ [ItemTarget.given (.table 0), .config],
        ((Edit.enabled (.agent 0) (.text "A")).perform (ItemWrite.runAll (.agent 0)
          [⟨target, [.text "linters", .text "A", .text "enabled"], .bool false⟩]
          oneSectionSettings)).1 = .ok false := by
  refine ⟨rfl, fun target htarget => ?_⟩
  rcases List.mem_cons.mp htarget with rfl | htarget
  · rfl
  · obtain rfl := List.mem_singleton.mp htarget
    rfl

end SheetLint
