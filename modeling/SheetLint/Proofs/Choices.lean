import SheetLint.Proofs.Attributes
import SheetLint.Proofs.Sections

/-!
# What settings say in a later store

A linter is enabled or not, and its lints are as serious, in every store that follows as in the one
before: settings are tables, which walks and runs leave alone. The one thing in a table that may
look different later is how a node is printed, and whatever is printed with parts is neither of the
two words for a severity (`ofWord?_bare`).
-/

namespace SheetLint

namespace Text

/-- Characters that are no letters. One of them is in the printed form of whatever has parts. -/
def marks : List Char := ['[', '(', '\x7b', '<', '.']

theorem lowerBetween_mark {c : Char} (hc : c ∈ marks) (before after : List Char) :
    lowerBetween before c after = [c] := by
  simp only [marks, List.mem_cons, List.not_mem_nil, or_false] at hc
  rcases hc with rfl | rfl | rfl | rfl | rfl <;> rfl

/-- A mark in a text is left in it in lower case. -/
theorem mem_lowerAfter {c : Char} (hc : c ∈ marks) : ∀ {cs : List Char} (before : List Char),
    c ∈ cs → c ∈ lowerAfter before cs
  | [], _, h => absurd h (by simp)
  | x :: cs, before, h => by
    rw [lowerAfter]
    rcases List.mem_cons.mp h with rfl | h
    · rw [lowerBetween_mark hc]
      exact List.mem_cons_self ..
    · exact List.mem_append_right _ (mem_lowerAfter hc _ h)

end Text

/-- A text with a mark in it is no word for a severity. -/
theorem Severity.ofWord?_of_mark {c : Char} {text : String} (hc : c ∈ Text.marks)
    (h : c ∈ text.toList) : ofWord? (Text.lower text) = none := by
  have hlower : c ∈ (Text.lower text).toList := by
    rw [Text.lower, String.toList_ofList]
    exact Text.mem_lowerAfter hc [] h
  have hwords : ∀ v : Severity, ∀ x ∈ Text.marks, x ∉ v.word.toList := by
    intro v x hx
    simp only [Text.marks, List.mem_cons, List.not_mem_nil, or_false] at hx
    cases v <;> rcases hx with rfl | rfl | rfl | rfl | rfl <;> decide
  refine List.find?_eq_none.mpr fun v _ hword => ?_
  rw [← eq_of_beq hword] at hlower
  exact hwords v c hc hlower

namespace Store

variable {s t : Store}

/-- Whatever is known by a place or a mark of its own, and is no number, is printed with a mark. -/
theorem mark_mem_bare (s : Store) {v : Value} (hv : v.cell?.isSome) (hnumber : v.number? = none) :
    ∃ c ∈ Text.marks, c ∈ (s.bare v).toList := by
  cases v with
  | list l =>
    exact ⟨'[', by decide, by
      simp [bare, quoted, picture, pictureTo, Value.cell?, Data.quoted]⟩
  | tuple m xs =>
    exact ⟨'(', by decide, by
      simp [bare, quoted, picture, pictureTo, Value.cell?, Data.quoted]⟩
  | table k =>
    exact ⟨'\x7b', by decide, by
      simp [bare, quoted, picture, pictureTo, Value.cell?, Data.quoted]⟩
  | node n =>
    exact ⟨'(', by decide, by
      simp [bare, quoted, picture, pictureTo, Value.cell?, Data.quoted]⟩
  | location m l c n =>
    exact ⟨'(', by decide, by
      simp [bare, quoted, picture, pictureTo, Value.cell?, Data.quoted]⟩
  | lint m source file loc description severity fixable =>
    exact ⟨'(', by decide, by
      simp [bare, quoted, picture, pictureTo, Value.cell?, Data.quoted]⟩
  | agent i =>
    cases ha : s.agent? i with
    | none =>
      exact ⟨'.', by decide, by simp [bare, quoted, picture, pictureTo, ha, Data.quoted]⟩
    | some a =>
      cases hr : a.role with
      | settings table policy =>
        exact ⟨'<', by decide, by
          simp [bare, quoted, picture, pictureTo, ha, hr, Data.quoted, Role.printed]⟩
      | _ =>
        exact ⟨'(', by decide, by
          simp [bare, quoted, picture, pictureTo, ha, hr, Data.quoted, Role.printed]⟩
  | float x m => simp [Value.number?] at hnumber
  | _ => simp [Value.cell?] at hv

/-- A value names the same severity in any two stores where nothing was lost, or none in both. -/
theorem ofWord?_bare (hs : s.hasBacked = false) (ht : t.hasBacked = false) (v : Value) :
    (if (t.printFault? v).isNone then some (Text.lower (t.bare v)) else none).bind
        Severity.ofWord? =
      (if (s.printFault? v).isNone then some (Text.lower (s.bare v)) else none).bind
        Severity.ofWord? := by
  by_cases hcell : v.cell?.isSome = true ∧ v.number? = none
  · have hnone : ∀ u : Store, (if (u.printFault? v).isNone then some (Text.lower (u.bare v))
        else none).bind Severity.ofWord? = none := by
      intro u
      obtain ⟨c, hc, hmem⟩ := mark_mem_bare u hcell.1 hcell.2
      split
      · exact Severity.ofWord?_of_mark hc hmem
      · rfl
    rw [hnone t, hnone s]
  · have hbare : t.bare v = s.bare v := by
      cases v <;> first | exact absurd ⟨rfl, rfl⟩ hcell | rfl
    have hprint : t.printFault? v = s.printFault? v := by
      cases v <;> first
        | exact absurd ⟨rfl, rfl⟩ hcell
        | simp [printFault?, printFaultTo, hasMissing, hs, ht]
    rw [hbare, hprint]

/-- A section names the same severity, where nothing was lost. -/
theorem severityIn_congr (hs : s.hasBacked = false) (ht : t.hasBacked = false) (own : Table) :
    Settings.severityIn (Reading.store t) own = Settings.severityIn (Reading.store s) own := by
  have hlookup : (Reading.store t).lookupText own "severity" =
      (Reading.store s).lookupText own "severity" := rfl
  unfold Settings.severityIn
  rw [hlookup]
  cases (Reading.store s).lookupText own "severity" with
  | none => rfl
  | some raw =>
    simp only [Reading.word?_of_unbacked hs, Reading.word?_of_unbacked ht, ofWord?_bare hs ht]
    rfl

/-! ## Sections -/

mutual

/-- Whether something can be a key depends on the forms of the nodes in it and nothing else. -/
theorem keyFault?_congr : ∀ {v : Value},
    (∀ n, .node n ∈ v.cells → (t.node n).form = (s.node n).form) → t.keyFault? v = s.keyFault? v
  | .tuple m xs, h => by
    rw [keyFault?, keyFault?]
    exact keyFaultAmong?_congr h
  | .location m l c n, h => by
    rw [keyFault?, keyFault?, keyFault?_congr fun i hi => h i (by simp [Value.cells, hi]),
      keyFault?_congr fun i hi => h i (by simp [Value.cells, hi]),
      keyFault?_congr fun i hi => h i (by simp [Value.cells, hi])]
  | .lint m source file loc description severity fixable, h => by
    rw [keyFault?, keyFault?, keyFault?_congr fun i hi => h i (by simp [Value.cells, hi]),
      keyFault?_congr fun i hi => h i (by simp [Value.cells, hi]),
      keyFault?_congr fun i hi => h i (by simp [Value.cells, hi]),
      keyFault?_congr fun i hi => h i (by simp [Value.cells, hi]),
      keyFault?_congr fun i hi => h i (by simp [Value.cells, hi])]
  | .node n, h => by
    rw [keyFault?, keyFault?, Node.nodeClass, h n (by simp [Value.cells])]
    rfl
  | .null, _ | .bool _, _ | .int _, _ | .float .., _ | .text _, _ | .list _, _ | .table _, _
  | .agent _, _ | .severity _, _ | .policy _, _ | .foreign _, _ | .missing .., _ => rfl

theorem keyFaultAmong?_congr : ∀ {xs : List Value},
    (∀ n, .node n ∈ Value.cellsAll xs → (t.node n).form = (s.node n).form) →
      t.keyFaultAmong? xs = s.keyFaultAmong? xs
  | [], _ => rfl
  | x :: xs, h => by
    rw [keyFaultAmong?, keyFaultAmong?,
      keyFault?_congr fun i hi => h i (by simp [Value.cellsAll, hi]),
      keyFaultAmong?_congr fun i hi => h i (by simp [Value.cellsAll, hi])]

end

/-- What can be a key can be one for good. -/
theorem keyFault?_extends (h : s.Extends t) {v : Value} (hv : s.Holds v) :
    t.keyFault? v = s.keyFault? v :=
  keyFault?_congr fun n hn => h.form n (hv _ hn)

theorem table?_extends (h : s.Extends t) {v : Value} (hv : s.Holds v) :
    t.table? v = s.table? v := by
  cases v with
  | table k => rw [table?, table?, h.table k (hv (.table k) (by simp [Value.cells]))]
  | _ => rfl

/-- What is held passes from a table to what is in it. -/
theorem Closed.passes (hs : s.Closed) : (Reading.store s).Passes s.Holds := by
  intro v es _ hes
  cases v with
  | table k =>
    cases hes
    exact hs.entry k
  | _ => simp [Reading.store, table?] at hes

theorem Extends.agrees (h : s.Extends t) :
    Reading.Agrees s.Holds (Reading.store s) (Reading.store t) where
  same := rfl
  ofText := rfl
  table? _ hv := table?_extends h hv
  truthy _ hv := truthy_extends h hv

/-! ## Settings that are agents -/

variable {v : Value} {name : String}

theorem Holds.agent (hs : s.Closed) {i : AgentId} {a : Agent} (ha : s.agent? i = some a) :
    ∀ w ∈ a.held, s.Holds w := by
  intro w hw
  refine hs (.agent i) w ?_
  rw [contents, ha]
  exact hw

/-- A method can be called in a store that follows if it could be. -/
theorem toOption_checkMethod (hs : s.Closed) (h : s.Follows t) (hv : s.Holds v)
    (hname : name ∉ changingNames) :
    (t.checkMethod v name).toOption = (s.checkMethod v name).toOption := by
  have hget := toOption_getAttribute hs h hv hname
  unfold checkMethod
  rcases fail_or_agree hget with ⟨_, _, ht, hs'⟩ | ⟨w, ht, hs'⟩
  · rw [ht, hs']
    rfl
  · rw [ht, hs']
    cases w <;> rfl

/-- The table that settings show is the same in a store that follows, or there is none in both. -/
theorem toOption_settingsTable (hs : s.Closed) (h : s.Follows t) (hv : s.Holds v)
    (hname : name ∉ changingNames) :
    (t.settingsTable v name).toOption = (s.settingsTable v name).toOption := by
  have hcheck := toOption_checkMethod hs h hv hname
  unfold settingsTable
  rcases fail_or_agree hcheck with ⟨_, _, ht, hs'⟩ | ⟨u, ht, hs'⟩
  · rw [ht, hs']
    cases v <;> rfl
  · rw [ht, hs']
    cases v with
    | agent i =>
      obtain ⟨⟨role, notes, _, _⟩, ha⟩ := hv.exists_agent
      obtain ⟨b, hb, lints, file, parent, rfl⟩ := h.agent i _ ha
      cases role <;> simp [ha, hb, Role.inRun, Except.toOption]
    | _ => rfl

/-- The table that settings show is there. -/
theorem settingsTable_held (hs : s.Closed) {w : Value} (h : s.settingsTable v name = .ok w) :
    s.Holds w := by
  unfold settingsTable at h
  split at h
  · simp at h
  · split at h
    · rename_i table _ _ _ _ ha
      cases h
      exact Holds.agent hs ha _ (by simp [Agent.held, Role.parts])
    · simp at h
  · simp at h

/-- So is the section of a linter. -/
theorem toOption_sectionOf (hs : s.Closed) (h : s.Follows t) (hv : s.Holds v) {linter : Value}
    (hlinter : s.Holds linter) :
    (t.sectionOf v linter).toOption = (s.sectionOf v linter).toOption := by
  have htable := toOption_settingsTable hs h hv (by decide : "linter_config" ∉ changingNames)
  unfold sectionOf
  rcases fail_or_agree htable with ⟨_, _, ht, hs'⟩ | ⟨w, ht, hs'⟩
  · rw [ht, hs']
    rfl
  · rw [ht, hs']
    have hheld := settingsTable_held hs hs'
    cases w with
    | table k =>
      have hk := h.extends_.table k (hheld (.table k) (by simp [Value.cells]))
      simp only [hk, h.extends_.agrees.sections? (hs.entry k),
        h.extends_.agrees.sectionOf hs.passes (hs.entry k), keyFault?_extends h.extends_ hlinter]
    | _ => simp only [Except.toOption]

/-- So is all that the section of a linter has. -/
theorem sectionOf_held (hs : s.Closed) {linter : Value} {own : Table}
    (h : s.sectionOf v linter = .ok own) : ∀ e ∈ own, s.Holds e.2 := by
  unfold sectionOf at h
  split at h
  · simp at h
  · simp only at h
    split at h
    · simp at h
    · cases h
      exact hs.passes.sectionOf (hs.entry _) linter
  · simp at h

end Store

/-! ## Edits that only ask and log -/

namespace Edit

open Store

variable {α β : Type} {s t : Store}

/-- An edit gives the same result in two stores, or none in both. -/
def SameResult (e : Edit α) (s t : Store) : Prop :=
  (e.perform t).1.toOption = (e.perform s).1.toOption

theorem sameResult_tryRead {f : Store → Except Fault α}
    (h : (f t).toOption = (f s).toOption) : SameResult (tryRead f) s t := by
  unfold SameResult
  rw [perform_tryRead, perform_tryRead]
  exact h

/-- Sequences have the same result if their first parts do, and what follows does on this result. -/
theorem sameResult_bind {x : Edit α} {f : α → Edit β} (hx : SameResult x s t)
    (hf : ∀ a s' t', x.perform s = (.ok a, s') → x.perform t = (.ok a, t') →
      ((f a).perform t').1.toOption = ((f a).perform s').1.toOption) :
    SameResult (x >>= f) s t := by
  unfold SameResult at hx ⊢
  rw [perform_bind, perform_bind]
  cases hs : x.perform s with
  | mk r s' =>
    cases ht : x.perform t with
    | mk r' t' =>
      rw [hs, ht] at hx
      rcases fail_or_agree hx with ⟨_, _, rfl, rfl⟩ | ⟨a, rfl, rfl⟩
      · rfl
      · exact hf a s' t' hs ht

theorem sameResult_tryRead_bind {f : Store → Except Fault α} {g : α → Edit β}
    (hf : (f t).toOption = (f s).toOption) (hg : ∀ a, f s = .ok a → SameResult (g a) s t) :
    SameResult (tryRead f >>= g) s t := by
  refine sameResult_bind (sameResult_tryRead hf) fun a s' t' hs ht => ?_
  rw [perform_tryRead] at hs ht
  obtain ⟨ha, rfl⟩ := Prod.mk.inj hs
  obtain ⟨_, rfl⟩ := Prod.mk.inj ht
  exact hg a ha

/-- Logging always goes through. -/
theorem perform_logAll : ∀ (ms : List Message) (s : Store),
    (logAll ms).perform s = (.ok (), { s with log := s.log ++ ms })
  | [], s => by
    rw [List.append_nil]
    rfl
  | m :: ms, s => by
    have hrest := perform_logAll ms (s.note m)
    rw [logAll] at hrest ⊢
    rw [forM_cons, perform_bind_ok (perform_log m s), hrest]
    simp only [note, List.append_assoc, List.cons_append, List.nil_append]

/-- Warnings about settings can always be logged. -/
theorem perform_warn (ws : List (Settings.Warning Value)) (s : Store) : (warn ws).perform s =
    (.ok (), { s with log := s.log ++ ws.map (·.message (Reading.store s)) }) := by
  rw [warn, perform_bind_ok (perform_read _ s), perform_logAll]

/-- The severity under settings is the same in a store that follows. -/
theorem severity_sameResult (hs : s.Closed) (hb : s.hasBacked = false) (h : s.Follows t)
    {settings linter fallback : Value} (hsettings : s.Holds settings) (hlinter : s.Holds linter)
    (hfallback : s.Holds fallback) : SameResult (Edit.severity settings linter fallback) s t := by
  have htb : t.hasBacked = false := by rw [h.backed, hb]
  unfold Edit.severity
  refine sameResult_tryRead_bind
    (toOption_settingsTable hs h hsettings (by decide : "linter_severity" ∉ changingNames))
    fun _ _ => ?_
  refine sameResult_tryRead_bind (toOption_sectionOf hs h hsettings hlinter) fun own _ => ?_
  refine sameResult_tryRead_bind (congrArg _ (severityIn_congr hb htb own)) fun choice _ => ?_
  cases choice with
  | unset => rfl
  | known v => rfl
  | unknown raw =>
    refine sameResult_tryRead_bind
      (toOption_getAttribute hs h hfallback (by decide : "value" ∉ changingNames)) fun word _ => ?_
    -- the warning may be worded differently, but it stops nothing
    unfold SameResult
    simp only [perform_bind, perform_read, perform_warn, perform_pure]

end Edit

namespace Linter

open Edit Store

variable {s t : Store} {i : AgentId}

theorem toOption_settingsOf (h : s.Follows t) (hi : s.Holds (.agent i)) :
    (t.settingsOf i).toOption = (s.settingsOf i).toOption := by
  obtain ⟨⟨role, notes, _, _⟩, ha⟩ := hi.exists_agent
  obtain ⟨b, hb, lints, file, parent, rfl⟩ := h.agent i _ ha
  cases role <;> simp [settingsOf, linter?, ha, hb, Role.inRun, toOption_orMissing]

/-- The settings of a linter are something that is there. -/
theorem settingsOf_held (hs : s.Closed) {v : Value} (h : s.settingsOf i = .ok v) : s.Holds v := by
  unfold settingsOf linter? at h
  cases ha : s.agent? i with
  | none => simp [ha, orMissing] at h
  | some a =>
    have hheld := Holds.agent hs ha
    obtain ⟨role, notes, _, _⟩ := a
    cases role with
    | linter l =>
      cases hm : l.settings.isMissing with
      | true =>
        obtain ⟨fault, hf⟩ := s.orMissing_of_missing (.agent i) "_config_loader" hm
        simp [ha, hf] at h
      | false =>
        have hok : l.settings = v := by
          simpa [ha, orMissing_of_present _ _ _ hm] using h
        rw [← hok]
        exact hheld _ (by simp [Agent.held, Role.parts])
    | _ => simp [ha, orMissing] at h

theorem notes_agent (h : s.Follows t) (hi : s.Holds (.agent i)) :
    t.notes (.agent i) = s.notes (.agent i) := by
  obtain ⟨a, ha⟩ := hi.exists_agent
  obtain ⟨b, hb, lints, file, parent, rfl⟩ := h.agent i _ ha
  simp [Store.notes, ha, hb]

theorem toOption_callable_agent (h : s.Follows t) (hi : s.Holds (.agent i)) (method : String) :
    (t.callable (.agent i) method).toOption = (s.callable (.agent i) method).toOption := by
  rw [toOption_callable, toOption_callable, notes_agent h hi]

theorem common?_cells {name : String} {w : Value} (h : Members.common? name = some w) :
    w.cells = [] := by
  unfold Members.common? at h
  split at h
  · cases h
    rfl
  · split at h
    · cases h
      rfl
    · split at h
      · cases h
        rfl
      · simp at h

/-- What the class of an agent says names nothing in the store. -/
theorem member_cells {r : Role} {name : String} {w : Value} (h : Members.agent? r name = some w) :
    w.cells = [] := by
  unfold Members.agent? at h
  split at h
  · cases h
    rfl
  · cases h
    cases Members.agentWords? r <;> rfl
  · split at h
    · cases h
      rfl
    · exact common?_cells h

/-- What an agent has of its own is held. -/
theorem getAttribute_agent_held (hs : s.Closed) (hi : s.Holds (.agent i)) {name : String}
    {w : Value} (hname : name ∉ changingNames) (hpolicy : name ≠ "parent_policy")
    (h : s.getAttribute (.agent i) name = .ok w) : s.Holds w := by
  simp only [changingNames, positionNames, parentNames, List.mem_append, List.mem_cons,
    List.not_mem_nil, or_false, not_or] at hname
  obtain ⟨a, ha⟩ := hi.exists_agent
  have hget : (s.getAttribute (.agent i) name).toOption = some w := by rw [h]; rfl
  rw [show s.getAttribute (.agent i) name = s.agentAttribute _ i name from rfl,
    toOption_agentAttribute ha hpolicy hname.1.2.2.1 hname.1.2.2.2] at hget
  have hempty : ∀ {x : Value}, x.cells = [] → s.Holds x := by
    intro x hx k hk
    rw [hx] at hk
    exact absurd hk (by simp)
  split at hget
  · cases hget
    exact hempty rfl
  · obtain ⟨hfound, _⟩ := Option.filter_eq_some_iff.mp hget
    cases hown : a.own? name with
    | some x =>
      rw [hown] at hfound
      cases hfound
      exact Holds.agent hs ha _ (Agent.own?_mem hown)
    | none =>
      rw [hown] at hfound
      exact hempty (member_cells hfound)

/-- The lints of a linter are as serious in every store that follows. -/
theorem severity_sameResult (hs : s.Closed) (hb : s.hasBacked = false) (h : s.Follows t)
    (hi : s.Holds (.agent i)) : SameResult (severity i) s t := by
  unfold severity
  refine sameResult_tryRead_bind (toOption_callable_agent h hi _) fun _ _ => ?_
  refine sameResult_tryRead_bind (toOption_settingsOf h hi) fun settings hsettings => ?_
  refine sameResult_tryRead_bind
    (toOption_getAttribute hs h hi (by decide : "severity" ∉ changingNames)) fun own hown => ?_
  split
  · rfl
  · refine sameResult_tryRead_bind
      (toOption_getAttribute hs h hi (by decide : "name" ∉ changingNames)) fun name hname => ?_
    exact Edit.severity_sameResult hs hb h (settingsOf_held hs hsettings)
      (getAttribute_agent_held hs hi (by decide) (by decide) hname)
      (getAttribute_agent_held hs hi (by decide) (by decide) hown)

/-- The policy of a linter is the same in every store that follows. -/
theorem policy_sameResult (hs : s.Closed) (h : s.Follows t) (hi : s.Holds (.agent i)) :
    SameResult (policy i) s t := by
  unfold policy
  refine sameResult_tryRead_bind
    (toOption_getAttribute hs h hi (by decide : "parent_policy" ∉ changingNames)) fun v _ => ?_
  cases v <;> rfl

end Linter

end SheetLint
