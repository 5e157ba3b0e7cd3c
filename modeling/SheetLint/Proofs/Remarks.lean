import SheetLint.Proofs.Jobs
import SheetLint.Proofs.Parallel

/-!
# Lints at nodes

Recording a lint at a node changes next to nothing: the lint goes to the end of the list that the
linter has for the run, two marks are taken, and there may be a warning about the settings
(`Store.Aside`, `AtWork.perform_record`). Whether it can be recorded at all is a matter of the
linter and its settings, which are the same all along, and of the line and column of the node
(`AtWork.record_needs`).
-/

namespace SheetLint

namespace Store

/-- Two stores that differ in nothing but a list, marks, and what was logged beside
re-parentings. -/
structure Aside (L : ListId) (s t : Store) : Prop where
  nodes : t.nodes = s.nodes
  tables : t.tables = s.tables
  lists : t.lists.size = s.lists.size
  list : ∀ l, l ≠ L → t.list l = s.list l
  agents : t.agents = s.agents
  backed : t.hasBacked = s.hasBacked
  log : t.log.filter Message.isReparenting = s.log.filter Message.isReparenting

variable {s₀ s t u w : Store} {L : ListId} {n : NodeId} {i : AgentId}

namespace Aside

theorem refl (L : ListId) (s : Store) : s.Aside L s :=
  ⟨rfl, rfl, rfl, fun _ _ => rfl, rfl, rfl, rfl⟩

theorem trans (h : s.Aside L t) (h' : t.Aside L u) : s.Aside L u where
  nodes := h'.nodes.trans h.nodes
  tables := h'.tables.trans h.tables
  lists := h'.lists.trans h.lists
  list l hl := (h'.list l hl).trans (h.list l hl)
  agents := h'.agents.trans h.agents
  backed := h'.backed.trans h.backed
  log := h'.log.trans h.log

theorem node (h : s.Aside L t) (n : NodeId) : t.node n = s.node n := by
  rw [Store.node, Store.node, node?, node?, h.nodes]

theorem setList (s : Store) (L : ListId) (items : List Value) : s.Aside L (s.setList L items) where
  nodes := rfl
  tables := rfl
  lists := by simp [Store.setList]
  list l hl := by rw [list_setList, if_neg fun h => hl h.1.symm]
  agents := rfl
  backed := rfl
  log := rfl

theorem marks (s : Store) (L : ListId) (marks : Nat) : s.Aside L { s with marks } :=
  ⟨rfl, rfl, rfl, fun _ _ => rfl, rfl, rfl, rfl⟩

end Aside

/-- Nothing that stores abreast have in common changes. -/
theorem Abreast.aside (h : s.Abreast L w) (ht : s.Aside L t) : t.Abreast L w := by
  have hagent : ∀ i, t.agent? i = s.agent? i := fun i => by rw [agent?, agent?, ht.agents]
  refine ⟨h.nodes.trans ht.nodes.symm, h.tables.trans ht.tables.symm,
    fun l hl => (h.list l hl).trans (ht.list l hl).symm, ?_, fun i => ?_, h.log.trans ht.log.symm,
    ⟨fun n => ?_, fun l hl => ?_, fun k => ?_, fun i a name v ha => ?_⟩, fun i a v ha => ?_,
    ht.backed.trans h.unbacked, h.unbacked'⟩
  · rw [h.size, ht.agents]
  · rw [hagent]
    exact h.agents i
  · rw [ht.node]
    exact h.shuns.held n
  · rw [ht.list l hl]
    exact h.shuns.list l hl
  · rw [Store.table, ht.tables]
    exact h.shuns.table k
  · rw [hagent] at ha
    exact h.shuns.agent i a name v ha
  · rw [hagent] at ha
    exact h.named i a v ha

/-- The line and column of a node that has them are a matter of the node alone. -/
theorem lineAndColumn_congr (h : t.node n = s.node n) {p : Value × Value}
    (hp : s.lineAndColumn (.node n) = .ok p) : t.lineAndColumn (.node n) = .ok p := by
  have hpart : ∀ name v,
      t.orMissing (.node n) name (some v) = s.orMissing (.node n) name (some v) := by
    intro name v
    cases v <;> rfl
  unfold lineAndColumn at hp ⊢
  rw [getAttribute_line, getAttribute_column] at hp ⊢
  rw [h, hpart, hpart]
  split at hp
  · cases hp
  · split at hp
    · cases hp
    · split at hp <;> cases hp
  · exact hp

/-- A linter in the course of a run: what was there is as it was, and the lints go to a list that is
new. -/
structure AtWork (s₀ : Store) (i : AgentId) (L : ListId) (file : Value) (s : Store) : Prop where
  follows : s₀.Follows s
  lints : s.lintsOf i = .list L
  inFile : (s.linter? i).map Linter.file = some file
  new : s₀.lists.size ≤ L
  there : L < s.lists.size

/-- What a linter needs for recording lints beside a line: its method has not been replaced, and its
file and the severity of its lints are known. -/
structure Records (s₀ : Store) (i : AgentId) (file sev : Value) : Prop where
  callable : (s₀.callable (.agent i) "add_lint").toOption = some ()
  present : file.isMissing = false
  severity : ((Linter.severity i).perform s₀).1 = .ok sev

namespace AtWork

variable {file sev : Value}

/-- The agents stay what they are. -/
theorem of_agents (h : s₀.AtWork i L file s) (hext : s₀.Extends t) (agents : t.agents = s.agents)
    (backed : t.hasBacked = s.hasBacked) (hlists : s.lists.size ≤ t.lists.size) :
    s₀.AtWork i L file t where
  follows := h.follows.of_agents hext agents backed
  lints := (Linter.lintsOf_congr agents i).trans h.lints
  inFile := by
    rw [linter?, agent?, agents]
    exact h.inFile
  new := h.new
  there := Nat.lt_of_lt_of_le h.there hlists

/-- A linter stays at work in a store that is no different but for what was recorded. -/
theorem aside (h : s₀.AtWork i L file s) (ht : s.Aside L t) : s₀.AtWork i L file t := by
  refine h.of_agents ?_ ht.agents ht.backed (Nat.le_of_eq ht.lists.symm)
  have hext := h.follows.extends_
  refine ⟨?_, fun n hn => ?_, fun n hn => ?_, fun n hn => ?_, ?_, fun l hl => ?_, ?_,
    fun k hk => ?_⟩
  · rw [ht.nodes]
    exact hext.nodes
  · rw [ht.node, hext.form n hn]
  · rw [ht.node, hext.notes n hn]
  · rw [ht.node]
    exact hext.leaf n hn
  · rw [ht.lists]
    exact hext.lists
  · rw [ht.list l (Nat.ne_of_lt (Nat.lt_of_lt_of_le hl h.new)), hext.list l hl]
  · rw [ht.tables]
    exact hext.tables
  · rw [Store.table, ht.tables]
    exact hext.table k hk

theorem fileOf (h : s₀.AtWork i L file s) :
    (s.fileOf i).toOption = (some file).filter (!·.isMissing) := by
  rw [Store.fileOf, toOption_orMissing, h.inFile]

end AtWork

/-- Asking for the severity changes no list at all. -/
theorem aside_severity (s : Store) (L : ListId) (i : AgentId) :
    s.Aside L ((Linter.severity i).perform s).2 ∧
      ((Linter.severity i).perform s).2.lists = s.lists := by
  refine (Linter.Asking.mk (R := fun s t => s.Aside L t ∧ t.lists = s.lists)
    ⟨fun s => ⟨.refl L s, rfl⟩, fun h h' => ⟨h.1.trans h'.1, h'.2.trans h.2⟩⟩
    fun s m hm => ⟨⟨rfl, rfl, rfl, fun _ _ => rfl, rfl, rfl, ?_⟩, rfl⟩).moves_severity i s
  rw [note, List.filter_append, List.filter_cons, hm]
  simp

section Recording

open Linter

theorem place_node (n : NodeId) : place (.node n) = Edit.locationOf (.node n) (.int 1) := rfl

variable (hs₀ : s₀.Closed) (hb : s₀.hasBacked = false) (hi : s₀.Holds (.agent i))
  {file sev line column description : Value} {fixable : Bool}
include hs₀ hb hi

/-- A lint at a node with a line is recorded at the end of the list, and nothing else happens. -/
theorem AtWork.perform_record (h : s₀.AtWork i L file s) (hrecords : s₀.Records i file sev)
    (hplace : s.lineAndColumn (.node n) = .ok (line, column)) (description : Value)
    (fixable : Bool) :
    ∃ lint t, (record i (.node n) description fixable).perform s = (.ok lint, t) ∧
      s.Aside L t ∧ t.list L = s.list L ++ [lint] ∧
      lint.report? = some { linter := .agent i, file, line, column, length := .int 1, description,
                            severity := sev, fixable } := by
  -- a location is made in `s₁`, the severity is asked for until `s₂`, and the lint made in `s₃`
  let s₁ : Store := { s with marks := s.marks + 1 }
  have hs₁ : s.Aside L s₁ := .marks s L _
  have hcallable : s.callable (.agent i) "add_lint" = .ok () := by
    rw [← toOption_eq_some, toOption_callable_agent h.follows hi]
    exact hrecords.callable
  have hlocation : (place (.node n)).perform s =
      (.ok (.location s.marks line column (.int 1)), s₁) := by
    rw [place_node, Edit.locationOf, Edit.perform_bind, Edit.perform_tryRead, hplace]
    rfl
  have hfile : s₁.fileOf i = .ok file := by
    rw [← toOption_eq_some, (h.aside hs₁).fileOf]
    simp [hrecords.present]
  obtain ⟨s₂, hsev, hs₂, hlists⟩ : ∃ s₂, (severity i).perform s₁ = (.ok sev, s₂) ∧
      s₁.Aside L s₂ ∧ s₂.lists = s₁.lists := by
    have hsame := severity_sameResult hs₀ hb (h.aside hs₁).follows hi
    have haside := aside_severity s₁ L i
    unfold Edit.SameResult at hsame
    rw [hrecords.severity] at hsame
    cases hr : (severity i).perform s₁ with
    | mk r t =>
      rw [hr] at hsame haside
      exact ⟨t, congrArg (·, t) (toOption_eq_some.mp hsame), haside⟩
  let s₃ : Store := { s₂ with marks := s₂.marks + 1 }
  have hs₃ : s.Aside L s₃ := (hs₁.trans hs₂).trans (.marks s₂ L _)
  have hwork := h.aside hs₃
  have hitems : s₃.list L = s.list L := congrArg (fun ls => (ls[L]?).getD []) hlists
  let lint : Value := .lint s₂.marks (.agent i) file (.location s.marks line column (.int 1))
    description sev fixable
  refine ⟨lint, s₃.setList L (s.list L ++ [lint]), ?_, hs₃.trans (.setList s₃ L _), ?_, rfl⟩
  · rw [record, Edit.perform_bind, Edit.perform_tryRead, hcallable]
    simp only
    rw [Edit.perform_bind_ok hlocation, Edit.perform_bind, Edit.perform_tryRead, hfile]
    simp only
    rw [Edit.perform_bind_ok hsev]
    have hlint : (Edit.newLint (.agent i) file (.location s.marks line column (.int 1)) description
        sev fixable).perform s₂ = (.ok lint, s₃) := rfl
    have happend : s₃.append (s₃.lintsOf i) lint = .ok (s₃.setList L (s.list L ++ [lint])) := by
      rw [hwork.lints, ← hitems]
      rfl
    rw [Edit.perform_bind_ok hlint, Edit.perform_bind, Edit.perform_change, happend]
    rfl
  · rw [list_setList, if_pos ⟨rfl, hwork.there⟩]

/-- If a lint could be recorded, all that is needed for it was there. -/
theorem AtWork.record_needs (h : s₀.AtWork i L file s)
    (hrecord : ∃ lint, ((record i (.node n) description fixable).perform s).1 = .ok lint) :
    ∃ line column sev, s₀.Records i file sev ∧ s.lineAndColumn (.node n) = .ok (line, column) := by
  obtain ⟨lint, hlint⟩ := hrecord
  obtain ⟨t, ht⟩ : ∃ t, (record i (.node n) description fixable).perform s = (.ok lint, t) :=
    ⟨_, Prod.ext hlint rfl⟩
  unfold record at ht
  obtain ⟨_, s₁, hcallable, ht⟩ := Edit.of_perform_bind_ok ht
  obtain ⟨location, s₂, hlocation, ht⟩ := Edit.of_perform_bind_ok ht
  obtain ⟨file', s₃, hfile, ht⟩ := Edit.of_perform_bind_ok ht
  obtain ⟨sev, s₄, hsev, _⟩ := Edit.of_perform_bind_ok ht
  simp only [Edit.perform_tryRead, Prod.mk.injEq] at hcallable hfile
  obtain ⟨hcallable, rfl⟩ := hcallable
  obtain ⟨hfile, rfl⟩ := hfile
  rw [place_node, Edit.locationOf] at hlocation
  obtain ⟨⟨line, column⟩, s₅, hplace, hmark⟩ := Edit.of_perform_bind_ok hlocation
  simp only [Edit.perform_tryRead, Prod.mk.injEq] at hplace
  obtain ⟨hplace, rfl⟩ := hplace
  cases hmark
  have hwork := h.aside (.marks s L (s.marks + 1))
  refine ⟨line, column, sev, ⟨?_, ?_, ?_⟩, hplace⟩
  · rw [← toOption_callable_agent h.follows hi, hcallable]
    rfl
  · have hfound := hwork.fileOf
    rw [hfile] at hfound
    have hkept := (Option.filter_eq_some_iff.mp hfound.symm).2
    obtain rfl := Option.some.inj (Option.filter_eq_some_iff.mp hfound.symm).1
    simpa using hkept
  · have hsame := severity_sameResult hs₀ hb hwork.follows hi
    unfold Edit.SameResult at hsame
    rw [hsev] at hsame
    exact toOption_eq_some.mp hsame.symm

end Recording

end Store

end SheetLint
