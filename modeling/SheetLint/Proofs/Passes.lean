import SheetLint.Proofs.Arrivals

/-!
# Passes over a document

A pass is a walk, which may be left early, or a run of a linter; either may fail. Whatever passes
there are over a document that is a tree, it keeps settling (`afterAll_settles`): one computation of
children does no harm, and nothing else that a pass does touches the document.
-/

namespace SheetLint

open Store

variable {s t s₀ : Store} {root n : NodeId} {i : AgentId}

/-- A walk that is left after `limit` nodes, or a run of a linter in a file. -/
inductive Pass where
  | walk (policy : ParentPolicy) (limit : Nat) (start : NodeId)
  | run (linter : AgentId) (start : NodeId) (file : Value)

namespace Pass

/-- The store after a pass, whether it came to an end or failed. -/
def after : Pass → Store → Store
  | walk policy limit start, s => (Walk.start policy limit (.node start) s).store
  | run i start file, s => ((Linter.run i (.node start) file).perform s).2

/-- The store after several passes. -/
def afterAll (passes : List Pass) (s : Store) : Store :=
  passes.foldl (fun s p => p.after s) s

/-- A pass goes over a document, or a part of it. -/
def Over (s : Store) (root : NodeId) : Pass → Prop
  | walk _ _ start => s.Below root start
  | run i start _ => s.Below root start ∧ s.IsLinter i

end Pass

/-! ## Runs -/

namespace Linter

/-- During a run a document settles and the lints go to a list of their own. -/
structure Underway (s₀ : Store) (root : NodeId) (i : AgentId) (s : Store) : Prop where
  settling : s₀.Settling root s
  lints : ∀ l, s.lintsOf i = .list l → s₀.lists.size ≤ l

theorem Underway.of_rest (hs₀ : s₀.Closed) (htree : s₀.TreeFrom root)
    (h : Underway s₀ root i s) (nodes : t.nodes = s.nodes) (agents : t.agents = s.agents)
    (backed : t.hasBacked = s.hasBacked) (ht : s₀.Extends t) : Underway s₀ root i t where
  settling := h.settling.of_rest hs₀ htree (h.settling.follows.of_agents ht agents backed) nodes
  lints l hl := by
    rw [lintsOf, linter?, agent?, agents] at hl
    exact h.lints l hl

theorem lintsOf_congr (h : t.agents = s.agents) (i : AgentId) : t.lintsOf i = s.lintsOf i := by
  rw [lintsOf, linter?, agent?, h]
  rfl

/-- The visits of a linter keep a document on its way. -/
theorem progress_underway (hs₀ : s₀.Closed) (htree : s₀.TreeFrom root) (i : AgentId) :
    Progress (fun s t => Underway s₀ root i s → Underway s₀ root i t)
      (fun s n => Underway s₀ root i s ∧ (s₀.Below root n ∨ s₀.nodes.size ≤ n)) i where
  later := Edit.isLater_keeps _
  stable := fun ⟨hs, hn⟩ hst => ⟨hst hs, hn⟩
  children {s n} policy := fun ⟨_, hn⟩ hs => by
    refine ⟨(children_settles hs₀ htree hs.settling hn policy).1, fun l hl => hs.lints l ?_⟩
    rwa [lintsOf_congr (agents_marks_children s n policy).1] at hl
  child {s t n policy cs} := fun ⟨hs, hn⟩ hcs c hc => by
    have hsettles := (children_settles hs₀ htree hs.settling hn policy).1
    have hagents := (agents_marks_children s n policy).1
    rw [hcs] at hsettles hagents
    refine ⟨⟨hsettles, fun l hl => hs.lints l ?_⟩, ?_⟩
    · rwa [lintsOf_congr hagents] at hl
    · exact below_child hs₀ hs.settling.follows.extends_ hn hcs hc
  mark s hs := hs.of_rest hs₀ htree rfl rfl rfl (hs.settling.follows.extends_.of_rest rfl rfl rfl)
  list s items hs :=
    hs.of_rest hs₀ htree rfl rfl rfl (hs.settling.follows.extends_.addList items)
  table s entries hs :=
    hs.of_rest hs₀ htree rfl rfl rfl (hs.settling.follows.extends_.addTable entries)
  note s m _ hs := hs.of_rest hs₀ htree rfl rfl rfl (hs.settling.follows.extends_.note m)
  append {s t v} happend := fun hs => by
    obtain ⟨l, hl, rfl⟩ := append_inv happend
    exact hs.of_rest hs₀ htree rfl rfl rfl
      (hs.settling.follows.extends_.setList (hs.lints l hl) _)

/-- A linter is one for good. -/
theorem isLinter_follows (h : s.Follows t) (hi : s.IsLinter i) : t.IsLinter i := by
  obtain ⟨a, l, ha, hl, hb⟩ := hi
  obtain ⟨b, hb', lints, file, parent, rfl⟩ := h.agent i a ha
  exact ⟨_, _, hb', by rw [hl]; rfl, hb⟩

/-- Starting over leaves the document as it is, but for parents that are let go. -/
theorem startedOver_underway (hs₀ : s₀.Closed) (htree : s₀.TreeFrom root)
    (hs : s₀.Settling root s) {a : Agent} {l : Linter} (ha : s.agent? i = some a)
    (hl : a.role = .linter l) (file : Value) (stays : Cell → Bool) :
    Underway s₀ root i (startedOver s i a l file stays) := by
  have hset := hs.of_rest hs₀ htree (hs.follows.restarted ha hl file) rfl
  exact ⟨hset.keepParents hs₀ htree stays,
    lintsOf_startedOver_new ha hs.follows.extends_.lists file stays⟩

/-- A document keeps settling during a run. -/
theorem run_settles (hs₀ : s₀.Closed) (htree : s₀.TreeFrom root) (hs : s₀.Settling root s)
    (hi : s₀.IsLinter i) (hn : s₀.Below root n) (file : Value) :
    s₀.Settling root ((run i (.node n) file).perform s).2 := by
  obtain ⟨a, l, ha, hl, hb⟩ := isLinter_follows hs.follows hi
  obtain ⟨stays, hreset⟩ := perform_reset ha hl hb file
  have hunderway := startedOver_underway hs₀ htree hs ha hl file stays
  rw [store_run hreset]
  exact ((progress_underway hs₀ htree i).moves_visitTo _ ⟨hunderway, Or.inl hn⟩ hunderway).settling

end Linter

/-! ## Any number of passes -/

namespace Pass

/-- Every pass over a document leaves it on its way. -/
theorem after_settles (hs₀ : s₀.Closed) (htree : s₀.TreeFrom root) (hs : s₀.Settling root s) :
    ∀ {p : Pass}, p.Over s₀ root → s₀.Settling root (p.after s)
  | walk policy limit start, hp => by
    refine Walk.fromStack_keeps (fun hs hn => (children_settles hs₀ htree hs hn policy).1)
      (fun hs hn hcs _ hc => below_child hs₀ hs.follows.extends_ hn hcs hc) limit [start] hs ?_
    intro n hn
    cases List.mem_singleton.mp hn
    exact Or.inl hp
  | run _ _ file, hp => Linter.run_settles hs₀ htree hs hp.2 hp.1 file

/-- A document that is a tree keeps settling, whatever passes go over it. -/
theorem afterAll_settles (hs₀ : s₀.Closed) (htree : s₀.TreeFrom root) :
    ∀ {passes : List Pass} {s : Store}, s₀.Settling root s → (∀ p ∈ passes, p.Over s₀ root) →
      s₀.Settling root (afterAll passes s)
  | [], _, hs, _ => hs
  | p :: passes, s, hs, hpasses => by
    have hp := after_settles hs₀ htree hs (hpasses p (List.mem_cons_self ..))
    show s₀.Settling root (afterAll passes (p.after s))
    exact afterAll_settles hs₀ htree hp fun q hq => hpasses q (List.mem_cons_of_mem _ hq)

end Pass

end SheetLint
