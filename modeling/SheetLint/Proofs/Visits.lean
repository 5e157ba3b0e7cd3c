import SheetLint.Linter
import SheetLint.Proofs.Adopt

/-!
# What the visits of a linter do

A linter's visits do few things to the store: they compute children, take marks, make lists and
tables, log, and append to the list of lints. `Progress` says what a relation between stores needs
to hold of all of these, together with a property of the nodes that are visited; then it holds
between the store before a visit and the store after it, whatever the class of the linter does
(`visitGuarded_agrees`).

To say something of every visit of a run, and not only of its end, a guard is put before each
visit. Where the guard lets through every node that has the property, guarded visits are the plain
ones. A guard that fails if something does not hold thus says that it holds at every visit. There is
another sort of guard that is told both the node that is visited and the one whose child it is
(`visitTracked_agrees`).
-/

namespace SheetLint

/-- What is appended goes to the end of a list. -/
theorem Store.append_inv {s t : Store} {list v : Value} (h : s.append list v = .ok t) :
    ∃ l, list = .list l ∧ t = s.setList l (s.list l ++ [v]) := by
  cases list with
  | list l => exact ⟨l, rfl, (Except.ok.inj h).symm⟩
  | _ => cases h

/-- Whether a message says that a node moved from one live parent to another. -/
def Message.isReparenting : Message → Bool
  | .reparented .. => true
  | _ => false

open Classical in
/-- Fails unless something holds of the store. -/
noncomputable def Edit.require (P : Store → Prop) (fault : Fault) : Edit Unit := do
  if P (← get) then return else throw fault

theorem Edit.perform_require {P : Store → Prop} {s : Store} (h : P s) (fault : Fault) :
    (require P fault).perform s = (.ok (), s) := by
  rw [require, perform_bind, perform_get]
  exact congrArg (fun e : Edit Unit => e.perform s) (if_pos h)

namespace Linter

open Edit

/-- Visits a value as `visitTo` does, with a guard before each visit. -/
def visitGuarded (guard : Value → Edit Unit) (i : AgentId) : (depth : Nat) → Value → Edit Unit
  | 0, v => do
    guard v
    throw .tooDeep
  | d + 1, v => do
    guard v
    tryRead (·.callable (.agent i) "visit")
    let kind ← tryRead (·.kindOf v)
    let s ← get
    match (s.notes (.agent i)).lookup ("visit_" ++ kind), s.visitOf? i kind with
    | some .null, _ => descend i (visitGuarded guard i d) v
    | some w, _ => throw (.notCallable (s.typeName w))
    | none, none => descend i (visitGuarded guard i d) v
    | none, some actions => actAll i (descend i (visitGuarded guard i d)) v actions

/-- Runs a linter with a guard before each visit. -/
def runGuarded (guard : Value → Edit Unit) (i : AgentId) (root file : Value) :
    Edit (List Value) := do
  reset i file
  visitGuarded guard i (depth (← get)) root
  recorded i

/-- What a visit does at a value, given how to go on below it. -/
def dispatch (i : AgentId) (down : Value → Edit Unit) (v : Value) : Edit Unit := do
  tryRead (·.callable (.agent i) "visit")
  let kind ← tryRead (·.kindOf v)
  let s ← get
  match (s.notes (.agent i)).lookup ("visit_" ++ kind), s.visitOf? i kind with
  | some .null, _ => down v
  | some w, _ => throw (.notCallable (s.typeName w))
  | none, none => down v
  | none, some actions => actAll i down v actions

theorem visitTo_succ (i : AgentId) (d : Nat) (v : Value) :
    visitTo i (d + 1) v = dispatch i (descend i (visitTo i d)) v := rfl

theorem visitGuarded_succ (guard : Value → Edit Unit) (i : AgentId) (d : Nat) (v : Value) :
    visitGuarded guard i (d + 1) v =
      guard v >>= fun _ => dispatch i (descend i (visitGuarded guard i d)) v := rfl

/-- A guard that does nothing makes no difference. -/
theorem visitGuarded_pure (i : AgentId) : ∀ d : Nat,
    visitGuarded (fun _ => pure ()) i d = visitTo i d
  | 0 => by
    funext v
    rw [visitGuarded, visitTo, pure_bind]
  | d + 1 => by
    funext v
    rw [visitGuarded_succ, visitTo_succ, visitGuarded_pure i d, pure_bind]

/-- Visits a value as `visitTo` does, with a guard before the visit of each child, which is told
whose child it is. -/
def visitTracked (guard : (container child : Value) → Edit Unit) (i : AgentId) :
    (depth : Nat) → Value → Edit Unit
  | 0, _ => throw .tooDeep
  | d + 1, v => dispatch i (descend i fun c => do guard v c; visitTracked guard i d c) v

/-- Runs a linter with a guard before the visit of each child. -/
def runTracked (guard : (container child : Value) → Edit Unit) (i : AgentId) (root file : Value) :
    Edit (List Value) := do
  reset i file
  visitTracked guard i (depth (← get)) root
  recorded i

theorem visitTracked_pure (i : AgentId) : ∀ d : Nat,
    visitTracked (fun _ _ => pure ()) i d = visitTo i d
  | 0 => rfl
  | d + 1 => by
    funext v
    rw [visitTracked, visitTo_succ, visitTracked_pure i d]
    rfl

/-- A relation between stores that asking cannot leave, and what is logged about settings. -/
structure Asking (R : Store → Store → Prop) : Prop where
  later : IsLater R
  note : ∀ (s : Store) m, m.isReparenting = false → R s (s.note m)

/-- A relation between stores that nothing can leave that a linter does beside computing children
and recording lints. -/
structure Quiet (R : Store → Store → Prop) : Prop extends Asking R where
  mark : ∀ s : Store, R s { s with marks := s.marks + 1 }
  list : ∀ (s : Store) items, R s (s.addList items)
  table : ∀ (s : Store) entries, R s (s.addTable entries)

/-- A relation between stores, and a property of nodes in a store, that the visits of a linter
cannot leave. -/
structure Progress (R : Store → Store → Prop) (Visible : Store → NodeId → Prop)
    (i : AgentId) : Prop extends Quiet R where
  stable : ∀ {s t n}, Visible s n → R s t → Visible t n
  children : ∀ {s n} (policy : ParentPolicy), Visible s n →
    R s ((Edit.children n policy).perform s).2
  child : ∀ {s t n policy cs}, Visible s n →
    (Edit.children n policy).perform s = (.ok cs, t) → ∀ c ∈ cs, Visible t c
  append : ∀ {s t : Store} {v}, s.append (s.lintsOf i) v = .ok t → R s t

/-- On stores of which `P` holds two edits do the same, and take the store to a later one. -/
def Agrees {α : Type} (P : Store → Prop) (R : Store → Store → Prop) (e e' : Edit α) : Prop :=
  ∀ s, P s → e'.perform s = e.perform s ∧ R s (e.perform s).2

variable {α β : Type} {R : Store → Store → Prop} {Visible : Store → NodeId → Prop} {i : AgentId}
  {P : Store → Prop} {n : NodeId}

theorem Agrees.of_moves {e : Edit α} (h : Moves R e) : Agrees P R e e :=
  fun s _ => ⟨rfl, h s⟩

/-- Edits that agree step by step agree. -/
theorem Agrees.bind (hR : IsLater R) (stable : ∀ {s t}, P s → R s t → P t) {x x' : Edit α}
    {f f' : α → Edit β} (hx : Agrees P R x x') (hf : ∀ a, Agrees P R (f a) (f' a)) :
    Agrees P R (x >>= f) (x' >>= f') := by
  intro s hs
  obtain ⟨hsame, hlater⟩ := hx s hs
  rw [perform_bind, perform_bind, hsame]
  cases hr : x.perform s with
  | mk r t =>
    rw [hr] at hlater
    cases r with
    | error fault => exact ⟨rfl, hlater⟩
    | ok a =>
      obtain ⟨hsame', hlater'⟩ := hf a t (stable hs hlater)
      exact ⟨hsame', hR.trans hlater hlater'⟩

/-! ## What does not visit -/

namespace Asking

variable (L : Asking R)
include L

theorem moves_policy (i : AgentId) : Moves R (policy i) := by
  refine moves_bind L.later (moves_tryRead L.later _) fun v => ?_
  cases v <;> exact moves_pure L.later _

theorem moves_logAll : ∀ ms : List Message, (∀ m ∈ ms, m.isReparenting = false) →
    Moves R (logAll ms)
  | [], _ => L.later.refl
  | m :: ms, h => by
    rw [logAll, forM_cons]
    exact moves_bind L.later (fun s => L.note s m (h m List.mem_cons_self)) fun _ =>
      moves_logAll ms fun m' hm' => h m' (List.mem_cons_of_mem m hm')

/-- A warning about settings is not about parents. -/
theorem moves_warn (ws : List (Settings.Warning Value)) : Moves R (warn ws) := by
  intro s
  rw [warn, perform_bind, perform_read]
  refine L.moves_logAll _ (fun m hm => ?_) s
  obtain ⟨w, _, rfl⟩ := List.mem_map.mp hm
  cases w <;> rfl

/-- Asking for the severity of a linter logs at most a warning about settings. -/
theorem moves_severity (i : AgentId) : Moves R (severity i) := by
  have hread {γ : Type} (f : Store → Except Fault γ) := moves_tryRead L.later f
  unfold severity
  refine moves_bind L.later (hread _) fun _ => ?_
  refine moves_bind L.later (hread _) fun settings => ?_
  refine moves_bind L.later (hread _) fun own => ?_
  split
  · exact moves_pure L.later _
  · refine moves_bind L.later (hread _) fun name => ?_
    unfold Edit.severity
    refine moves_bind L.later (hread _) fun _ => ?_
    refine moves_bind L.later (hread _) fun section_ => ?_
    refine moves_bind L.later (hread _) fun choice => ?_
    split
    · exact moves_pure L.later _
    · exact moves_pure L.later _
    · refine moves_bind L.later (hread _) fun word => ?_
      refine moves_bind L.later (moves_read L.later _) fun text => ?_
      exact moves_bind L.later (L.moves_warn _) fun _ => moves_pure L.later _

end Asking

namespace Quiet

variable (L : Quiet R)
include L

theorem moves_newMark : Moves R newMark := L.mark

theorem moves_newLocation (line column length : Value) :
    Moves R (newLocation line column length) :=
  moves_bind L.later L.moves_newMark fun _ => moves_pure L.later _

theorem moves_locationOf (v length : Value) : Moves R (locationOf v length) :=
  moves_bind L.later (moves_tryRead L.later _) fun _ => L.moves_newLocation _ _ _

theorem moves_place (v : Value) : Moves R (place v) := by
  unfold place
  split
  · exact moves_pure L.later _
  · exact L.moves_locationOf _ _

/-- Making a location of items takes a new mark at most. -/
theorem moves_locationOfItems (v : Value) : Moves R (locationOfItems v) := by
  unfold locationOfItems
  refine moves_bind L.later (moves_read L.later id) fun s => ?_
  split
  · unfold locationOfParts
    split
    · exact moves_throw L.later _
    · exact L.moves_newLocation _ _ _
  · exact moves_throw L.later _

/-- Asking for an attribute may make a list, a tuple or a table anew, and does nothing else. -/
theorem moves_attributeOf (v : Value) (name : String) : Moves R (attributeOf v name) := by
  unfold attributeOf
  refine moves_bind L.later (moves_read L.later id) fun s => ?_
  split
  · exact moves_pure L.later _
  · refine moves_bind L.later (moves_tryRead L.later _) fun fresh => ?_
    cases fresh with
    | list items =>
      exact moves_bind L.later (fun s => L.list s items) fun _ => moves_pure L.later _
    | tuple items =>
      exact moves_bind L.later L.moves_newMark fun _ => moves_pure L.later _
    | table entries =>
      exact moves_bind L.later (fun s => L.table s entries) fun _ => moves_pure L.later _
  · exact moves_tryRead L.later _

end Quiet

namespace Progress

variable (L : Progress R Visible i)
include L

/-- Recording a lint makes a location at most, and adds to the list of lints. -/
theorem moves_record (v description : Value) (fixable : Bool) :
    Moves R (record i v description fixable) := by
  have hread {γ : Type} (f : Store → Except Fault γ) := moves_tryRead L.later f
  unfold record
  refine moves_bind L.later (hread _) fun _ => ?_
  refine moves_bind L.later (L.toQuiet.moves_place v) fun location => ?_
  refine moves_bind L.later (hread _) fun file => ?_
  refine moves_bind L.later (L.toAsking.moves_severity i) fun sev => ?_
  refine moves_bind L.later ?_ fun lint => ?_
  · exact moves_bind L.later L.toQuiet.moves_newMark fun _ => moves_pure L.later _
  · exact moves_bind L.later (moves_change L.later fun _ _ h => L.append h)
      fun _ => moves_pure L.later _

theorem moves_recordDuplicates (nodes : List NodeId) : Moves R (recordDuplicates i nodes) := by
  unfold recordDuplicates
  refine moves_bind L.later (moves_read L.later id) fun s => ?_
  refine moves_forM L.later (fun e => ?_) _
  refine moves_bind L.later (moves_tryRead L.later _) fun isRepeat => ?_
  split
  · exact moves_bind L.later (L.moves_record _ _ _) fun _ => moves_pure L.later _
  · exact moves_pure L.later _

/-! ## Visits -/

/-- What holds of the children of a visible node, once they are computed, holds of those that are
computed for a linter. -/
theorem childrenOf_spec {Child : Store → NodeId → Prop}
    (hchild : ∀ {s t policy cs}, Visible s n →
      (Edit.children n policy).perform s = (.ok cs, t) → ∀ c ∈ cs, Child t c)
    {s : Store} (hn : Visible s n) :
    R s ((childrenOf i (.node n)).perform s).2 ∧
      ∀ cs t, (childrenOf i (.node n)).perform s = (.ok cs, t) → ∀ c ∈ cs, Child t c := by
  simp only [childrenOf, onNode, perform_bind, perform_tryRead]
  cases s.getAttribute (.node n) "traversal_children" with
  | error fault => exact ⟨L.later.refl s, fun cs t h => by simp at h⟩
  | ok v =>
    have hpolicy := L.toAsking.moves_policy i s
    simp only
    cases hp : (policy i).perform s with
    | mk r t =>
      rw [hp] at hpolicy
      cases r with
      | error fault => exact ⟨hpolicy, fun cs u h => by simp at h⟩
      | ok p =>
        have hn' := L.stable hn hpolicy
        exact ⟨L.later.trans hpolicy (L.children p hn'), fun cs u h => hchild hn' h⟩

/-! What is done at a value agrees if the ways of going on below it do. The value need not be a
node: all that matters is that a later store comes out when its children are asked for. -/

mutual

/-- What an action does agrees if going on below the value does, one case for each action. -/
theorem act_agrees {v : Value} (hstable : ∀ {s t}, P s → R s t → P t)
    (hchildren : ∀ s, P s → R s ((childrenOf i v).perform s).2)
    {down down' : Value → Edit Unit} (hdown : Agrees P R (down v) (down' v)) :
    ∀ a : Action, Agrees P R (act i down v a) (act i down' v a)
  | .lint description none fixable => by
    rw [act, act]
    exact .of_moves (moves_bind L.later (moves_pure L.later _) fun _ =>
      moves_bind L.later (L.moves_record _ _ _) fun _ => moves_pure L.later _)
  | .lint description (some parts) fixable => by
    rw [act, act]
    exact .of_moves (moves_bind L.later (L.toQuiet.moves_locationOfItems parts) fun _ =>
      moves_bind L.later (L.moves_record _ _ _) fun _ => moves_pure L.later _)
  | .descend => by
    rw [act, act]
    exact hdown
  | .whenAttribute name expected body => by
    rw [act, act]
    refine .bind L.later hstable (.of_moves (L.toQuiet.moves_attributeOf _ _)) fun found => ?_
    refine .bind L.later hstable (.of_moves (moves_tryRead L.later _)) fun wanted => ?_
    refine .bind L.later hstable (.of_moves (moves_read L.later _)) fun isSame => ?_
    split
    · exact actAll_agrees hstable hchildren hdown body
    · exact .of_moves (moves_pure L.later _)
  | .whenParent kind body => by
    rw [act, act]
    refine .bind L.later hstable (.of_moves (moves_tryRead L.later _)) fun parent => ?_
    split
    · refine .bind L.later hstable (.of_moves (moves_tryRead L.later _)) fun found => ?_
      refine .bind L.later hstable (.of_moves (moves_read L.later _)) fun isSame => ?_
      split
      · exact actAll_agrees hstable hchildren hdown body
      · exact .of_moves (moves_pure L.later _)
    · exact .of_moves (moves_pure L.later _)
  | .duplicates among => by
    rw [act, act]
    refine .bind L.later hstable (fun s hs => ⟨rfl, hchildren s hs⟩) fun cs => ?_
    exact .of_moves (moves_bind L.later (moves_read L.later id) fun s =>
      L.moves_recordDuplicates _)
  | .fail fault => by
    rw [act, act]
    exact .of_moves (moves_throw L.later fault)

/-- Actions one after the other agree, by induction on those still to come. -/
theorem actAll_agrees {v : Value} (hstable : ∀ {s t}, P s → R s t → P t)
    (hchildren : ∀ s, P s → R s ((childrenOf i v).perform s).2)
    {down down' : Value → Edit Unit} (hdown : Agrees P R (down v) (down' v)) :
    ∀ as : List Action, Agrees P R (actAll i down v as) (actAll i down' v as)
  | [] => by
    rw [actAll, actAll]
    exact .of_moves (moves_pure L.later _)
  | a :: as => by
    rw [actAll, actAll]
    exact .bind L.later hstable (act_agrees hstable hchildren hdown a) fun _ =>
      actAll_agrees hstable hchildren hdown as

end

section At

variable {v : Value} (hstable : ∀ {s t}, P s → R s t → P t)
  (hchildren : ∀ s, P s → R s ((childrenOf i v).perform s).2)
include hstable hchildren

/-- Going on for some rounds agrees if one round does. -/
theorem descendTo_agrees {visit visit' : Value → Edit Unit}
    (hvisit : Agrees P R (visitChildren i visit v) (visitChildren i visit' v)) :
    ∀ rounds : Nat, Agrees P R (descendTo i visit rounds v) (descendTo i visit' rounds v)
  | 0 => .of_moves (moves_throw L.later _)
  | r + 1 => by
    rw [descendTo, descendTo]
    refine .bind L.later hstable (.of_moves (moves_tryRead L.later _)) fun _ => ?_
    refine .bind L.later hstable (.of_moves (moves_read L.later _)) fun descent => ?_
    cases descent with
    | none => exact hvisit
    | some actions => exact L.actAll_agrees hstable hchildren (descendTo_agrees hvisit r) actions

/-- So does what is done at a value with the methods for its kind. -/
theorem dispatch_agrees {down down' : Value → Edit Unit}
    (hdown : Agrees P R (down v) (down' v)) :
    Agrees P R (dispatch i down v) (dispatch i down' v) := by
  unfold dispatch
  refine .bind L.later hstable (.of_moves (moves_tryRead L.later _)) fun _ => ?_
  refine .bind L.later hstable (.of_moves (moves_tryRead L.later _)) fun kind => ?_
  refine .bind L.later hstable (.of_moves (moves_read L.later id)) fun t => ?_
  cases (t.notes (.agent i)).lookup ("visit_" ++ kind) with
  | none =>
    cases t.visitOf? i kind with
    | none => exact hdown
    | some actions => exact L.actAll_agrees hstable hchildren hdown actions
  | some w =>
    cases w with
    | null => exact hdown
    | _ => exact .of_moves (moves_throw L.later _)

end At

/-! A child may be known to be more than visible when it is visited: what `Child` says holds of the
children of a node as soon as they are computed, and in all later stores. -/

section Child

variable (Child : Store → NodeId → Prop)
  (hstable : ∀ {s t c}, Child s c → R s t → Child t c)
  (hchild : ∀ {s t policy cs}, Visible s n →
    (Edit.children n policy).perform s = (.ok cs, t) → ∀ c ∈ cs, Child t c)
  {visit visit' : Value → Edit Unit}
  (hvisit : ∀ c, Agrees (Child · c) R (visit (.node c)) (visit' (.node c)))

include hstable hvisit in
/-- Visits of several nodes agree if the visits of each do. -/
theorem forM_agrees : ∀ (cs : List NodeId), Agrees (fun s => ∀ c ∈ cs, Child s c) R
    (cs.forM fun c => visit (.node c)) (cs.forM fun c => visit' (.node c))
  | [] => .of_moves (moves_pure L.later _)
  | c :: cs => by
    rw [forM_cons, forM_cons]
    refine .bind L.later (fun hs hR c' hc' => hstable (hs c' hc') hR) ?_ fun _ => ?_
    · exact fun s hs => hvisit c s (hs c (List.mem_cons_self ..))
    · exact fun s hs => forM_agrees cs s fun c' hc' => hs c' (List.mem_cons_of_mem _ hc')

include hstable hchild hvisit in
/-- Going on to the children of a node agrees if visiting them does. -/
theorem visitChildren_agrees :
    Agrees (Visible · n) R (visitChildren i visit (.node n))
      (visitChildren i visit' (.node n)) := by
  intro s hs
  obtain ⟨hlater, hgiven⟩ := L.childrenOf_spec hchild hs
  rw [visitChildren, visitChildren, perform_bind, perform_bind]
  cases hcs : (childrenOf i (.node n)).perform s with
  | mk r t =>
    rw [hcs] at hlater
    cases r with
    | error fault => exact ⟨rfl, hlater⟩
    | ok cs =>
      obtain ⟨hsame, hlater'⟩ := L.forM_agrees Child hstable hvisit cs t (hgiven cs t hcs)
      exact ⟨hsame, L.later.trans hlater hlater'⟩

include hstable hchild hvisit in
/-- Going on below a visible node agrees if the visits of its children do. -/
theorem descend_agrees :
    Agrees (Visible · n) R (descend i visit (.node n)) (descend i visit' (.node n)) :=
  L.descendTo_agrees L.stable (fun _ hs => (L.childrenOf_spec hchild hs).1)
    (L.visitChildren_agrees Child hstable hchild hvisit) slack

end Child

/-- With a guard that lets every visible node through, a visit of a visible node is what it is
without the guard; and it takes the store to a later one. -/
theorem visitGuarded_agrees (guard : Value → Edit Unit)
    (hguard : ∀ {s n}, Visible s n → (guard (.node n)).perform s = (.ok (), s)) :
    ∀ (d : Nat) (n : NodeId),
      Agrees (Visible · n) R (visitTo i d (.node n)) (visitGuarded guard i d (.node n))
  | 0, n => by
    intro s hs
    rw [visitTo, visitGuarded, perform_bind, hguard hs]
    exact ⟨rfl, L.later.refl s⟩
  | d + 1, n => by
    have hdescend := L.descend_agrees (n := n) Visible L.stable L.child
      (visitGuarded_agrees guard hguard d)
    intro s hs
    rw [visitTo_succ, visitGuarded_succ, perform_bind_ok (hguard hs)]
    exact L.dispatch_agrees L.stable (fun _ hs => (L.childrenOf_spec L.child hs).1) hdescend s hs

/-- With a guard that lets every child through, given whose child it is, a visit of a visible node
is what it is without the guard. What `Child n` says of a child of `n` is to hold once it is
computed, and for good. -/
theorem visitTracked_agrees (guard : (container child : Value) → Edit Unit)
    (Child : NodeId → Store → NodeId → Prop)
    (hstable : ∀ {n s t c}, Child n s c → R s t → Child n t c)
    (hchild : ∀ {n s t policy cs}, Visible s n →
      (Edit.children n policy).perform s = (.ok cs, t) → ∀ c ∈ cs, Child n t c)
    (hvisible : ∀ {n s c}, Child n s c → Visible s c)
    (hguard : ∀ {n s c}, Child n s c → (guard (.node n) (.node c)).perform s = (.ok (), s)) :
    ∀ (d : Nat) (n : NodeId),
      Agrees (Visible · n) R (visitTo i d (.node n)) (visitTracked guard i d (.node n))
  | 0, n => .of_moves (moves_throw L.later _)
  | d + 1, n => by
    rw [visitTo_succ, visitTracked]
    refine L.dispatch_agrees L.stable (fun _ hs => (L.childrenOf_spec L.child hs).1)
      (L.descend_agrees (Child n) hstable hchild fun c s hc => ?_)
    rw [perform_bind_ok (hguard hc)]
    exact visitTracked_agrees guard Child hstable hchild hvisible hguard d c s (hvisible hc)

/-- A visit of a visible node takes the store to a later one. -/
theorem moves_visitTo (d : Nat) {s : Store} (hn : Visible s n) :
    R s ((visitTo i d (.node n)).perform s).2 :=
  (L.visitGuarded_agrees (fun _ => pure ()) (fun _ => rfl) d n s hn).2

/-! Where every node is visible nothing needs to be known of what is visited, not even that it is a
node. -/

section Anything

variable (hall : ∀ s n, Visible s n)
include hall

theorem moves_childrenOf (v : Value) : Moves R (childrenOf i v) := by
  refine moves_bind L.later (moves_tryRead L.later _) fun _ => ?_
  refine moves_bind L.later (L.toAsking.moves_policy i) fun p => ?_
  cases v with
  | node n => exact fun s => L.children p (hall s n)
  | _ => exact moves_bind L.later (moves_read L.later _) fun _ => moves_throw L.later _

theorem moves_descend {visit : Value → Edit Unit} (hvisit : ∀ v, Moves R (visit v)) (v : Value) :
    Moves R (descend i visit v) := by
  have hchildren := L.moves_childrenOf hall v
  have hbelow : Moves R (visitChildren i visit v) :=
    moves_bind L.later hchildren fun cs => moves_forM L.later (fun c => hvisit (.node c)) cs
  have hagrees := L.descendTo_agrees (P := fun _ => True) (fun _ _ => trivial)
    (fun s _ => hchildren s) (.of_moves hbelow) slack
  exact fun s => (hagrees s trivial).2

/-- A visit of anything takes the store to a later one. -/
theorem moves_visitAny : ∀ (d : Nat) (v : Value), Moves R (visitTo i d v)
  | 0, _ => moves_throw L.later _
  | d + 1, v => by
    have hdescend := L.moves_descend hall (moves_visitAny d) v
    have hagrees := L.dispatch_agrees (P := fun _ => True) (fun _ _ => trivial)
      (fun s _ => L.moves_childrenOf hall v s) (.of_moves hdescend)
    exact fun s => (hagrees s trivial).2

end Anything

end Progress

end Linter

end SheetLint
