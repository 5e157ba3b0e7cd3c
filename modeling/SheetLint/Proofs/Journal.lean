import SheetLint.Document
import SheetLint.Proofs.Reached
import SheetLint.Proofs.Visits

/-!
# Journals

What happens in the course of an operation cannot be told from its outcome: which values a linter
visits, which children are attached on the way, and when a parent is let go. `Told` is an edit that
keeps a journal of that. The operations that compute children, walk and run linters are written down
again here with an entry wherever something of the sort happens; everything else they do is taken as
it is (`Told.silently`).

Keeping a journal makes no difference: each of these operations does what the one without a journal
does, `Told.Tells` (`visitTo_tells`, `run_tells`, `walk_tells`).
-/

namespace SheetLint

/-- Something that happens in the course of an operation, with the store at that moment. -/
inductive Event where
  /-- A value is visited. -/
  | visited (v : Value) (s : Store)
  /-- It is tried to attach a child to a parent. -/
  | tried (child parent : NodeId) (policy : ParentPolicy) (s : Store)
  /-- Some things are not in use any more: no node refers to them as its parent from now on. -/
  | lost (gone : Cell → Bool) (s : Store)

namespace Event

/-- The store at the moment of an event. -/
def store : Event → Store
  | visited _ s => s
  | tried _ _ _ s => s
  | lost _ s => s

/-- The value that is visited, with the store. -/
def visit? : Event → Option (Value × Store)
  | visited v s => some (v, s)
  | _ => none

end Event

/-- The visits among events, in order. -/
def visitsOf (events : List Event) : List (Value × Store) :=
  events.filterMap Event.visit?

@[simp] theorem visitsOf_append (es fs : List Event) :
    visitsOf (es ++ fs) = visitsOf es ++ visitsOf fs :=
  List.filterMap_append

/-- What an operation comes to: what happened in its course, its outcome, and the store
afterwards. -/
structure Account (α : Type) where
  events : List Event
  outcome : Except Fault α
  store : Store

/-- An edit that keeps a journal. -/
def Told (α : Type) := Store → Account α

namespace Told

variable {α β : Type}

instance : Monad Told where
  pure a := fun s => ⟨[], .ok a, s⟩
  bind x f := fun s =>
    match x s with
    | ⟨es, .ok a, t⟩ => ⟨es ++ (f a t).events, (f a t).outcome, (f a t).store⟩
    | ⟨es, .error fault, t⟩ => ⟨es, .error fault, t⟩

/-- An edit in whose course nothing happens that is of interest. -/
def silently (e : Edit α) : Told α := fun s => ⟨[], (e.perform s).1, (e.perform s).2⟩

/-- An entry in the journal. -/
def note (event : Store → Event) : Told Unit := fun s => ⟨[event s], .ok (), s⟩

/-! ## Trees -/

/-- `Edit.attach` of nodes. -/
def attach (child parent : NodeId) (policy : ParentPolicy) : Told Unit := do
  note (.tried child parent policy)
  silently (Edit.attach (.node child) (.node parent) policy)

/-- `Edit.adopt`. -/
def adopt (self : NodeId) (policy : ParentPolicy) (child : NodeId) : Told Unit := do
  silently (modify (·.fill child self))
  attach child self policy

/-- `Edit.children`. -/
def children (self : NodeId) (policy : ParentPolicy) : Told (List NodeId) := do
  silently (Edit.tryRead (·.callable (.node self) "traversal_children"))
  silently (Edit.tryRead (·.callable (.node self) "_collect_children"))
  let cs ← silently (Edit.collectWith (Edit.Early.filling self) self)
  cs.forM (adopt self policy)
  return cs

/-- `Edit.childrenOf`. -/
def childrenOf (v : Value) (policy : ParentPolicy) : Told (List NodeId) :=
  match v with
  | .node n => children n policy
  | _ => silently (Edit.childrenOf v policy)

/-- `Walk.fromStack`: whether nothing was left to visit. -/
def walkFrom (policy : ParentPolicy) : (limit : Nat) → (stack : List NodeId) → Told Bool
  | 0, _ => return false
  | _ + 1, [] => return true
  | 1, n :: _ => do
    note (.visited (.node n))
    return false
  | k + 2, n :: rest => do
    note (.visited (.node n))
    let cs ← children n policy
    walkFrom policy (k + 1) (cs ++ rest)

/-- `Walk.start`. -/
def walk (policy : ParentPolicy) (limit : Nat) (root : Value) : Told Bool :=
  match root with
  | .node n => walkFrom policy limit [n]
  | _ =>
    match limit with
    | 0 => return false
    | 1 => do
      note (.visited root)
      return false
    | _ => do
      note (.visited root)
      silently do throw (.notANode (← Edit.read (·.typeName root)))

end Told

namespace Account

/-- What was visited by a walk, and how it ended. -/
def walk (a : Account Bool) : Walk where
  visits := visitsOf a.events
  finish :=
    match a.outcome with
    | .ok true => .done
    | .ok false => .limit
    | .error fault => .failed fault
  store := a.store

end Account

namespace Told

/-! ## Linters -/

variable (i : AgentId)

/-- `Linter.childrenOf`. -/
def childrenFor (v : Value) : Told (List NodeId) := do
  let _ ← silently (Edit.tryRead (·.getAttribute v "traversal_children"))
  let p ← silently (Linter.policy i)
  match v with
  | .node n => children n p
  | _ => silently (Edit.onNode v "traversal_children" fun n => Edit.children n p)

/-- `Linter.visitChildren`. -/
def visitChildren (visit : Value → Told Unit) (v : Value) : Told Unit := do
  let cs ← childrenFor i v
  cs.forM fun c => visit (.node c)

mutual

/-- `Linter.act`. -/
def act (descend : Value → Told Unit) (v : Value) : Action → Told Unit
  | .lint description place fixable => silently do
    let target ← match place with
      | none => pure v
      | some parts => Edit.locationOfItems parts
    let _ ← Linter.record i target description fixable
  | .descend => descend v
  | .whenAttribute name expected body => do
    let found ← silently (Edit.attributeOf v name)
    let wanted ← silently (Edit.tryRead fun _ => expected)
    if ← silently (Edit.read (·.same found wanted)) then actAll descend v body
  | .whenParent kind body => do
    let parent ← silently (Edit.tryRead (·.getAttribute v "parent"))
    if !parent.isNull then
      let found ← silently (Edit.tryRead (·.getAttribute parent "kind"))
      if ← silently (Edit.read (·.same found kind)) then actAll descend v body
  | .duplicates among => do
    let cs ← childrenFor i v
    let s ← silently get
    silently (Linter.recordDuplicates i (cs.filter fun c => (s.node c).nodeClass.derives among))
  | .fail fault => silently (throw fault)

/-- `Linter.actAll`. -/
def actAll (descend : Value → Told Unit) (v : Value) : List Action → Told Unit
  | [] => return
  | a :: rest => do
    act descend v a
    actAll descend v rest

end

/-- `Linter.descendTo`. -/
def descendTo (visit : Value → Told Unit) : (rounds : Nat) → Value → Told Unit
  | 0, _ => silently (throw .tooDeep)
  | r + 1, v => do
    silently (Edit.tryRead (·.callable (.agent i) "visit_children"))
    match ← silently (Edit.read (·.descentOf? i)) with
    | none => visitChildren i visit v
    | some actions => actAll i (descendTo visit r) v actions

/-- `Linter.descend`. -/
def descend (visit : Value → Told Unit) (v : Value) : Told Unit :=
  descendTo i visit Linter.slack v

/-- `Linter.dispatch`. -/
def dispatch (down : Value → Told Unit) (v : Value) : Told Unit := do
  silently (Edit.tryRead (·.callable (.agent i) "visit"))
  let kind ← silently (Edit.tryRead (·.kindOf v))
  let s ← silently get
  match (s.notes (.agent i)).lookup ("visit_" ++ kind), s.visitOf? i kind with
  | some .null, _ => down v
  | some w, _ => silently (throw (.notCallable (s.typeName w)))
  | none, none => down v
  | none, some actions => actAll i down v actions

/-- `Linter.visitTo`. -/
def visitTo : (depth : Nat) → Value → Told Unit
  | 0, v => do
    note (.visited v)
    silently (throw .tooDeep)
  | d + 1, v => do
    note (.visited v)
    dispatch i (descend i (visitTo d)) v

/-- `Linter.reset`. -/
def reset (file : Value) : Told Unit := do
  let before ← silently (Edit.read (·.runParts i))
  let list ← silently (Edit.newList [])
  silently (Edit.change fun s => s.setAttribute (.agent i) "_lints" (.list list))
  silently (Edit.change fun s => s.setAttribute (.agent i) "_filename" file)
  note fun s => .lost (s.leaves before) s
  silently (modify (·.release before))

/-- `Linter.run`. -/
def run (root file : Value) : Told (List Value) := do
  reset i file
  visitTo i (Linter.depth (← silently get)) root
  silently (Linter.recorded i)

/-- `Document.runOne`. -/
def runOne (linter root file : Value) : Told (List Value) := do
  let s ← silently get
  silently (Edit.tryRead (·.checkMethod linter "run"))
  match linter with
  | .agent i =>
    match s.agent? i with
    | some { role := .linter _, .. } => run i root file
    | some { role := .standIn x, .. } => silently (Edit.tryRead (·.items x.prepared))
    | _ => silently (throw (s.methodFault linter "run"))
  | _ => silently (throw (s.methodFault linter "run"))

/-! ## Keeping a journal makes no difference -/

section Perform

variable {x : Told α} {s t : Store} {es : List Event}

/-- A sequence whose first part gives a result. -/
theorem bind_ok {a : α} (h : x s = ⟨es, .ok a, t⟩) (f : α → Told β) :
    (x >>= f) s = ⟨es ++ (f a t).events, (f a t).outcome, (f a t).store⟩ := by
  simp only [bind, h]

/-- A sequence whose first part fails. -/
theorem bind_error {fault : Fault} (h : x s = ⟨es, .error fault, t⟩) (f : α → Told β) :
    (x >>= f) s = ⟨es, .error fault, t⟩ := by
  simp only [bind, h]

theorem note_bind (event : Store → Event) (x : Told α) (s : Store) :
    (note event >>= fun _ => x) s = ⟨event s :: (x s).events, (x s).outcome, (x s).store⟩ := rfl

end Perform

/-- An operation does what an edit does, and keeps a journal. -/
def Tells (x : Told α) (e : Edit α) : Prop :=
  ∀ s, e.perform s = ((x s).outcome, (x s).store)

theorem tells_pure (a : α) : Tells (pure a) (pure a) := fun _ => rfl

theorem tells_silently (e : Edit α) : Tells (silently e) e := fun _ => rfl

/-- A sequence tells what it does if both of its parts do. -/
theorem tells_bind {x : Told α} {e : Edit α} {f : α → Told β} {g : α → Edit β} (hx : Tells x e)
    (hf : ∀ a, Tells (f a) (g a)) : Tells (x >>= f) (e >>= g) := by
  intro s
  have hs := hx s
  rw [Edit.perform_bind, hs]
  cases h : x s with
  | mk es r t =>
    cases r with
    | error fault => rw [bind_error h]
    | ok a =>
      rw [bind_ok h]
      exact hf a t

/-- What comes after an entry is done all the same. -/
theorem tells_note {event : Store → Event} {x : Told α} {e : Edit α} (h : Tells x e) :
    Tells (note event >>= fun _ => x) e :=
  fun s => h s

theorem tells_forM {f : β → Told PUnit} {g : β → Edit PUnit} (h : ∀ b, Tells (f b) (g b)) :
    ∀ bs : List β, Tells (bs.forM f) (bs.forM g)
  | [] => tells_pure _
  | b :: bs => tells_bind (h b) fun _ => tells_forM h bs

/-! ### Trees -/

theorem attach_tells (child parent : NodeId) (policy : ParentPolicy) :
    Tells (attach child parent policy) (Edit.attach (.node child) (.node parent) policy) :=
  tells_note (tells_silently _)

theorem adopt_tells (self : NodeId) (policy : ParentPolicy) (child : NodeId) :
    Tells (adopt self policy child) (Edit.adopt self policy child) :=
  tells_bind (tells_silently _) fun _ => attach_tells child self policy

theorem children_tells (self : NodeId) (policy : ParentPolicy) :
    Tells (children self policy) (Edit.children self policy) :=
  tells_bind (tells_silently _) fun _ => tells_bind (tells_silently _) fun _ =>
    tells_bind (tells_silently _) fun cs =>
      tells_bind (tells_forM (adopt_tells self policy) cs) fun _ => tells_pure cs

theorem childrenOf_tells (v : Value) (policy : ParentPolicy) :
    Tells (childrenOf v policy) (Edit.childrenOf v policy) := by
  cases v with
  | node n => exact children_tells n policy
  | _ => exact tells_silently _

/-! To compute children is not to visit anything. -/

/-- An operation in whose course nothing is visited. -/
def VisitsNothing (x : Told α) : Prop :=
  ∀ s, visitsOf (x s).events = []

theorem visitsNothing_silently (e : Edit α) : VisitsNothing (silently e) := fun _ => rfl

/-- A sequence visits nothing if none of its parts does. -/
theorem VisitsNothing.bind {x : Told α} {f : α → Told β} (hx : VisitsNothing x)
    (hf : ∀ a, VisitsNothing (f a)) : VisitsNothing (x >>= f) := by
  intro s
  have hs := hx s
  cases h : x s with
  | mk es r t =>
    rw [h] at hs
    cases r with
    | error fault =>
      rw [bind_error h]
      exact hs
    | ok a =>
      rw [bind_ok h, visitsOf_append, hs, hf a t]
      rfl

theorem VisitsNothing.forM {f : β → Told PUnit} (h : ∀ b, VisitsNothing (f b)) :
    ∀ bs : List β, VisitsNothing (bs.forM f)
  | [] => fun _ => rfl
  | b :: bs => (h b).bind fun _ => forM h bs

theorem adopt_visitsNothing (self : NodeId) (policy : ParentPolicy) (child : NodeId) :
    VisitsNothing (adopt self policy child) :=
  (visitsNothing_silently _).bind fun _ s => by
    rw [attach, note_bind]
    rfl

theorem children_visitsNothing (self : NodeId) (policy : ParentPolicy) :
    VisitsNothing (children self policy) :=
  (visitsNothing_silently _).bind fun _ => (visitsNothing_silently _).bind fun _ =>
    (visitsNothing_silently _).bind fun cs =>
      (VisitsNothing.forM (adopt_visitsNothing self policy) cs).bind fun _ _ => rfl

/-- A walk visits what the journal says, each value in the store that the journal says, and ends in
the same way. -/
theorem walkFrom_tells (policy : ParentPolicy) : ∀ (limit : Nat) (stack : List NodeId) (s : Store),
    (walkFrom policy limit stack s).walk = Walk.fromStack policy limit stack s
  | 0, _, _ => rfl
  | _ + 1, [], _ => rfl
  | 1, _ :: _, _ => rfl
  | k + 2, n :: rest, s => by
    have hchildren := children_tells n policy s
    have hvisits := children_visitsNothing n policy s
    rw [walkFrom, note_bind, Walk.fromStack, hchildren]
    cases h : children n policy s with
    | mk es r t =>
      rw [h] at hvisits
      cases r with
      | error fault =>
        rw [bind_error h]
        simp only [Account.walk, visitsOf, Event.visit?]
        exact congrArg (fun visits => (⟨_ :: visits, _, _⟩ : Walk)) hvisits
      | ok cs =>
        rw [bind_ok h]
        simp only
        rw [← walkFrom_tells policy (k + 1) (cs ++ rest) t]
        have hrest : visitsOf (.visited (.node n) s :: (es ++
            (walkFrom policy (k + 1) (cs ++ rest) t).events)) =
              (.node n, s) :: visitsOf (walkFrom policy (k + 1) (cs ++ rest) t).events := by
          show (Value.node n, s) :: visitsOf (es ++ _) = _
          rw [visitsOf_append, show visitsOf es = [] from hvisits, List.nil_append]
        simp only [Account.walk, Walk.visiting, hrest]

/-- The journal of a walk is kept beside it: the walk itself is the same. -/
theorem walk_tells (policy : ParentPolicy) (limit : Nat) (root : Value) (s : Store) :
    (walk policy limit root s).walk = Walk.start policy limit root s := by
  cases root with
  | node n => exact walkFrom_tells policy limit [n] s
  | _ =>
    match limit with
    | 0 => rfl
    | 1 => rfl
    | _ + 2 => rfl

/-! ### Linters -/

variable {i : AgentId}

theorem childrenFor_tells (v : Value) : Tells (childrenFor i v) (Linter.childrenOf i v) := by
  refine tells_bind (tells_silently _) fun _ => tells_bind (tells_silently _) fun p => ?_
  cases v with
  | node n => exact children_tells n p
  | _ => exact tells_silently _

section Down

variable {down : Value → Told Unit} {down' : Value → Edit Unit}

theorem visitChildren_tells (hdown : ∀ v, Tells (down v) (down' v)) (v : Value) :
    Tells (visitChildren i down v) (Linter.visitChildren i down' v) :=
  tells_bind (childrenFor_tells v) fun cs => tells_forM (fun c => hdown (.node c)) cs

mutual

/-- An action tells all that it does if going on below the value does, one case for each action. -/
theorem act_tells (hdown : ∀ v, Tells (down v) (down' v)) (v : Value) :
    ∀ a : Action, Tells (act i down v a) (Linter.act i down' v a)
  | .lint description none fixable => by
    rw [act, Linter.act]
    exact tells_silently _
  | .lint description (some parts) fixable => by
    rw [act, Linter.act]
    exact tells_silently _
  | .descend => by
    rw [act, Linter.act]
    exact hdown v
  | .whenAttribute name expected body => by
    rw [act, Linter.act]
    refine tells_bind (tells_silently _) fun found => tells_bind (tells_silently _) fun wanted =>
      tells_bind (tells_silently _) fun isSame => ?_
    cases isSame with
    | false => exact tells_pure _
    | true => exact actAll_tells hdown v body
  | .whenParent kind body => by
    rw [act, Linter.act]
    refine tells_bind (tells_silently _) fun parent => ?_
    split
    · refine tells_bind (tells_silently _) fun found => ?_
      refine tells_bind (tells_silently _) fun isSame => ?_
      cases isSame with
      | false => exact tells_pure _
      | true => exact actAll_tells hdown v body
    · exact tells_pure _
  | .duplicates among => by
    rw [act, Linter.act]
    exact tells_bind (childrenFor_tells v) fun cs => tells_bind (tells_silently _) fun s =>
      tells_silently _
  | .fail fault => by
    rw [act, Linter.act]
    exact tells_silently _

theorem actAll_tells (hdown : ∀ v, Tells (down v) (down' v)) (v : Value) :
    ∀ as : List Action, Tells (actAll i down v as) (Linter.actAll i down' v as)
  | [] => by
    rw [actAll, Linter.actAll]
    exact tells_pure _
  | a :: as => by
    rw [actAll, Linter.actAll]
    exact tells_bind (act_tells hdown v a) fun _ => actAll_tells hdown v as

end

theorem descendTo_tells (hdown : ∀ v, Tells (down v) (down' v)) : ∀ (rounds : Nat) (v : Value),
    Tells (descendTo i down rounds v) (Linter.descendTo i down' rounds v)
  | 0, _ => tells_silently _
  | r + 1, v => by
    refine tells_bind (tells_silently _) fun _ => tells_bind (tells_silently _) fun descent => ?_
    cases descent with
    | none => exact visitChildren_tells hdown v
    | some actions => exact actAll_tells (descendTo_tells hdown r) v actions

theorem descend_tells (hdown : ∀ v, Tells (down v) (down' v)) (v : Value) :
    Tells (descend i down v) (Linter.descend i down' v) :=
  descendTo_tells hdown Linter.slack v

/-- What is done at a value is told as it is done, by the method for its kind. -/
theorem dispatch_tells (hdown : ∀ v, Tells (down v) (down' v)) (v : Value) :
    Tells (dispatch i down v) (Linter.dispatch i down' v) := by
  refine tells_bind (tells_silently _) fun _ => tells_bind (tells_silently _) fun kind =>
    tells_bind (tells_silently _) fun s => ?_
  cases (s.notes (.agent i)).lookup ("visit_" ++ kind) with
  | none =>
    cases s.visitOf? i kind with
    | none => exact hdown v
    | some actions => exact actAll_tells hdown v actions
  | some w =>
    cases w with
    | null => exact hdown v
    | _ => exact tells_silently _

end Down

theorem visitTo_tells : ∀ (depth : Nat) (v : Value),
    Tells (visitTo i depth v) (Linter.visitTo i depth v)
  | 0, _ => tells_note (tells_silently _)
  | d + 1, v => by
    rw [visitTo, Linter.visitTo_succ]
    exact tells_note (dispatch_tells (descend_tells (visitTo_tells d)) v)

theorem reset_tells (file : Value) : Tells (reset i file) (Linter.reset i file) :=
  tells_bind (tells_silently _) fun _ => tells_bind (tells_silently _) fun _ =>
    tells_bind (tells_silently _) fun _ => tells_bind (tells_silently _) fun _ =>
      tells_note (tells_silently _)

theorem reset_visitsNothing (file : Value) : VisitsNothing (reset i file) :=
  (visitsNothing_silently _).bind fun _ => (visitsNothing_silently _).bind fun _ =>
    (visitsNothing_silently _).bind fun _ => (visitsNothing_silently _).bind fun _ s => by
      rw [note_bind]
      rfl

theorem run_tells (root file : Value) : Tells (run i root file) (Linter.run i root file) := by
  rw [run, Linter.run]
  simp only [Linter.visit, bind_assoc]
  exact tells_bind (reset_tells file) fun _ => tells_bind (tells_silently _) fun s =>
    tells_bind (visitTo_tells _ root) fun _ => tells_silently _

/-- The turn of a linter is told as it is taken. -/
theorem runOne_tells (linter root file : Value) :
    Tells (runOne linter root file) (Document.runOne linter root file) := by
  refine tells_bind (tells_silently _) fun s => tells_bind (tells_silently _) fun _ => ?_
  cases linter with
  | agent i =>
    simp only
    cases s.agent? i with
    | none => exact tells_silently _
    | some a =>
      obtain ⟨role, notes, parent, backing⟩ := a
      cases role with
      | linter l => exact run_tells root file
      | standIn x => exact tells_silently _
      | settings table policy => exact tells_silently _
  | _ => exact tells_silently _

end Told

/-! ## What holds along a journal -/

/-- A relation between two stores and what happens in between that nothing can leave that is done
when children are computed, trees walked and linters run. -/
structure Chronicle (R : Store → List Event → Store → Prop) : Prop where
  rest : ∀ s, R s [] s
  append : ∀ {s t u es fs}, R s es t → R t fs u → R s (es ++ fs) u
  visited : ∀ v s, R s [.visited v s] s
  tried : ∀ child parent policy s, R s [.tried child parent policy s]
    ((Edit.attach (.node child) (.node parent) policy).perform s).2
  lost : ∀ values s, R s [.lost (s.leaves values) s] (s.release values)
  fill : ∀ s c self, R s [] (s.fill c self)
  make : ∀ s self name, R s [] (s.addVariable self name)
  note : ∀ s m, R s [] (s.note m)
  mark : ∀ s, R s [] { s with marks := s.marks + 1 }
  list : ∀ s items, R s [] (s.addList items)
  table : ∀ s entries, R s [] (s.addTable entries)
  add : ∀ {s t list v}, s.append list v = .ok t → R s [] t
  assign : ∀ {s t i name v}, name ≠ "__dict__" →
    s.setAttribute (.agent i) name v = .ok t → R s [] t

namespace Chronicle

variable {R : Store → List Event → Store → Prop} (C : Chronicle R) {α β : Type} {i : AgentId}

/-- The relation holds of a store, what happens in the course of an operation, and the store
afterwards. -/
def Along (R : Store → List Event → Store → Prop) (x : Told α) : Prop :=
  ∀ s, R s (x s).events (x s).store

include C

/-- Where nothing happens that is of interest. -/
theorem later : Edit.IsLater fun s t => R s [] t where
  refl := C.rest
  trans := C.append

/-- All that a linter does beside computing children is of no interest. -/
theorem progress (i : AgentId) : Linter.Progress (fun s t => R s [] t) (fun _ _ => False) i where
  later := C.later
  note s m _ := C.note s m
  mark := C.mark
  list := C.list
  table := C.table
  stable h _ := h
  children _ h := h.elim
  child h _ := h.elim
  append h := C.add h

theorem of_pure (a : α) : Along R (pure a) := C.rest

omit C in
theorem of_silent {e : Edit α} (h : Edit.Moves (fun s t => R s [] t) e) :
    Along R (Told.silently e) := h

/-- What holds along both parts of a sequence holds along it. -/
theorem of_bind {x : Told α} {f : α → Told β} (hx : Along R x) (hf : ∀ a, Along R (f a)) :
    Along R (x >>= f) := by
  intro s
  have hfirst := hx s
  cases h : x s with
  | mk es r t =>
    rw [h] at hfirst
    cases r with
    | error fault =>
      rw [Told.bind_error h]
      exact hfirst
    | ok a =>
      rw [Told.bind_ok h]
      exact C.append hfirst (hf a t)

theorem of_forM {f : β → Told PUnit} (h : ∀ b, Along R (f b)) : ∀ bs : List β, Along R (bs.forM f)
  | [] => C.of_pure _
  | b :: bs => C.of_bind (h b) fun _ => of_forM h bs

theorem of_read (f : Store → α) : Along R (Told.silently (Edit.read f)) :=
  of_silent (Edit.moves_read C.later f)

theorem of_tryRead (f : Store → Except Fault α) : Along R (Told.silently (Edit.tryRead f)) :=
  of_silent (Edit.moves_tryRead C.later f)

theorem of_throw (fault : Fault) : Along R (Told.silently (throw fault : Edit α)) :=
  of_silent (Edit.moves_throw C.later fault)

/-- A failure that says what it failed at. -/
theorem of_throwRead (f : Store → Fault) :
    Along R (Told.silently (do throw (← Edit.read f) : Edit α)) :=
  of_silent (Edit.moves_bind C.later (Edit.moves_read C.later f)
    fun _ => Edit.moves_throw C.later _)

theorem of_visit {x : Told α} (v : Value) (hx : Along R x) :
    Along R (Told.note (.visited v) >>= fun _ => x) :=
  fun s => C.append (C.visited v s) (hx s)

/-! ### Trees -/

/-- Collecting children is silent: nothing happens that is told. -/
theorem collectWith (self : NodeId) :
    Edit.Moves (fun s t => R s [] t) (Edit.collectWith (Edit.Early.filling self) self) := by
  intro s
  have hspec := Edit.collectWith_spec s self
  cases h : (Edit.collectWith (Edit.Early.filling self) self).perform s with
  | mk r t =>
    rw [h] at hspec
    obtain ⟨filled, names, rfl, _⟩ := hspec.effect
    have hfilled : R s [] (s.fillAll self filled) :=
      Store.fillAll_keeps (fun _ => True) (fun u c hu _ => C.later.trans hu (C.fill u c self))
        filled (C.rest s) fun _ _ => trivial
    exact Store.addVariables_keeps (P := R s [])
      (fun u name hu => C.later.trans hu (C.make u self name)) names hfilled

theorem attach (child parent : NodeId) (policy : ParentPolicy) :
    Along R (Told.attach child parent policy) :=
  C.tried child parent policy

theorem children (self : NodeId) (policy : ParentPolicy) : Along R (Told.children self policy) := by
  have hfill (c : NodeId) : Edit.Moves (fun s t => R s [] t) (modify (·.fill c self) : Edit Unit) :=
    fun s => C.fill s c self
  exact C.of_bind (C.of_tryRead _) fun _ => C.of_bind (C.of_tryRead _) fun _ =>
    C.of_bind (of_silent (C.collectWith self)) fun cs =>
      C.of_bind
        (C.of_forM (fun c => C.of_bind (of_silent (hfill c)) fun _ => C.attach c self policy) cs)
        fun _ => C.of_pure cs

theorem childrenOf (v : Value) (policy : ParentPolicy) : Along R (Told.childrenOf v policy) := by
  cases v with
  | node n => exact C.children n policy
  | _ => exact C.of_throwRead _

theorem walkFrom (policy : ParentPolicy) : ∀ (limit : Nat) (stack : List NodeId),
    Along R (Told.walkFrom policy limit stack)
  | 0, _ => C.of_pure _
  | _ + 1, [] => C.of_pure _
  | 1, n :: _ => C.of_visit (.node n) (C.of_pure _)
  | k + 2, n :: rest => C.of_visit (.node n) (C.of_bind (C.children n policy) fun cs =>
      walkFrom policy (k + 1) (cs ++ rest))

/-- What holds along one step of a walk holds along the walk, wherever it is left. -/
theorem walk (policy : ParentPolicy) (limit : Nat) (root : Value) :
    Along R (Told.walk policy limit root) := by
  cases root with
  | node n => exact C.walkFrom policy limit [n]
  | _ =>
    match limit with
    | 0 => exact C.of_pure _
    | 1 => exact C.of_visit _ (C.of_pure _)
    | _ + 2 => exact C.of_visit _ (C.of_throwRead _)

/-! ### Linters -/

theorem childrenFor (v : Value) : Along R (Told.childrenFor i v) := by
  refine C.of_bind (C.of_tryRead _) fun _ =>
    C.of_bind (of_silent ((C.progress i).toAsking.moves_policy i)) fun p => ?_
  cases v with
  | node n => exact C.children n p
  | _ => exact C.of_throwRead _

section Down

variable {down : Value → Told Unit}

theorem visitChildren (hdown : ∀ v, Along R (down v)) (v : Value) :
    Along R (Told.visitChildren i down v) :=
  C.of_bind (C.childrenFor v) fun cs => C.of_forM (fun c => hdown (.node c)) cs

mutual

/-- What holds along all that is done below a value holds along an action at it, one case for each
action. -/
theorem act (hdown : ∀ v, Along R (down v)) (v : Value) :
    ∀ a : Action, Along R (Told.act i down v a)
  | .lint description none fixable => by
    rw [Told.act]
    exact of_silent (Edit.moves_bind C.later (Edit.moves_pure C.later _) fun _ =>
      Edit.moves_bind C.later ((C.progress i).moves_record _ _ _) fun _ =>
        Edit.moves_pure C.later _)
  | .lint description (some parts) fixable => by
    rw [Told.act]
    exact of_silent (Edit.moves_bind C.later
      ((C.progress i).toQuiet.moves_locationOfItems parts) fun _ =>
        Edit.moves_bind C.later ((C.progress i).moves_record _ _ _) fun _ =>
          Edit.moves_pure C.later _)
  | .descend => by
    rw [Told.act]
    exact hdown v
  | .whenAttribute name expected body => by
    rw [Told.act]
    refine C.of_bind (of_silent ((C.progress i).toQuiet.moves_attributeOf v name)) fun found =>
      C.of_bind (C.of_tryRead _) fun wanted => C.of_bind (C.of_read _) fun isSame => ?_
    cases isSame with
    | false => exact C.of_pure _
    | true => exact actAll hdown v body
  | .whenParent kind body => by
    rw [Told.act]
    refine C.of_bind (C.of_tryRead _) fun parent => ?_
    split
    · refine C.of_bind (C.of_tryRead _) fun found => C.of_bind (C.of_read _) fun isSame => ?_
      cases isSame with
      | false => exact C.of_pure _
      | true => exact actAll hdown v body
    · exact C.of_pure _
  | .duplicates among => by
    rw [Told.act]
    exact C.of_bind (C.childrenFor v) fun cs => C.of_bind (C.of_read id) fun s =>
      of_silent ((C.progress i).moves_recordDuplicates _)
  | .fail fault => by
    rw [Told.act]
    exact C.of_throw fault

theorem actAll (hdown : ∀ v, Along R (down v)) (v : Value) :
    ∀ as : List Action, Along R (Told.actAll i down v as)
  | [] => by
    rw [Told.actAll]
    exact C.of_pure _
  | a :: as => by
    rw [Told.actAll]
    exact C.of_bind (act hdown v a) fun _ => actAll hdown v as

end

theorem descendTo (hdown : ∀ v, Along R (down v)) : ∀ (rounds : Nat) (v : Value),
    Along R (Told.descendTo i down rounds v)
  | 0, _ => C.of_throw _
  | r + 1, v => by
    refine C.of_bind (C.of_tryRead _) fun _ => C.of_bind (C.of_read _) fun descent => ?_
    cases descent with
    | none => exact C.visitChildren hdown v
    | some actions => exact C.actAll (descendTo hdown r) v actions

/-- What holds along all that is done below a value holds along what is done at it. -/
theorem dispatch (hdown : ∀ v, Along R (down v)) (v : Value) :
    Along R (Told.dispatch i down v) := by
  refine C.of_bind (C.of_tryRead _) fun _ => C.of_bind (C.of_tryRead _) fun kind =>
    C.of_bind (C.of_read id) fun s => ?_
  cases (s.notes (.agent i)).lookup ("visit_" ++ kind) with
  | none =>
    cases s.visitOf? i kind with
    | none => exact hdown v
    | some actions => exact C.actAll hdown v actions
  | some w =>
    cases w with
    | null => exact hdown v
    | _ => exact C.of_throw _

end Down

theorem visitTo : ∀ (depth : Nat) (v : Value), Along R (Told.visitTo i depth v)
  | 0, v => C.of_visit v (C.of_throw _)
  | d + 1, v => by
    rw [Told.visitTo]
    exact C.of_visit v (C.dispatch (C.descendTo (visitTo d) Linter.slack) v)

theorem reset (file : Value) : Along R (Told.reset i file) := by
  have hlist : Edit.Moves (fun s t => R s [] t) (Edit.newList []) := fun s => C.list s []
  have hassign (name : String) (v : Value) (hname : name ≠ "__dict__") :
      Edit.Moves (fun s t => R s [] t) (Edit.change fun s => s.setAttribute (.agent i) name v) :=
    Edit.moves_change C.later fun _ _ h => C.assign hname h
  exact C.of_bind (C.of_read _) fun values => C.of_bind (of_silent hlist) fun list =>
    C.of_bind (of_silent (hassign _ _ (by decide))) fun _ =>
      C.of_bind (of_silent (hassign _ _ (by decide))) fun _ => C.lost values

theorem run (root file : Value) : Along R (Told.run i root file) :=
  C.of_bind (C.reset file) fun _ => C.of_bind (C.of_read id) fun _ =>
    C.of_bind (C.visitTo _ root) fun _ => C.of_tryRead _

/-- What holds along a run holds along the turn of a linter. -/
theorem runOne (linter root file : Value) : Along R (Told.runOne linter root file) := by
  refine C.of_bind (C.of_read id) fun s => C.of_bind (C.of_tryRead _) fun _ => ?_
  cases linter with
  | agent i =>
    simp only
    cases s.agent? i with
    | none => exact C.of_throw _
    | some a =>
      obtain ⟨role, notes, parent, backing⟩ := a
      cases role with
      | linter l => exact C.run root file
      | standIn x => exact C.of_tryRead _
      | settings table policy => exact C.of_throw _
  | _ => exact C.of_throw _

end Chronicle

end SheetLint
