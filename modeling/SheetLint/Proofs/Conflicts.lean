import SheetLint.Proofs.Adopt

/-!
# Where conflicts come from

A conflict is the fault of a node that has another parent already. It comes from attaching and from
nowhere else: no attribute, list or nest that is read fails with one, whatever there is in the
store, and so neither does collecting children (`Edit.isPeaceful_collectWith`).
-/

namespace SheetLint

/-- Whether a fault says that a node has another parent already. -/
def Fault.isConflict : Fault → Bool
  | .secondParent .. => true
  | _ => false

/-- A result that is there or fails with something other than a conflict. -/
def IsPeaceful {α : Type} (x : Except Fault α) : Prop :=
  ∀ fault, x = .error fault → fault.isConflict = false

namespace IsPeaceful

variable {α β : Type} {x : Except Fault α}

theorem ok (a : α) : IsPeaceful (.ok a : Except Fault α) := fun _ h => by cases h

theorem error {fault : Fault} (h : fault.isConflict = false) :
    IsPeaceful (.error fault : Except Fault α) := by
  rintro _ ⟨⟩
  exact h

theorem fault {fault : Fault} (h : IsPeaceful (.error fault : Except Fault α)) :
    fault.isConflict = false :=
  h fault rfl

theorem map (h : IsPeaceful x) (f : α → β) : IsPeaceful (x.map f) := by
  cases x with
  | error fault => exact .error h.fault
  | ok a => exact .ok _

end IsPeaceful

namespace Store

variable (s : Store)

/-! ## Attributes -/

theorem isPeaceful_orMissing (v : Value) (name : String) (found : Option Value) :
    IsPeaceful (s.orMissing v name found) := by
  unfold orMissing
  split
  · exact .error rfl
  · exact .ok _
  · exact .error rfl

theorem isPeaceful_referent (r : Backref) : IsPeaceful (s.referent r) := by
  cases r with
  | other v => exact .error rfl
  | _ => exact .ok _

theorem isConflict_callFault (v : Value) (name : String) {found : Except Fault Value}
    (h : IsPeaceful found) : (s.callFault v name found).isConflict = false := by
  unfold callFault
  split
  · exact h.fault
  · rfl
  · rfl

/-- Asking for an attribute of a node meets no conflict, given that asking further meets none. -/
theorem isPeaceful_nodeAttribute {ask : Value → String → Except Fault Value}
    (hask : ∀ v name, IsPeaceful (ask v name)) (n : NodeId) (name : String) :
    IsPeaceful (s.nodeAttribute ask n name) := by
  unfold nodeAttribute parent?
  simp only
  split
  · exact (s.isPeaceful_referent _).map _
  · unfold underscored
    split
    · exact .ok _
    · exact .error (s.isConflict_callFault _ _ (hask _ _))
  · exact .ok _
  · exact .ok _
  · exact .ok _
  · exact .ok _
  · exact .ok _
  · exact s.isPeaceful_orMissing _ _ _

/-- So it is with an attribute of an agent. -/
theorem isPeaceful_agentAttribute {ask : Value → String → Except Fault Value}
    (hask : ∀ v name, IsPeaceful (ask v name)) (i : AgentId) (name : String) :
    IsPeaceful (s.agentAttribute ask i name) := by
  unfold agentAttribute
  split
  · exact .error rfl
  · split
    · split
      · exact .ok _
      · exact hask _ _
    · exact s.isPeaceful_orMissing _ _ _
    · exact .ok _
    · exact .ok _
    · exact s.isPeaceful_orMissing _ _ _
    · exact s.isPeaceful_orMissing _ _ _

/-- No attribute fails with a conflict, however far the chain of settings goes. -/
theorem isPeaceful_attributeAlong : ∀ (chain : Nat) (v : Value) (name : String),
    IsPeaceful (s.attributeAlong chain v name)
  | 0, _, _ => .error rfl
  | chain + 1, v, name => by
    have hask := isPeaceful_attributeAlong chain
    cases v with
    | node n => exact s.isPeaceful_nodeAttribute hask n name
    | agent i => exact s.isPeaceful_agentAttribute hask i name
    | missing owner lost => exact .error rfl
    | _ => exact s.isPeaceful_orMissing _ _ _

theorem isPeaceful_getAttribute (v : Value) (name : String) : IsPeaceful (s.getAttribute v name) :=
  s.isPeaceful_attributeAlong _ v name

theorem isPeaceful_callable (v : Value) (method : String) : IsPeaceful (s.callable v method) := by
  unfold callable
  split
  · exact .ok _
  · exact .error rfl

/-! ## Lists and nests -/

theorem isPeaceful_items (v : Value) : IsPeaceful (s.items v) := by
  unfold items
  split
  · exact .ok _
  · exact .ok _
  · exact .ok _
  · exact .ok _
  · exact .error rfl
  · exact .error rfl

theorem isPeaceful_keywords (v : Value) (wanted : String) : IsPeaceful (s.keywords v wanted) := by
  unfold keywords
  split
  · exact .ok _
  · exact .error (s.isConflict_callFault _ _ (s.isPeaceful_getAttribute _ _))

theorem isPeaceful_scripts (v : Value) : IsPeaceful (s.scripts v) := by
  unfold scripts
  split
  · exact .ok _
  · exact (s.isPeaceful_items v).map _

/-- A value that cannot be printed is no conflict. -/
theorem isPeaceful_tryQuoted (v : Value) : IsPeaceful (s.tryQuoted v) := by
  unfold tryQuoted
  split
  · rename_i fault hfault
    refine .error ?_
    rcases printFaultTo_cases hfault with rfl | ⟨_, owner, name, rfl⟩ <;> rfl
  · exact .ok _

/-- Whatever flattening complains about is no conflict. -/
theorem isPeaceful_flattenAll (xs : List Value) : IsPeaceful (s.flattenAll xs) := by
  unfold flattenAll
  split
  · exact .ok _
  · rename_i stray _
    refine .error ?_
    cases stray with
    | endless => rfl
    | leaf v =>
      have hquoted := s.isPeaceful_tryQuoted v
      rw [strayFault]
      cases hq : s.tryQuoted v with
      | error fault => exact hquoted fault hq
      | ok text => rfl

/-! ## Structural children -/

theorem isPeaceful_operands (e : Expression) : IsPeaceful (s.operands e) := by
  cases e with
  | funcall name args keywords splat keywordSplat =>
    rw [operands]
    split
    · rename_i hlost
      cases args <;> cases hlost
      exact .error rfl
    · exact (s.isPeaceful_keywords _ _).map _
  | list elements separator => exact (s.isPeaceful_items _).map _
  | map pairs => exact (s.isPeaceful_items _).map _
  | _ => exact .ok _

theorem isPeaceful_structural (n : NodeId) : IsPeaceful (s.structural n) := by
  unfold structural
  split
  · rename_i fault h
    exact .error (s.isPeaceful_callable _ _ fault h)
  · cases (s.node n).form with
    | bare => exact .ok _
    | expression e => exact s.isPeaceful_operands e
    | statement children _ => exact (s.isPeaceful_items _).map _

theorem isPeaceful_base (n : NodeId) : IsPeaceful (s.base n) := by
  unfold base
  split
  · rename_i fault h
    exact .error (s.isPeaceful_structural n fault h)
  · exact s.isPeaceful_flattenAll _

end Store

/-! ## Collecting -/

namespace Edit

open Store

variable {α β : Type}

/-- An edit that does not fail with a conflict, whatever store it runs on. -/
def IsPeaceful (e : Edit α) : Prop :=
  ∀ s, SheetLint.IsPeaceful (e.perform s).1

theorem isPeaceful_pure (a : α) : IsPeaceful (pure a) := fun _ => .ok _

theorem isPeaceful_tryRead {f : Store → Except Fault α} (h : ∀ s, SheetLint.IsPeaceful (f s)) :
    IsPeaceful (tryRead f) := by
  intro s
  rw [perform_tryRead]
  exact h s

/-- A sequence is peaceful if both of its parts are. -/
theorem isPeaceful_bind {x : Edit α} {f : α → Edit β} (hx : IsPeaceful x)
    (hf : ∀ a, IsPeaceful (f a)) : IsPeaceful (x >>= f) := by
  intro s
  have hs := hx s
  rw [perform_bind]
  cases hr : x.perform s with
  | mk r t =>
    rw [hr] at hs
    cases r with
    | error fault => exact .error hs.fault
    | ok a => exact hf a t

theorem isPeaceful_forM {f : β → Edit PUnit} (hf : ∀ b, IsPeaceful (f b)) :
    ∀ bs : List β, IsPeaceful (bs.forM f)
  | [] => fun _ => .ok _
  | b :: bs => by
    rw [forM_cons]
    exact isPeaceful_bind (hf b) fun _ => isPeaceful_forM hf bs

theorem isPeaceful_mapM {f : β → Edit α} (hf : ∀ b, IsPeaceful (f b)) :
    ∀ bs : List β, IsPeaceful (bs.mapM f)
  | [] => isPeaceful_pure _
  | b :: bs => by
    rw [List.mapM_cons]
    exact isPeaceful_bind (hf b) fun _ =>
      isPeaceful_bind (isPeaceful_mapM hf bs) fun _ => isPeaceful_pure _

theorem isPeaceful_newVariable (name : Value) (n : NodeId) :
    IsPeaceful (newVariable name (.node n)) := by
  have hread : ∀ part, IsPeaceful (tryRead (·.getAttribute (.node n) part)) := fun part =>
    isPeaceful_tryRead fun s => s.isPeaceful_getAttribute _ part
  exact isPeaceful_bind (hread _) fun _ => isPeaceful_bind (hread _) fun _ =>
    isPeaceful_bind (hread _) fun _ _ => .ok _

theorem isPeaceful_fill (v : Value) (n : NodeId) : IsPeaceful (fill v (.node n)) := by
  intro s
  rw [perform_fill]
  exact .ok _

theorem isPeaceful_fillArguments (args : Value) (n : NodeId) :
    IsPeaceful (fillArguments args (.node n)) := by
  refine isPeaceful_bind (isPeaceful_tryRead fun s => s.isPeaceful_items args) fun xs =>
    isPeaceful_forM (fun x => ?_) xs
  refine isPeaceful_bind (isPeaceful_tryRead fun _ => ?_) fun v => isPeaceful_fill v n
  unfold argumentName
  split
  · exact .error rfl
  · exact .ok _
  · exact .ok _

/-- Collecting what a statement lists attaches nothing, and so it does not fail with a conflict.
Every form is a sequence of reading, completing locations and making variables. -/
theorem isPeaceful_collectStatement (n : NodeId) (st : Statement) :
    IsPeaceful (collectStatement (Early.filling n) n st) := by
  have base : IsPeaceful (tryRead (·.base n)) := isPeaceful_tryRead fun s => s.isPeaceful_base n
  have flat : ∀ xs, IsPeaceful (tryRead (·.flattenAll xs)) := fun xs =>
    isPeaceful_tryRead fun s => s.isPeaceful_flattenAll xs
  have scripts : ∀ v, IsPeaceful (tryRead (·.scripts v)) := fun v =>
    isPeaceful_tryRead fun s => s.isPeaceful_scripts v
  have append : ∀ {x y : Edit (List NodeId)}, IsPeaceful x → IsPeaceful y →
      IsPeaceful (do return (← x) ++ (← y)) := fun hx hy =>
    isPeaceful_bind hx fun _ => isPeaceful_bind hy fun _ => isPeaceful_pure _
  have valued : ∀ v, IsPeaceful (do
      let before ← tryRead (·.base n)
      tryRead (·.callable (.node n) "directive_value")
      return before ++ (← tryRead (·.scripts v))) := fun v =>
    isPeaceful_bind base fun _ =>
      isPeaceful_bind (isPeaceful_tryRead fun s => s.isPeaceful_callable _ _) fun _ =>
        isPeaceful_bind (scripts v) fun _ => isPeaceful_pure _
  have arguments : ∀ args splat, IsPeaceful (do
      fillArguments args (.node n)
      return (← tryRead (·.base n)) ++ (← tryRead (·.flattenAll [args, splat]))) :=
    fun args splat => isPeaceful_bind (isPeaceful_fillArguments args n) fun _ =>
      append base (flat _)
  cases st with
  | rule selector => exact append base (scripts selector)
  | prop name value =>
    exact isPeaceful_bind base fun _ => isPeaceful_bind (scripts name) fun _ =>
      isPeaceful_bind (isPeaceful_fill value n) fun _ =>
        isPeaceful_bind (flat [value]) fun _ => isPeaceful_pure _
  | comment body style => exact append base (scripts body)
  | carrier c expr => exact append base (flat _)
  | assignment expr name guarded isGlobal => exact append base (flat _)
  | ifElse expr otherwise => exact append base (flat _)
  | each vars list =>
    refine isPeaceful_bind (isPeaceful_tryRead fun s => s.isPeaceful_items vars) fun names => ?_
    refine isPeaceful_bind (isPeaceful_mapM (fun x => isPeaceful_newVariable x n) names) fun _ => ?_
    exact isPeaceful_bind base fun _ => isPeaceful_bind (flat _) fun _ => isPeaceful_pure _
  | forLoop var first last exclusive =>
    exact isPeaceful_bind base fun _ => isPeaceful_bind (isPeaceful_newVariable var n) fun _ =>
      isPeaceful_bind (flat _) fun _ => isPeaceful_pure _
  | callable isFunction name args splat => exact arguments args splat
  | mixinDef name args splat hasContent => exact arguments args splat
  | mixin name args keywords splat keywordSplat =>
    refine isPeaceful_bind (isPeaceful_fillArguments args n) fun _ => ?_
    refine isPeaceful_bind (isPeaceful_tryRead fun s => s.isPeaceful_keywords keywords _)
      fun t => ?_
    refine isPeaceful_bind (isPeaceful_mapM (fun e => ?_) t) fun _ =>
      isPeaceful_bind base fun _ => isPeaceful_bind (flat _) fun _ => isPeaceful_pure _
    exact isPeaceful_bind (isPeaceful_newVariable e.1 n) fun _ => isPeaceful_pure _
  | extend selector isOptional => exact append base (scripts selector)
  | directive value => exact valued value
  | media value query => exact valued .null
  | supports value name condition => exact valued .null
  | _ => exact base

/-- Collecting the children of a node never fails with a conflict. -/
theorem isPeaceful_collectWith (n : NodeId) : IsPeaceful (collectWith (Early.filling n) n) := by
  refine isPeaceful_bind (fun _ => .ok _) fun x => ?_
  split
  · exact isPeaceful_collectStatement n _
  · exact isPeaceful_tryRead fun s => s.isPeaceful_base n

end Edit

end SheetLint
