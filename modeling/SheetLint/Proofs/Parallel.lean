import SheetLint.Proofs.Abreast

/-!
# Edits on stores abreast

An edit that only looks at what stores abreast have in common, and only writes what does not lead to
the list in which they differ, does the same in both: it gives the same result or the same fault and
leaves stores abreast. `Edit.Parallel` says so, along with what is known of the result, and follows
the shape of the edit. Computing the children of a node is of that sort (`Edit.parallel_children`).
-/

namespace SheetLint

namespace Store

variable {L : ListId} {s t : Store} {n : NodeId} {x : Node}

/-- Writing a node that does not lead to the list keeps all nodes from leading to it. -/
theorem Shuns.setNode (h : s.Shuns L) (hx : ∀ v ∈ x.held, v.Avoids L) :
    (s.setNode n x).Shuns L where
  held m := by
    rw [node_setNode]
    split
    · exact hx
    · exact h.held m
  list := h.list
  table := h.table
  agent := h.agent

/-- So does making one. -/
theorem Shuns.addNode (h : s.Shuns L) (hx : ∀ v ∈ x.held, v.Avoids L) : (s.addNode x).Shuns L where
  held m := by
    rw [node_addNode]
    split
    · exact hx
    · exact h.held m
  list := h.list
  table := h.table
  agent := h.agent

namespace Abreast

variable (h : s.Abreast L t)
include h

theorem setNode (n : NodeId) (hx : ∀ v ∈ x.held, v.Avoids L) :
    (s.setNode n x).Abreast L (t.setNode n x) :=
  { h with
    nodes := by rw [Store.setNode, Store.setNode, h.nodes]
    shuns := h.shuns.setNode hx }

theorem addNode (hx : ∀ v ∈ x.held, v.Avoids L) : (s.addNode x).Abreast L (t.addNode x) :=
  { h with
    nodes := by rw [Store.addNode, Store.addNode, h.nodes]
    shuns := h.shuns.addNode hx }

theorem note (m : Message) : (s.note m).Abreast L (t.note m) :=
  { h with
    log := by
      rw [Store.note, Store.note, List.filter_append, List.filter_append, h.log]
    shuns := ⟨h.shuns.held, h.shuns.list, h.shuns.table, h.shuns.agent⟩ }

/-- Writing the same parent keeps stores abreast. -/
theorem setParent (n self : NodeId) :
    (s.setParent (.node n) (.node self)).Abreast L (t.setParent (.node n) (.node self)) := by
  rw [Store.setParent, Store.setParent, h.node]
  refine h.setNode n fun v hv => h.shuns.held n v ?_
  simp only [Node.held, Node.fields, List.mem_append, Backref.held, List.not_mem_nil,
    or_false] at hv ⊢
  rcases hv with (hv | hv) | hv
  · exact Or.inl (Or.inl (Or.inl hv))
  · exact Or.inl (Or.inl (Or.inr hv))
  · exact Or.inr hv

/-- The parts of a completed location are parts of one of the two. -/
theorem fill (c self : NodeId) : (s.fill c self).Abreast L (t.fill c self) := by
  have hboth (a b : Value) (ha : a.Avoids L) (hb : b.Avoids L) :
      (if a.isNull then b else a).Avoids L := by
    split
    · exact hb
    · exact ha
  have hown := h.shuns.position (n := c)
  have hself := h.shuns.position (n := self)
  rw [Store.fill, Store.fill, h.isExpression, h.node, h.node]
  split
  · refine h.setNode c fun v hv => ?_
    simp only [Node.held, Node.fields, Node.nodeClass, List.mem_append, List.map_append,
      List.map_cons, List.map_nil] at hv
    rcases hv with (((hv | hv) | hv) | hv) | hv
    · simp only [List.mem_cons, List.not_mem_nil, or_false] at hv
      unfold Position.completed at hv
      split at hv
      · rcases hv with rfl | rfl | rfl
        · exact hself.1
        · exact hboth _ _ hown.2.1 hself.2.1
        · exact hboth _ _ hown.2.2 hself.2.2
      · rcases hv with rfl | rfl | rfl
        · exact hown.1
        · exact hown.2.1
        · exact hown.2.2
    all_goals
      refine h.shuns.held c v ?_
      simp only [Node.held, Node.fields, Node.nodeClass, List.mem_append, List.map_append]
    · exact Or.inl (Or.inl (Or.inl (Or.inr hv)))
    · exact Or.inl (Or.inl (Or.inr hv))
    · exact Or.inl (Or.inr hv)
    · exact Or.inr hv
  · exact h

end Abreast

end Store

namespace Edit

variable {α β : Type} {L : ListId}

/-- On stores abreast the edit gives the same result or fault and leaves stores abreast. Of a result
`Q` holds. -/
def Parallel (L : ListId) (x : Edit α) (Q : α → Prop) : Prop :=
  ∀ ⦃s t : Store⦄, s.Abreast L t → (x.perform t).1 = (x.perform s).1 ∧
    (x.perform s).2.Abreast L (x.perform t).2 ∧ ∀ a, (x.perform s).1 = .ok a → Q a

/-- The edit only reads what stores abreast have in common. -/
theorem parallel_tryRead {f : Store → Except Fault α} {Q : α → Prop}
    (hf : ∀ s t, s.Abreast L t → f t = f s)
    (hQ : ∀ s t, s.Abreast L t → ∀ a, f s = .ok a → Q a) : Parallel L (tryRead f) Q := by
  intro s t h
  rw [perform_tryRead, perform_tryRead]
  exact ⟨hf s t h, h, hQ s t h⟩

theorem parallel_read {f : Store → α} {Q : α → Prop} (hf : ∀ s t, s.Abreast L t → f t = f s)
    (hQ : ∀ s t, s.Abreast L t → Q (f s)) : Parallel L (read f) Q := by
  intro s t h
  rw [perform_read, perform_read]
  exact ⟨congrArg Except.ok (hf s t h), h, fun a ha => by cases ha; exact hQ s t h⟩

theorem parallel_pure {a : α} {Q : α → Prop} (ha : Q a) : Parallel L (pure a) Q :=
  fun _ _ h => ⟨rfl, h, fun b hb => by cases hb; exact ha⟩

theorem parallel_modify {f : Store → Store} (hf : ∀ s t, s.Abreast L t → (f s).Abreast L (f t)) :
    Parallel L (modify f) fun _ => True :=
  fun s t h => ⟨rfl, hf s t h, fun _ _ => trivial⟩

/-- A sequence runs in parallel if both of its parts do, the second on all results of the first. -/
theorem parallel_bind {x : Edit α} {f : α → Edit β} {Q : α → Prop} {R : β → Prop}
    (hx : Parallel L x Q) (hf : ∀ a, Q a → Parallel L (f a) R) : Parallel L (x >>= f) R := by
  intro s t h
  obtain ⟨hresult, hkept, hQ⟩ := hx h
  rw [perform_bind, perform_bind]
  cases hs : x.perform s with
  | mk r s' =>
    cases ht : x.perform t with
    | mk r' t' =>
      rw [hs, ht] at hresult hkept
      obtain rfl : r' = r := hresult
      cases r' with
      | error fault => exact ⟨rfl, hkept, fun b hb => by cases hb⟩
      | ok a => exact hf a (hQ a (by rw [hs])) hkept

/-- Of the result nothing need be known. -/
theorem parallel_weaken {x : Edit α} {Q : α → Prop} (hx : Parallel L x Q) :
    Parallel L x fun _ => True :=
  fun _ _ h => ⟨(hx h).1, (hx h).2.1, fun _ _ => trivial⟩

theorem parallel_forM {f : β → Edit PUnit} : ∀ {bs : List β},
    (∀ b ∈ bs, Parallel L (f b) fun _ => True) → Parallel L (bs.forM f) fun _ => True
  | [], _ => parallel_pure trivial
  | b :: bs, h => by
    rw [forM_cons]
    exact parallel_bind (h b (List.mem_cons_self ..)) fun _ _ =>
      parallel_forM fun c hc => h c (List.mem_cons_of_mem _ hc)

/-- So does a loop that collects results. -/
theorem parallel_mapM {f : α → Edit β} {Q : β → Prop} : ∀ {as : List α},
    (∀ a ∈ as, Parallel L (f a) Q) → Parallel L (as.mapM f) fun bs => ∀ b ∈ bs, Q b
  | [], _ => by
    rw [List.mapM_nil]
    exact parallel_pure (List.forall_mem_nil _)
  | a :: as, h => by
    rw [List.mapM_cons]
    exact parallel_bind (h a (List.mem_cons_self ..)) fun b hb =>
      parallel_bind (parallel_mapM fun c hc => h c (List.mem_cons_of_mem _ hc)) fun bs hbs =>
        parallel_pure (List.forall_mem_cons.mpr ⟨hb, hbs⟩)

/-! ## Collecting children -/

variable {self : NodeId}

theorem parallel_fill (v : Value) : Parallel L (fill v (.node self)) fun _ => True := by
  cases v with
  | node c => exact parallel_modify fun s t h => h.fill c self
  | _ => exact parallel_pure trivial

theorem parallel_fillArguments {args : Value} (hargs : args.Avoids L) :
    Parallel L (fillArguments args (.node self)) fun _ => True := by
  refine parallel_bind (parallel_tryRead (Q := fun _ => True) (fun s t h => h.items hargs)
    fun _ _ _ _ _ => trivial) fun xs _ => parallel_forM fun x _ => ?_
  exact parallel_bind (parallel_tryRead (Q := fun _ => True) (fun _ _ _ => rfl)
    fun _ _ _ _ _ => trivial) fun v _ => parallel_fill v

/-- One part of the location of a node. -/
theorem parallel_part {part : String} (hpart : part ∉ Store.agentNames)
    (hread : ∀ s : Store, ∃ v ∈ (s.node self).held,
      s.getAttribute (.node self) part = s.orMissing (.node self) part (some v)) :
    Parallel L (tryRead (·.getAttribute (.node self) part)) (Value.Avoids L) := by
  refine parallel_tryRead (fun s t h => h.getAttribute _ hpart) fun s t h w hw => ?_
  obtain ⟨v, hv, hget⟩ := hread s
  rw [hget] at hw
  rw [← Store.orMissing_ok hw]
  exact h.shuns.held self v hv

/-- The same variable is made in stores abreast. -/
theorem parallel_newVariable {name : Value} (hname : name.Avoids L) :
    Parallel L (newVariable name (.node self)) fun _ => True := by
  refine parallel_bind (parallel_part (by decide) fun s =>
    ⟨_, by simp [Node.held, Node.fields], s.getAttribute_line self⟩) fun line hline => ?_
  refine parallel_bind (parallel_part (by decide) fun s =>
    ⟨_, by simp [Node.held, Node.fields], s.getAttribute_column self⟩) fun column hcolumn => ?_
  refine parallel_bind (parallel_part (by decide) fun s =>
    ⟨_, by simp [Node.held, Node.fields], s.getAttribute_filename self⟩) fun file hfile => ?_
  intro s t h
  rw [perform_newNode, perform_newNode, Store.nextNode, Store.nextNode, h.nodes]
  refine ⟨rfl, h.addNode fun v hv => ?_, fun _ _ => trivial⟩
  have hcases : v = line ∨ v = column ∨ v = file ∨ v = name := by
    simpa [Node.held, Node.fields, Node.nodeClass, Form.nodeClass, Expression.nodeClass,
      NodeClass.fieldNames, Form.fields, Expression.fields, Backref.held,
      show NodeClass.variable.info.fields.map (·.1) = ["name"] from rfl] using hv
  rcases hcases with rfl | rfl | rfl | rfl
  · exact hline
  · exact hcolumn
  · exact hfile
  · exact hname

theorem parallel_newVariables {names : List Value} (hnames : ∀ x ∈ names, x.Avoids L) :
    Parallel L (newVariables names self) fun _ => True :=
  parallel_weaken (parallel_mapM fun x hx => parallel_newVariable (hnames x hx))

theorem parallel_keywordPairs {entries : Table}
    (hentries : ∀ e ∈ entries, e.1.Avoids L ∧ e.2.Avoids L) :
    Parallel L (keywordPairs entries self) fun pairs => ∀ p ∈ pairs, p.2.Avoids L :=
  parallel_mapM fun e he => parallel_bind (parallel_newVariable (hentries e he).1) fun _ _ =>
    parallel_pure (hentries e he).2

/-! The children of a statement, in the order in which they are listed. -/

theorem parallel_base (n : NodeId) : Parallel L (tryRead (·.base n)) fun _ => True :=
  parallel_tryRead (fun _ _ h => h.base n) fun _ _ _ _ _ => trivial

theorem parallel_flat {xs : List Value} (hxs : ∀ x ∈ xs, x.Avoids L) :
    Parallel L (tryRead (·.flattenAll xs)) fun _ => True :=
  parallel_tryRead (fun _ _ h => h.flattenAll hxs) fun _ _ _ _ _ => trivial

theorem parallel_scripts {v : Value} (hv : v.Avoids L) :
    Parallel L (tryRead (·.scripts v)) fun _ => True :=
  parallel_tryRead (fun _ _ h => h.scripts hv) fun _ _ _ _ _ => trivial

theorem parallel_callable (n : NodeId) (method : String) :
    Parallel L (tryRead (·.callable (.node n) method)) fun _ => True :=
  parallel_tryRead (fun _ _ h => h.callable n method) fun _ _ _ _ _ => trivial

/-- What is listed after the structural children. -/
theorem parallel_listed {x : Edit (List NodeId)} {f : List NodeId → List NodeId → List NodeId}
    (hx : Parallel L x fun _ => True) :
    Parallel L (do let before ← tryRead (·.base self); return f before (← x)) fun _ => True :=
  parallel_bind (parallel_base self) fun _ _ => parallel_bind hx fun _ _ => parallel_pure trivial

/-- Collecting what a statement lists runs in parallel on stores abreast, since nothing that it
reads leads to the list. The forms that only flatten what is in a field are alike. -/
theorem parallel_collectStatement {st : Statement} (hst : ∀ v ∈ st.fields, v.Avoids L) :
    Parallel L (collectStatement (Early.filling self) self st) fun _ => True := by
  have flat {xs : List Value} (hxs : ∀ x ∈ xs, x ∈ st.fields) :
      Parallel L (tryRead (·.flattenAll xs)) fun _ => True :=
    parallel_flat fun x hx => hst x (hxs x hx)
  have scripts {v : Value} (hv : v ∈ st.fields) :
      Parallel L (tryRead (·.scripts v)) fun _ => True :=
    parallel_scripts (hst v hv)
  have arguments {v : Value} (hv : v ∈ st.fields) :
      Parallel L (fillArguments v (.node self)) fun _ => True :=
    parallel_fillArguments (hst v hv)
  cases st with
  | rule selector => exact parallel_listed (scripts (by simp [Statement.fields]))
  | comment body style => exact parallel_listed (scripts (by simp [Statement.fields]))
  | extend selector isOptional => exact parallel_listed (scripts (by simp [Statement.fields]))
  | carrier c expr => exact parallel_listed (flat (by simp [Statement.fields]))
  | assignment expr name guarded isGlobal =>
    exact parallel_listed (flat (by simp [Statement.fields]))
  | ifElse expr otherwise => exact parallel_listed (flat (by simp [Statement.fields]))
  | prop name value =>
    exact parallel_bind (parallel_base self) fun _ _ =>
      parallel_bind (scripts (by simp [Statement.fields])) fun _ _ =>
        parallel_bind (parallel_fill value) fun _ _ =>
          parallel_bind (flat (by simp [Statement.fields])) fun _ _ => parallel_pure trivial
  | each vars list =>
    have hvars : vars.Avoids L := hst vars (by simp [Statement.fields])
    refine parallel_bind (parallel_tryRead (fun _ _ h => h.items hvars)
      fun _ _ h _ hi => h.shuns.items hvars hi) fun names hnames => ?_
    exact parallel_bind (parallel_newVariables hnames) fun _ _ =>
      parallel_listed (flat (by simp [Statement.fields]))
  | forLoop var first last exclusive =>
    exact parallel_bind (parallel_base self) fun _ _ =>
      parallel_bind (parallel_newVariable (hst var (by simp [Statement.fields]))) fun _ _ =>
        parallel_bind (flat (by simp [Statement.fields])) fun _ _ => parallel_pure trivial
  | callable isFunction name args splat =>
    exact parallel_bind (arguments (by simp [Statement.fields])) fun _ _ =>
      parallel_listed (flat (by simp [Statement.fields]))
  | mixinDef name args splat hasContent =>
    exact parallel_bind (arguments (by simp [Statement.fields])) fun _ _ =>
      parallel_listed (flat (by simp [Statement.fields]))
  | mixin name args keywords splat keywordSplat =>
    refine parallel_bind (arguments (by simp [Statement.fields])) fun _ _ => ?_
    refine parallel_bind (parallel_tryRead (fun _ _ h => h.keywords keywords (by decide))
      fun _ _ h _ hk => h.shuns.keywords hk) fun entries hentries => ?_
    refine parallel_bind (parallel_keywordPairs hentries) fun pairs hpairs => ?_
    refine parallel_listed (parallel_flat fun x hx => ?_)
    simp only [List.mem_cons, List.mem_append, List.mem_flatMap, List.not_mem_nil,
      or_false] at hx
    rcases hx with (rfl | ⟨p, hp, rfl | rfl⟩) | rfl | rfl
    · exact hst _ (by simp [Statement.fields])
    · simp [Value.Avoids, Value.cells]
    · exact hpairs p hp
    · exact hst _ (by simp [Statement.fields])
    · exact hst _ (by simp [Statement.fields])
  | directive value =>
    exact parallel_bind (parallel_base self) fun _ _ =>
      parallel_bind (parallel_callable self _) fun _ _ =>
        parallel_bind (scripts (by simp [Statement.fields])) fun _ _ => parallel_pure trivial
  | media value query =>
    exact parallel_bind (parallel_base self) fun _ _ =>
      parallel_bind (parallel_callable self _) fun _ _ =>
        parallel_bind (parallel_scripts (Value.avoids_of_cells rfl)) fun _ _ =>
          parallel_pure trivial
  | supports value name condition =>
    exact parallel_bind (parallel_base self) fun _ _ =>
      parallel_bind (parallel_callable self _) fun _ _ =>
        parallel_bind (parallel_scripts (Value.avoids_of_cells rfl)) fun _ _ =>
          parallel_pure trivial
  | _ => exact parallel_base self

/-- Collecting children runs in parallel, whatever the form of the node. -/
theorem parallel_collect (n : NodeId) :
    Parallel L (collectWith (Early.filling n) n) fun _ => True := by
  refine parallel_bind (parallel_read (Q := fun x => ∀ v ∈ x.form.fields, v.Avoids L)
    (fun _ _ h => h.node n) fun _ _ h => h.shuns.field) fun x hx => ?_
  cases hf : x.form with
  | statement ch st =>
    rw [hf] at hx
    exact parallel_collectStatement fun v hv => hx v (List.mem_cons_of_mem _ hv)
  | bare => exact parallel_base n
  | expression e => exact parallel_base n

/-! ## Attaching children -/

/-- Attaching meets the same parent in both stores, and fails in both or in none. -/
theorem attach_abreast {s t : Store} (h : s.Abreast L t) (c self : NodeId) (policy : ParentPolicy) :
    (∃ fault, s.attach (.node c) (.node self) policy = .error fault ∧
      t.attach (.node c) (.node self) policy = .error fault) ∨
    ∃ s' t', s.attach (.node c) (.node self) policy = .ok s' ∧
      t.attach (.node c) (.node self) policy = .ok t' ∧ s'.Abreast L t' := by
  simp only [Store.attach, Store.backref, bind, Except.bind, h.node, h.referent]
  cases s.referent (s.node c).parent with
  | error fault => exact Or.inl ⟨fault, rfl, rfl⟩
  | ok found =>
    cases found with
    | none => exact Or.inr ⟨_, _, rfl, rfl, h.setParent c self⟩
    | some current =>
      simp only
      split
      · exact Or.inr ⟨_, _, rfl, rfl, h⟩
      · cases policy with
        | strict =>
          simp only [h.secondParent]
          cases s.secondParent (.node c) current with
          | error fault => exact Or.inl ⟨fault, rfl, rfl⟩
          | ok fault => exact Or.inl ⟨fault, rfl, rfl⟩
        | refresh =>
          simp only [h.reparented]
          cases s.reparented (.node c) current (.node self) with
          | error fault => exact Or.inl ⟨fault, rfl, rfl⟩
          | ok m => exact Or.inr ⟨_, _, rfl, rfl, (h.note m).setParent c self⟩

/-- Attaching a child runs in parallel, with the same message or fault. -/
theorem parallel_attach (c self : NodeId) (policy : ParentPolicy) :
    Parallel L (attach (.node c) (.node self) policy) fun _ => True := by
  intro s t h
  rw [attach, perform_change, perform_change]
  rcases attach_abreast h c self policy with ⟨fault, hs, ht⟩ | ⟨s', t', hs, ht, hkept⟩
  · rw [hs, ht]
    exact ⟨rfl, h, fun _ _ => trivial⟩
  · rw [hs, ht]
    exact ⟨rfl, hkept, fun _ _ => trivial⟩

theorem parallel_children (n : NodeId) (policy : ParentPolicy) :
    Parallel L (children n policy) fun _ => True := by
  refine parallel_bind (parallel_callable n _) fun _ _ =>
    parallel_bind (parallel_callable n _) fun _ _ =>
      parallel_bind (parallel_collect n) fun cs _ => ?_
  refine parallel_bind (parallel_forM fun c _ => ?_) fun _ _ => parallel_pure trivial
  exact parallel_bind (parallel_modify fun _ _ h => h.fill c n) fun _ _ =>
    parallel_attach c n policy

end Edit

end SheetLint
