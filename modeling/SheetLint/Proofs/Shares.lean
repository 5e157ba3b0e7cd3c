import SheetLint.Proofs.Rewalks

/-!
# What each class of nodes gives

The children of a node are read off its fields, and each class has one rule for each of its fields:
`NodeClass.shares` is the table of these rules. A field gives nothing, the node in it, the nodes of
a list, of a list of pairs or of a table, the expressions in the midst of plain text, or variables
that are made for bare names. The children of a node are what its fields give, one field after the
other, which is at once the order of the structural children, that come first, and that of the parts
that a statement adds to them.

`Share.Fits` is the shape that a field is declared to have. A node whose fields have their declared
shapes always has children, and these are the ones that the table tells: `children_by_class`.
-/

namespace SheetLint

namespace Value

/-- Nothing, or a node. -/
def IsOptional (v : Value) : Prop := v.isNull ∨ v.node?.isSome

/-- A node, and what may go with it. -/
def IsPair : Value → Prop
  | .tuple _ [a, b] => a.node?.isSome ∧ b.IsOptional
  | _ => False

instance : DecidablePred IsOptional := fun v =>
  inferInstanceAs (Decidable (v.isNull ∨ v.node?.isSome))

instance : DecidablePred IsPair := fun v => by
  unfold IsPair
  split <;> infer_instance

/-- The members of a pair. -/
def members : Value → List Value
  | .tuple _ xs => xs
  | _ => []

/-- The nodes among values, as children. -/
def nodeKids (vs : List Value) : List Kid :=
  vs.filterMap fun v => v.node?.map .node

end Value

/-- What a field gives to the children of its node. -/
inductive Share where
  /-- No child, whatever there is. -/
  | nothing
  /-- The node, if there is one. -/
  | one
  /-- The nodes of a list. -/
  | items
  /-- The nodes of a list of pairs. -/
  | pairs
  /-- The expressions of a list that may hold anything besides. -/
  | scripts
  /-- The nodes that are the values of a table. -/
  | values
  /-- A variable of that name. -/
  | variable
  /-- A variable for each name of a list. -/
  | variables
  /-- A variable for each key of a table, and after it the node that is the value. -/
  | keywords

namespace Share

/-- The shape that a field is declared to have. -/
def Fits (s : Store) : Share → Value → Prop
  | .nothing, _ => True
  | .one, v => v.IsOptional
  | .items, .list l => ∀ x ∈ s.list l, x.IsOptional
  | .pairs, .list l => ∀ x ∈ s.list l, x.IsPair
  | .scripts, .list _ => True
  | .values, .table k => ∀ v ∈ (s.table k).values, v.IsOptional
  | .variable, _ => True
  | .variables, .list _ => True
  | .keywords, .table k => ∀ v ∈ (s.table k).values, v.IsOptional
  | _, _ => False

/-- The children that a field gives. -/
def kids (s : Store) : Share → Value → List Kid
  | .one, v => Value.nodeKids [v]
  | .items, .list l => Value.nodeKids (s.list l)
  | .pairs, .list l => Value.nodeKids ((s.list l).flatMap Value.members)
  | .scripts, .list l =>
    Value.nodeKids ((s.list l).filter fun x => x.node?.any fun n => (s.node n).isScript)
  | .values, .table k => Value.nodeKids (s.table k).values
  | .variable, v => [.variable v]
  | .variables, .list l => (s.list l).map .variable
  | .keywords, .table k => (s.table k).flatMap fun e => .variable e.1 :: Value.nodeKids [e.2]
  | _, _ => []

instance (s : Store) (share : Share) (v : Value) : Decidable (share.Fits s v) := by
  unfold Fits
  split <;> infer_instance

end Share

/-- What the fields of a class give, in the order of the fields. -/
def NodeClass.shares : NodeClass → List Share
  | .bare => []
  | .script => []
  | .variable => [.nothing]
  | .literal => [.nothing]
  | .stringInterpolation => [.one, .one, .one]
  | .interpolation => [.one, .one, .one, .nothing, .nothing]
  | .funcall => [.nothing, .items, .values, .one, .one]
  | .listLiteral => [.items, .nothing]
  | .mapLiteral => [.pairs]
  | .operation => [.one, .nothing, .one]
  | .unaryOperation => [.nothing, .one]
  | .statement => [.items]
  | .root => [.items, .nothing]
  | .rule => [.items, .scripts]
  | .prop => [.items, .scripts, .one]
  | .comment => [.items, .scripts, .nothing]
  | .expr => [.items, .one]
  | .debug => [.items, .one]
  | .warn => [.items, .one]
  | .error => [.items, .one]
  | .returns => [.items, .one]
  | .whileLoop => [.items, .one]
  | .assignment => [.items, .one, .nothing, .nothing, .nothing]
  | .ifElse => [.items, .one, .one]
  | .each => [.items, .variables, .one]
  | .forLoop => [.items, .variable, .one, .one, .nothing]
  | .callable => [.items, .nothing, .pairs, .one]
  | .function => [.items, .nothing, .pairs, .one]
  | .mixinDef => [.items, .nothing, .pairs, .one, .nothing]
  | .mixin => [.items, .nothing, .items, .keywords, .one, .one]
  | .content => [.items]
  | .extend => [.items, .scripts, .nothing]
  | .importSheet => [.items, .nothing]
  | .importCss => [.items, .nothing, .nothing]
  | .charset => [.items, .nothing]
  | .directive => [.items, .scripts]
  | .media => [.items, .nothing, .nothing]
  | .supports => [.items, .nothing, .nothing, .nothing]
  | .atRoot => [.items, .nothing]
  | .keyframeRule => [.items, .nothing]

namespace Store

variable {s t : Store} {n c : NodeId}

/-- The children that the fields of a node give, one field after the other. -/
def shared (s : Store) (n : NodeId) : List Kid :=
  (List.zipWith (Share.kids s) (s.node n).nodeClass.shares (s.node n).form.fields).flatten

/-- The methods that the children of a node are asked for with. -/
def childMethods : List String :=
  ["traversal_children", "_collect_children", "structural_children", "directive_value"]

/-- A node whose fields have their declared shapes, and on which no attribute hides a method. -/
structure Declared (s : Store) (n : NodeId) : Prop where
  there : n < s.nodes.size
  fields : List.Forall₂ (Share.Fits s) (s.node n).nodeClass.shares (s.node n).form.fields
  unhidden : ∀ method ∈ childMethods, (s.node n).notes.lookup method = none

theorem Declared.callable (h : s.Declared n) {method : String} (hm : method ∈ childMethods) :
    s.callable (.node n) method = .ok () := by
  rw [Store.callable, notes, h.unhidden method hm]

/-! ## Nests of declared shapes -/

/-- What is nodes and absent values flattens to the nodes. -/
theorem flattenAllWith_optional (enter : ListId → Except Stray (List NodeId)) :
    ∀ {xs : List Value}, (∀ x ∈ xs, x.IsOptional) →
      Value.flattenAllWith enter xs = .ok (xs.filterMap Value.node?)
  | [], _ => rfl
  | x :: xs, h => by
    have ih := flattenAllWith_optional enter fun y hy => h y (List.mem_cons_of_mem _ hy)
    have hx := h x (List.mem_cons_self ..)
    cases x with
    | null =>
      rw [Value.flattenAllWith, ih]
      rfl
    | node m =>
      rw [Value.flattenAllWith, ih]
      rfl
    | _ => simp [Value.IsOptional, Value.isNull, Value.node?] at hx

/-- The members of a pair are nodes or absent. -/
theorem isOptional_of_mem_members {v x : Value} (h : v.IsPair) (hx : x ∈ v.members) :
    x.IsOptional := by
  unfold Value.IsPair at h
  split at h
  · rcases List.mem_cons.mp hx with rfl | hx
    · exact Or.inr h.1
    · rw [List.mem_singleton.mp hx]
      exact h.2
  · exact absurd h id

/-- A pair is flattened like its members. -/
theorem flattenAllWith_pairs (enter : ListId → Except Stray (List NodeId)) :
    ∀ {xs : List Value}, (∀ x ∈ xs, x.IsPair) →
      Value.flattenAllWith enter xs = .ok ((xs.flatMap Value.members).filterMap Value.node?)
  | [], _ => rfl
  | x :: xs, h => by
    have ih := flattenAllWith_pairs enter fun y hy => h y (List.mem_cons_of_mem _ hy)
    have hx := h x (List.mem_cons_self ..)
    have hmembers := flattenAllWith_optional enter fun y hy => isOptional_of_mem_members hx hy
    cases x with
    | tuple m ys =>
      rw [Value.flattenAllWith, ih, Value.flattenWith, List.flatMap_cons, List.filterMap_append]
      simp only [Value.members] at hmembers ⊢
      rw [hmembers]
    | _ => exact absurd hx id

theorem map_node_filterMap (vs : List Value) :
    (vs.filterMap Value.node?).map Kid.node = Value.nodeKids vs := by
  rw [Value.nodeKids, List.map_filterMap]

/-- Values that are nothing or nodes give the nodes. -/
theorem nested?_optional {xs : List Value} (h : ∀ x ∈ xs, x.IsOptional) :
    s.nested? xs = some (Value.nodeKids xs) := by
  rw [nested?, toOption_flattenAll, flattenAllWith_optional _ h, ← map_node_filterMap]
  rfl

theorem nested?_one {v : Value} (h : Share.one.Fits s v) :
    s.nested? [v] = some (Share.one.kids s v) :=
  nested?_optional fun _ hx => List.mem_singleton.mp hx ▸ h

/-- One value that is a list gives what its items give. -/
theorem nested?_list {l : ListId} {ns : List NodeId}
    (h : ∀ enter, Value.flattenAllWith enter (s.list l) = .ok ns) :
    s.nested? [.list l] = some (ns.map .node) := by
  have hlist : s.flattenList s.nesting l = .ok ns := h (s.flattenList s.lists.size)
  rw [nested?, toOption_flattenAll, Value.toOption_flattenAllWith_cons, Value.flattenWith, hlist]
  simp [Except.toOption, Value.flattenAllWith]

theorem nested?_items {v : Value} (h : Share.items.Fits s v) :
    s.nested? [v] = some (Share.items.kids s v) := by
  cases v with
  | list l =>
    rw [nested?_list fun enter => flattenAllWith_optional enter h, map_node_filterMap]
    rfl
  | _ => exact absurd h id

theorem nested?_paired {xs : List Value} (h : ∀ x ∈ xs, x.IsPair) :
    s.nested? xs = some (Value.nodeKids (xs.flatMap Value.members)) := by
  rw [nested?, toOption_flattenAll, flattenAllWith_pairs _ h, ← map_node_filterMap]
  rfl

theorem nested?_pairs {v : Value} (h : Share.pairs.Fits s v) :
    s.nested? [v] = some (Share.pairs.kids s v) := by
  cases v with
  | list l =>
    rw [nested?_list fun enter => flattenAllWith_pairs enter h, map_node_filterMap]
    rfl
  | _ => exact absurd h id

/-- Several nests are flattened one by one. -/
theorem nested?_join {us vs : List Value} {ks ls : List Kid} (hu : s.nested? us = some ks)
    (hv : s.nested? vs = some ls) : s.nested? (us ++ vs) = some (ks ++ ls) := by
  rw [nested?_append, hu, hv]
  rfl

theorem nested?_nil : s.nested? [] = some [] := rfl

theorem nested?_cons {v : Value} {vs : List Value} {ks ls : List Kid}
    (hv : s.nested? [v] = some ks) (hvs : s.nested? vs = some ls) :
    s.nested? (v :: vs) = some (ks ++ ls) :=
  nested?_join hv hvs

/-- The expressions in the midst of plain text are embedded in it. -/
theorem embedded?_scripts {v : Value} (h : Share.scripts.Fits s v) :
    s.embedded? v = some (Share.scripts.kids s v) := by
  cases v with
  | list l =>
    have hscripts : s.scripts (.list l) =
        .ok ((s.list l).filterMap fun x => x.node?.filter fun m => (s.node m).isScript) := by
      refine congrArg Except.ok (List.filterMap_congr fun x _ => ?_)
      cases x <;> rfl
    rw [embedded?, hscripts, Except.toOption, Option.map_some, Share.kids, Value.nodeKids,
      List.map_filterMap, List.filterMap_filter]
    refine congrArg some (List.filterMap_congr fun x _ => ?_)
    cases x with
    | node m =>
      by_cases hscript : (s.node m).isScript <;> simp [Value.node?, hscript]
    | _ => rfl
  | _ => exact absurd h id

/-- A table of keywords gives a variable and an expression for each of them. -/
theorem keyed?_optional : ∀ {es : Table}, (∀ v ∈ es.values, v.IsOptional) →
    s.keyed? es = some (es.flatMap fun e => .variable e.1 :: Value.nodeKids [e.2])
  | [], _ => rfl
  | e :: es, h => by
    have hone : s.nested? [e.2] = some (Value.nodeKids [e.2]) :=
      nested?_one (h e.2 (List.mem_cons_self ..))
    rw [keyed?, hone, keyed?_optional fun v hv => h v (List.mem_cons_of_mem _ hv)]
    rfl

/-- An argument of a declared shape has a name part. -/
theorem haveNames_of_forall : ∀ {xs : List Value}, (∀ x ∈ xs, x.IsOptional ∨ x.IsPair) →
    haveNames xs = some ()
  | [], _ => rfl
  | x :: xs, h => by
    have hname : (Edit.argumentName x).toOption.isSome := by
      cases x with
      | tuple m ys =>
        rcases h _ (List.mem_cons_self ..) with hx | hx
        · simp [Value.IsOptional, Value.isNull, Value.node?] at hx
        · cases ys with
          | nil => exact absurd hx id
          | cons y ys => rfl
      | _ => rfl
    obtain ⟨name, hname⟩ := Option.isSome_iff_exists.mp hname
    rw [haveNames, hname, Option.bind_some,
      haveNames_of_forall fun y hy => h y (List.mem_cons_of_mem _ hy)]

/-! ## The table of children, class by class -/

theorem structural?_of_operands (hn : s.Declared n) {ops : List Operand} {ks : List Kid}
    (hops : s.structuralIn (s.node n).form = .ok ops)
    (hks : s.nested? (ops.flatMap Operand.values) = some ks) : s.structural? n = some ks := by
  have hstructural : s.structural n = .ok ops := by
    rw [structural, hn.callable (by decide), hops]
  rw [structural?, base, hstructural]
  exact hks

@[simp] theorem flatMap_values_single (xs : List Value) :
    (xs.map Operand.single).flatMap Operand.values = xs := by
  induction xs with
  | nil => rfl
  | cons x xs ih => simp [Operand.values, ih]

/-- The structural children of an expression are what its fields give. -/
theorem operands_of_fits {e : Expression}
    (h : List.Forall₂ (Share.Fits s) e.nodeClass.shares e.fields) :
    ∃ ops, s.operands e = .ok ops ∧ s.nested? (ops.flatMap Operand.values) =
      some (List.zipWith (Share.kids s) e.nodeClass.shares e.fields).flatten := by
  cases e with
  | stringInterpolation before mid after =>
    obtain _ | ⟨hbefore, _ | ⟨hmid, _ | ⟨hafter, _⟩⟩⟩ := h
    exact ⟨_, rfl, (nested?_cons (nested?_one hbefore) (nested?_cons (nested?_one hmid)
      (nested?_cons (nested?_one hafter) nested?_nil))).trans rfl⟩
  | interpolation before mid after spaceBefore spaceAfter =>
    obtain _ | ⟨hbefore, _ | ⟨hmid, _ | ⟨hafter, _⟩⟩⟩ := h
    exact ⟨_, rfl, (nested?_cons (nested?_one hbefore) (nested?_cons (nested?_one hmid)
      (nested?_cons (nested?_one hafter) nested?_nil))).trans rfl⟩
  | funcall name args keywords splat keywordSplat =>
    obtain _ | ⟨_, _ | ⟨hargs, _ | ⟨hvalues, _ | ⟨hsplat, _ | ⟨hkeywordSplat, _⟩⟩⟩⟩⟩ := h
    cases args with
    | list l =>
      cases keywords with
      | table k =>
        exact ⟨_, rfl, (nested?_cons (nested?_items hargs) (nested?_join (nested?_optional hvalues)
          (nested?_cons (nested?_one hsplat)
            (nested?_cons (nested?_one hkeywordSplat) nested?_nil)))).trans rfl⟩
      | _ => exact absurd hvalues id
    | _ => exact absurd hargs id
  | list elements separator =>
    obtain _ | ⟨hitems, _⟩ := h
    cases elements with
    | list l =>
      refine ⟨_, rfl, ?_⟩
      rw [flatMap_values_single, nested?_optional hitems]
      exact congrArg some (List.append_nil _).symm
    | _ => exact absurd hitems id
  | map pairs =>
    obtain _ | ⟨hpairs, _⟩ := h
    cases pairs with
    | list l =>
      refine ⟨_, rfl, ?_⟩
      rw [flatMap_values_single, nested?_paired hpairs]
      exact congrArg some (List.append_nil _).symm
    | _ => exact absurd hpairs id
  | operation left operator right =>
    obtain _ | ⟨hleft, _ | ⟨_, _ | ⟨hright, _⟩⟩⟩ := h
    exact ⟨_, rfl, (nested?_cons (nested?_one hleft)
      (nested?_cons (nested?_one hright) nested?_nil)).trans rfl⟩
  | unary operator operand =>
    obtain _ | ⟨_, _ | ⟨hoperand, _⟩⟩ := h
    exact ⟨_, rfl, (nested?_cons (nested?_one hoperand) nested?_nil).trans rfl⟩
  | _ => exact ⟨[], rfl, rfl⟩

/-- Whatever defines a function or a mixin lists its parameters, all of which have names, and then
the one that takes the rest. -/
theorem parameters_of_fits {args splat : Value} (hargs : Share.pairs.Fits s args)
    (hsplat : Share.one.Fits s splat) :
    ((s.items args).toOption.bind fun xs => (haveNames xs).bind fun _ => s.nested? [args, splat]) =
      some (Share.pairs.kids s args ++ (Share.one.kids s splat ++ [])) := by
  cases args with
  | list l =>
    rw [nested?_cons (nested?_pairs hargs) (nested?_cons (nested?_one hsplat) nested?_nil), items,
      Except.toOption, Option.bind_some, haveNames_of_forall fun x hx => Or.inr (hargs x hx)]
    rfl
  | _ => exact absurd hargs id

/-- What a statement adds to its children is what its other fields give. -/
theorem ownKids_of_fits {st : Statement}
    (hvalue : s.callable (.node n) "directive_value" = .ok ())
    (h : List.Forall₂ (Share.Fits s) st.nodeClass.shares.tail st.fields) :
    s.ownKids n st =
      some (List.zipWith (Share.kids s) st.nodeClass.shares.tail st.fields).flatten := by
  have alone (ks : List Kid) : some ks = some [ks].flatten := by simp
  cases st with
  | rule selector =>
    obtain _ | ⟨hselector, _⟩ := h
    exact (embedded?_scripts hselector).trans (alone _)
  | prop name value =>
    obtain _ | ⟨hname, _ | ⟨hvalue, _⟩⟩ := h
    rw [ownKids, embedded?_scripts hname, nested?_one hvalue]
    exact congrArg (fun ks => some (_ ++ ks)) (List.append_nil _).symm
  | comment body style =>
    obtain _ | ⟨hbody, _⟩ := h
    exact (embedded?_scripts hbody).trans (alone _)
  | carrier c expr =>
    cases c <;>
    · obtain _ | ⟨hexpr, _⟩ := h
      exact (nested?_one hexpr).trans (alone _)
  | assignment expr name guarded isGlobal =>
    obtain _ | ⟨hexpr, _⟩ := h
    exact (nested?_one hexpr).trans (alone _)
  | ifElse expr otherwise =>
    obtain _ | ⟨hexpr, _ | ⟨hotherwise, _⟩⟩ := h
    exact (nested?_cons (nested?_one hexpr)
      (nested?_cons (nested?_one hotherwise) nested?_nil)).trans rfl
  | each vars list =>
    obtain _ | ⟨hvars, _ | ⟨hlist, _⟩⟩ := h
    cases vars with
    | list l =>
      rw [ownKids, nested?_one hlist]
      exact congrArg (fun ks => some (_ ++ ks)) (List.append_nil _).symm
    | _ => exact absurd hvars id
  | forLoop var first last exclusive =>
    obtain _ | ⟨_, _ | ⟨hfirst, _ | ⟨hlast, _⟩⟩⟩ := h
    rw [ownKids, nested?_cons (nested?_one hfirst) (nested?_cons (nested?_one hlast) nested?_nil)]
    rfl
  | callable isFunction name args splat =>
    cases isFunction <;>
    · obtain _ | ⟨_, _ | ⟨hargs, _ | ⟨hsplat, _⟩⟩⟩ := h
      exact (parameters_of_fits hargs hsplat).trans rfl
  | mixinDef name args splat hasContent =>
    obtain _ | ⟨_, _ | ⟨hargs, _ | ⟨hsplat, _⟩⟩⟩ := h
    exact (parameters_of_fits hargs hsplat).trans rfl
  | mixin name args keywords splat keywordSplat =>
    obtain _ | ⟨_, _ | ⟨hargs, _ | ⟨hkeywords, _ | ⟨hsplat, _ | ⟨hkeywordSplat, _⟩⟩⟩⟩⟩ := h
    cases args with
    | list l =>
      cases keywords with
      | table k =>
        rw [ownKids, items, nested?_items hargs, Store.keywords, nested?_cons (nested?_one hsplat)
          (nested?_cons (nested?_one hkeywordSplat) nested?_nil)]
        simp only [Except.toOption, Option.bind_eq_bind, Option.bind_some]
        rw [haveNames_of_forall fun x hx => Or.inl (hargs x hx), keyed?_optional hkeywords]
        exact congrArg some (List.append_assoc ..)
      | _ => exact absurd hkeywords id
    | _ => exact absurd hargs id
  | extend selector isOptional =>
    obtain _ | ⟨hselector, _⟩ := h
    exact (embedded?_scripts hselector).trans (alone _)
  | directive value =>
    obtain _ | ⟨hscripts, _⟩ := h
    rw [ownKids, hvalue]
    exact (embedded?_scripts hscripts).trans (alone _)
  | media value query =>
    rw [ownKids, hvalue]
    rfl
  | supports value name condition =>
    rw [ownKids, hvalue]
    rfl
  | _ => rfl

/-- The children of a node whose fields have their declared shapes are what these give. -/
theorem kids_of_declared (hn : s.Declared n) : s.kids n = some (s.shared n) := by
  have hlisted : s.kids n = s.listed n := by
    rw [kids, hn.callable (by decide), hn.callable (by decide)]
    rfl
  have hfits := hn.fields
  rw [hlisted, listed, shared]
  cases hf : (s.node n).form with
  | bare =>
    have hops : s.structuralIn (s.node n).form = .ok [] := by
      rw [hf]
      rfl
    rw [structural?_of_operands hn hops nested?_nil]
    simp [Node.nodeClass, hf, Form.fields]
  | expression e =>
    simp only [Node.nodeClass, hf, Form.nodeClass, Form.fields] at hfits ⊢
    obtain ⟨ops, hops, hks⟩ := operands_of_fits hfits
    rw [structural?_of_operands hn (by rw [hf]; exact hops) hks]
    rfl
  | statement ch st =>
    simp only [Node.nodeClass, hf, Form.nodeClass, Form.fields] at hfits ⊢
    have hshares : st.nodeClass.shares = .items :: st.nodeClass.shares.tail := by
      cases st with
      | carrier c expr => cases c <;> rfl
      | callable isFunction name args splat => cases isFunction <;> rfl
      | _ => rfl
    rw [hshares] at hfits ⊢
    obtain _ | ⟨hchildren, hown⟩ := hfits
    cases ch with
    | list l =>
      have hops : s.structuralIn (s.node n).form = .ok ((s.list l).map .single) := by
        rw [hf]
        rfl
      have hks : s.nested? (((s.list l).map Operand.single).flatMap Operand.values) =
          some (Share.items.kids s (.list l)) := by
        rw [flatMap_values_single]
        exact nested?_optional hchildren
      rw [structural?_of_operands hn hops hks, ownKids_of_fits (hn.callable (by decide)) hown]
      rfl
    | _ => exact absurd hchildren id

/-! ## Nothing stands in the way -/

/-- A node that can be attached to another one: what it refers to, if anything, is a node, and no
part of its location was lost. -/
structure Attachable (s : Store) (c : NodeId) : Prop where
  present : (s.node c).position.Present
  parent : s.parent? c = .ok none ∨ ∃ p, s.parent? c = .ok (some (.node p))

/-- That is a matter of the location and the reference alone. -/
theorem Attachable.of_node (h : s.Attachable c) (hpresent : (t.node c).position.Present)
    (hsame : (t.node c).parent = (s.node c).parent) : t.Attachable c :=
  ⟨hpresent, h.parent.imp (parent?_congr hsame).mpr (Exists.imp fun _ => (parent?_congr hsame).mpr)⟩

/-- Attaching a node that can be attached goes through under the refreshing policy. -/
theorem Attachable.exists_attach (h : s.Attachable c) (n : NodeId) :
    ∃ t, s.attach (.node c) (.node n) .refresh = .ok t := by
  cases ha : s.attach (.node c) (.node n) .refresh with
  | ok t => exact ⟨t, rfl⟩
  | error fault =>
    rcases attach_fails ha with herror | ⟨current, hcurrent, _, ⟨hstrict, _⟩ | ⟨_, herror⟩⟩
    · rcases h.parent with hnone | ⟨p, hsome⟩
      · exact absurd (herror.symm.trans hnone) (by simp)
      · exact absurd (herror.symm.trans hsome) (by simp)
    · exact absurd hstrict (by simp)
    · -- what is logged about the two parents can be told
      obtain ⟨p, rfl⟩ : ∃ p, current = .node p := by
        rcases h.parent with hnone | ⟨p, hsome⟩
        · exact absurd (hcurrent.symm.trans hnone) (by simp)
        · exact ⟨p, by simpa using hcurrent.symm.trans hsome⟩
      exact absurd ((s.reparented_node h.present.1 p n).symm.trans herror) (by simp)

/-- A store in which whatever may be a child of `n` can be attached to it. -/
structure Offering (Child : NodeId → Prop) (n : NodeId) (s : Store) : Prop where
  self : (s.node n).position.Present
  child : ∀ c, Child c → s.Attachable c

namespace Offering

variable {Child : NodeId → Prop}

/-- All children can still be attached after the location of one was completed. -/
theorem fill (h : s.Offering Child n) (c : NodeId) : (s.fill c n).Offering Child n where
  self := by
    rw [node_fill]
    split
    · rename_i hc
      rw [← hc.1]
      exact h.self.completed h.self
    · exact h.self
  child d hd := by
    refine (h.child d hd).of_node ?_ (parent_fill s c n d)
    rw [node_fill]
    split
    · rename_i hc
      rw [← hc.1]
      exact (h.child d hd).present.completed h.self
    · exact (h.child d hd).present

/-- So they can after a variable was made. -/
theorem addVariable (h : s.Offering Child n) (name : Value) :
    (s.addVariable n name).Offering Child n where
  self := by
    rw [Store.addVariable, node_addNode]
    split <;> exact h.self
  child d hd := by
    by_cases hnew : d = s.nodes.size
    · have hmade : (s.addVariable n name).node d =
          { position := (s.node n).position, form := .expression (.variable name) } := by
        rw [Store.addVariable, node_addNode, if_pos hnew]
      refine ⟨?_, Or.inl (parent?_eq_none.mpr (Or.inl ?_))⟩
      · rw [hmade]
        exact h.self
      · rw [hmade]
    · have hkept : (s.addVariable n name).node d = s.node d := by
        rw [Store.addVariable, node_addNode, if_neg hnew]
      refine (h.child d hd).of_node ?_ (congrArg Node.parent hkept)
      rw [hkept]
      exact (h.child d hd).present

/-- And after one of them was attached. -/
theorem setParent (h : s.Offering Child n) (c : NodeId) :
    (s.setParent (.node c) (.node n)).Offering Child n where
  self := by
    rw [position_setParent]
    exact h.self
  child d hd := by
    have hpresent : ((s.setParent (.node c) (.node n)).node d).position.Present := by
      rw [position_setParent]
      exact (h.child d hd).present
    by_cases hc : c = d ∧ d < s.nodes.size
    · refine ⟨hpresent, Or.inr ⟨n, parent?_eq_some.mpr ?_⟩⟩
      rw [node_setParent, if_pos hc]
    · refine (h.child d hd).of_node hpresent ?_
      rw [node_setParent, if_neg hc]

theorem note (h : s.Offering Child n) (m : Message) : (s.note m).Offering Child n :=
  ⟨h.self, fun c hc => (h.child c hc).of_node (h.child c hc).present rfl⟩

end Offering

/-- The children of a node that has its declared shapes are computed, whatever they are, if they can
be attached. -/
theorem exists_children (hn : s.Declared n) (hpresent : (s.node n).position.Present)
    (hkids : ∀ c, .node c ∈ s.shared n → s.Attachable c) :
    ∃ cs t, (Edit.children n .refresh).perform s = (.ok cs, t) := by
  let Child (c : NodeId) : Prop := .node c ∈ s.shared n ∨ s.nodes.size ≤ c
  have hoffering : s.Offering Child n := by
    refine ⟨hpresent, fun c hc => hc.elim (hkids c) fun hnew => ?_⟩
    have hnone : s.node c = {} := node_of_size_le hnew
    refine ⟨?_, Or.inl (parent?_eq_none.mpr (Or.inl ?_))⟩
    · rw [hnone]
      exact ⟨rfl, rfl, rfl⟩
    · rw [hnone]
  cases hperform : (Edit.children n .refresh).perform s with
  | mk r t =>
    cases r with
    | ok cs => exact ⟨cs, t, rfl⟩
    | error fault =>
      -- it would have to fail at a child that is attached, and none does
      obtain ⟨c, hc, u, hu, ha⟩ := Edit.children_fails (Offering Child n) Child
        (fun _ c hu _ => hu.fill c) (fun _ name hu => hu.addVariable name)
        (fun _ _ c hu _ ha => Edit.attach_keeps (fun _ h => h.setParent c) (fun _ m h => h.note m)
          hu ha) hoffering (kids_of_declared hn) hpresent
        (fun c hc => (Kid.mem_places hc).imp_right And.left) hperform
      have hchild : Child c := (Kid.mem_places hc).imp_right And.left
      obtain ⟨v, hv⟩ := (hu.child c hchild).exists_attach n
      exact absurd (ha.symm.trans hv) (by simp)

/-- The store grows by the variables that are made. -/
theorem size_of_children {policy : ParentPolicy} {cs : List NodeId} {ks : List Kid}
    (hks : s.kids n = some ks) (hcs : (Edit.children n policy).perform s = (.ok cs, t)) :
    t.nodes.size = s.nodes.size + (Kid.names ks).length := by
  obtain ⟨ks', filled, hks', _, _, hloop⟩ := Edit.children_ok hcs
  cases hks.symm.trans hks'
  let P (u : Store) : Prop := u.nodes.size = s.nodes.size + (Kid.names ks).length
  have hcollected : P ((s.fillAll n filled).addVariables n (Kid.names ks)) := by
    show Array.size _ = _
    rw [size_addVariables, size_fillAll]
  have hattach : ∀ u v c, P u → u.attach (.node c) (.node n) policy = .ok v → P v :=
    fun _ _ c hu ha => Edit.attach_keeps (fun u hu => (size_setParent u c (.node n)).trans hu)
      (fun _ _ hu => hu) hu ha
  have hadopted := Edit.forM_adopt_preserves P (fun _ => True)
    (fun u c hu _ => (size_fill u c n).trans hu) (fun u v c hu _ ha => hattach u v c hu ha)
    cs hcollected fun _ _ => trivial
  rw [hloop] at hadopted
  exact hadopted

end Store

open Store

/-- The children of a node are what the fields of its class give, in the order of the fields, and
are always computed where the fields have their declared shapes. A variable that a field gives is
new: it gets the next place, stands where the node does and refers to it like every child. -/
theorem children_by_class {s : Store} {n : NodeId} (hn : s.Declared n)
    (hpresent : (s.node n).position.Present)
    (hkids : ∀ c, .node c ∈ s.shared n → c < s.nodes.size ∧ s.Attachable c) :
    ∃ t, (Edit.children n .refresh).perform s =
        (.ok (Kid.places s.nodes.size (s.shared n)), t) ∧
      t.nodes.size = s.nodes.size + (Kid.names (s.shared n)).length ∧
      (∀ k name, (Kid.names (s.shared n))[k]? = some name →
        t.IsVariable (s.nodes.size + k) name (s.node n).position) ∧
      ∀ c ∈ Kid.places s.nodes.size (s.shared n), (t.node c).parent = .to (.node n) := by
  obtain ⟨cs, t, hcs⟩ := exists_children hn hpresent fun c hc => (hkids c hc).2
  have hks := kids_of_declared hn
  obtain ⟨ks, hks', rfl, hmade⟩ := made_of_children hn.there hcs
  cases hks.symm.trans hks'
  refine ⟨t, hcs, size_of_children hks hcs, hmade, ?_⟩
  obtain ⟨ks, filled, hks', _, _, hloop⟩ := Edit.children_ok hcs
  cases hks.symm.trans hks'
  refine forM_adopt_parent (fun c hc => ?_) hloop
  rw [size_addVariables, size_fillAll]
  rcases Kid.mem_places hc with hlisted | hnew
  · exact Nat.lt_of_lt_of_le (hkids c hlisted).1 (Nat.le_add_right ..)
  · exact hnew.2

/-- A call of a mixin with a statement in it, an argument, a keyword and a splat. -/
def includeSheet : Store where
  nodes := #[
    some { position := { line := .int 3 }
           form := .statement (.list 0)
             (.mixin (.text "button") (.list 1) (.table 0) (.node 4) .null) },
    some { form := .statement (.list 2) .content },
    some { form := .expression (.variable (.text "size")), parent := .to (.node 1) },
    some { form := .expression (.literal (.int 2)), parent := .gone },
    some { form := .expression (.variable (.text "rest")) }]
  lists := #[[.node 1], [.node 2], []]
  tables := #[[(.text "border", .node 3)]]

/-- The keyword becomes a variable between the argument and its own expression. -/
theorem children_by_class_include :
    includeSheet.Declared 0 ∧ (includeSheet.node 0).position.Present ∧
      (∀ c, .node c ∈ includeSheet.shared 0 → c < 5 ∧ includeSheet.Attachable c) ∧
      ∃ t, (Edit.children 0 .refresh).perform includeSheet = (.ok [1, 2, 5, 3, 4], t) ∧
        t.nodes.size = 6 ∧ t.IsVariable 5 (.text "border") { line := .int 3 } ∧
        ∀ c ∈ [1, 2, 5, 3, 4], (t.node c).parent = .to (.node 0) := by
  have hshared : includeSheet.shared 0 =
      [.node 1, .node 2, .variable (.text "border"), .node 3, .node 4] := rfl
  have hdeclared : includeSheet.Declared 0 := ⟨by decide, by decide, by decide⟩
  have hkids : ∀ c, .node c ∈ includeSheet.shared 0 → c < 5 ∧ includeSheet.Attachable c := by
    intro c hc
    rw [hshared] at hc
    simp only [List.mem_cons, Kid.node.injEq, reduceCtorEq, List.not_mem_nil, or_false,
      false_or] at hc
    rcases hc with rfl | rfl | rfl | rfl
    · exact ⟨by decide, by decide, Or.inl rfl⟩
    · exact ⟨by decide, by decide, Or.inr ⟨1, rfl⟩⟩
    · exact ⟨by decide, by decide, Or.inl rfl⟩
    · exact ⟨by decide, by decide, Or.inl rfl⟩
  obtain ⟨t, hcs, hsize, hmade, hparent⟩ := children_by_class hdeclared (by decide) hkids
  exact ⟨hdeclared, by decide, hkids, t, hcs, hsize, hmade 0 _ rfl, hparent⟩

end SheetLint
