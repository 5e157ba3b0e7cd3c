import Mathlib.Data.List.Forall2
import SheetLint.Proofs.Depth

/-!
# The table of children

The children of a node are computed by an edit: it completes locations on the way and makes
variables. Which children there are does not depend on any of that. `Store.kids` reads them off the
fields of the node, form by form, and `Edit.collectWith_spec` says that the edit lists exactly
these, with the variables at the places that are next, and what it does to the store: it completes
some of the locations from the node's and then makes the variables, nothing else.

A table of children is there for good: completing locations, writing parents and making variables
never changes it (`Store.kids_extends`).
-/

namespace SheetLint

/-- A child that a node lists: one that is there, or a variable to be made for a name. -/
inductive Kid where
  | node (n : NodeId)
  | variable (name : Value)

namespace Kid

/-- The names of the variables among children, in order. -/
def names : List Kid → List Value
  | [] => []
  | .node _ :: ks => names ks
  | .variable name :: ks => name :: names ks

/-- The places of children if the next variable gets the place `next`. -/
def places : (next : NodeId) → List Kid → List NodeId
  | _, [] => []
  | next, .node n :: ks => n :: places next ks
  | next, .variable _ :: ks => next :: places (next + 1) ks

@[simp] theorem names_append : ∀ ks ls : List Kid, names (ks ++ ls) = names ks ++ names ls
  | [], _ => rfl
  | .node _ :: ks, ls => names_append ks ls
  | .variable name :: ks, ls => congrArg (name :: ·) (names_append ks ls)

@[simp] theorem names_nodes : ∀ ns : List NodeId, names (ns.map .node) = []
  | [] => rfl
  | _ :: ns => names_nodes ns

@[simp] theorem names_variables : ∀ xs : List Value, names (xs.map .variable) = xs
  | [] => rfl
  | x :: xs => congrArg (x :: ·) (names_variables xs)

theorem places_append : ∀ (next : NodeId) (ks ls : List Kid),
    places next (ks ++ ls) = places next ks ++ places (next + (names ks).length) ls
  | _, [], _ => rfl
  | next, .node n :: ks, ls => congrArg (n :: ·) (places_append next ks ls)
  | next, .variable _ :: ks, ls => by
    rw [List.cons_append, places, places, places_append, names, List.length_cons,
      Nat.add_right_comm, ← Nat.add_assoc, List.cons_append]

@[simp] theorem places_nodes : ∀ (next : NodeId) (ns : List NodeId),
    places next (ns.map .node) = ns
  | _, [] => rfl
  | next, n :: ns => congrArg (n :: ·) (places_nodes next ns)

@[simp] theorem places_variables : ∀ (next : NodeId) (xs : List Value),
    places next (xs.map .variable) = List.range' next xs.length
  | _, [] => rfl
  | next, _ :: xs => by
    rw [List.map_cons, places, places_variables, List.length_cons, List.range'_succ]

/-- A place is that of a node that is listed, or one of the next places. -/
theorem mem_places : ∀ {next : Nat} {ks : List Kid} {c : Nat}, c ∈ places next ks →
    .node c ∈ ks ∨ next ≤ c ∧ c < next + (names ks).length
  | _, [], _, h => absurd h (by simp [places])
  | next, .node n :: ks, c, h => by
    rcases List.mem_cons.mp h with rfl | h'
    · exact Or.inl (List.mem_cons_self ..)
    · rcases mem_places h' with hk | hf
      · exact Or.inl (List.mem_cons_of_mem _ hk)
      · exact Or.inr hf
  | next, .variable _ :: ks, c, h => by
    rw [names, List.length_cons]
    rcases List.mem_cons.mp h with rfl | h'
    · exact Or.inr ⟨Nat.le_refl _, by omega⟩
    · rcases mem_places h' with hk | hf
      · exact Or.inl (List.mem_cons_of_mem _ hk)
      · exact Or.inr ⟨by omega, by omega⟩

/-- A node that is listed has its place among the children. -/
theorem mem_places_of_node : ∀ {next : Nat} {ks : List Kid} {c : Nat}, .node c ∈ ks →
    c ∈ places next ks
  | _, [], _, h => absurd h (by simp)
  | next, .node n :: ks, c, h => by
    rcases List.mem_cons.mp h with he | h'
    · cases he
      exact List.mem_cons_self ..
    · exact List.mem_cons_of_mem _ (mem_places_of_node h')
  | next, .variable _ :: ks, c, h => by
    rcases List.mem_cons.mp h with he | h'
    · cases he
    · exact List.mem_cons_of_mem _ (mem_places_of_node h')

theorem mem_of_names : ∀ {ks : List Kid} {k : Nat} {name : Value}, (names ks)[k]? = some name →
    .variable name ∈ ks
  | [], _, _, h => by simp [names] at h
  | .node _ :: ks, _, _, h => List.mem_cons_of_mem _ (mem_of_names h)
  | .variable x :: ks, 0, name, h => by
    obtain rfl : x = name := Option.some.inj h
    exact List.mem_cons_self ..
  | .variable _ :: ks, k + 1, _, h => List.mem_cons_of_mem _ (mem_of_names (k := k) h)

/-- The places of children go with what is listed, if those of nodes do and the next places do. -/
theorem forall₂_places {R : NodeId → Kid → Prop} : ∀ {next : Nat} {ks : List Kid},
    (∀ c, .node c ∈ ks → R c (.node c)) →
    (∀ k name, (names ks)[k]? = some name → R (next + k) (.variable name)) →
      List.Forall₂ R (places next ks) ks
  | _, [], _, _ => .nil
  | next, .node c :: ks, hnode, hmade =>
    .cons (hnode c (List.mem_cons_self ..))
      (forall₂_places (fun c' hc' => hnode c' (List.mem_cons_of_mem _ hc')) hmade)
  | next, .variable name :: ks, hnode, hmade => by
    refine .cons (hmade 0 name rfl) (forall₂_places
      (fun c' hc' => hnode c' (List.mem_cons_of_mem _ hc')) fun k name' hk => ?_)
    rw [Nat.add_assoc, Nat.add_comm 1 k]
    exact hmade (k + 1) name' hk

/-- So do the places that children get at two times. -/
theorem forall₂_places_places {R : NodeId → NodeId → Prop} : ∀ {next next' : Nat} {ks : List Kid},
    (∀ c, .node c ∈ ks → R c c) →
    (∀ k name, (names ks)[k]? = some name → R (next + k) (next' + k)) →
      List.Forall₂ R (places next ks) (places next' ks)
  | _, _, [], _, _ => .nil
  | _, _, .node c :: ks, hnode, hmade =>
    .cons (hnode c (List.mem_cons_self ..))
      (forall₂_places_places (fun c' hc' => hnode c' (List.mem_cons_of_mem _ hc')) hmade)
  | next, next', .variable name :: ks, hnode, hmade => by
    refine .cons (hmade 0 name rfl) (forall₂_places_places
      (fun c' hc' => hnode c' (List.mem_cons_of_mem _ hc')) fun k name' hk => ?_)
    rw [Nat.add_assoc, Nat.add_assoc, Nat.add_comm 1 k]
    exact hmade (k + 1) name' hk

end Kid

namespace Store

/-! ## The table -/

/-- The nodes of several nests. -/
def nested? (s : Store) (xs : List Value) : Option (List Kid) :=
  (s.flattenAll xs).toOption.map (·.map .node)

/-- The expressions among plain text. -/
def embedded? (s : Store) (v : Value) : Option (List Kid) :=
  (s.scripts v).toOption.map (·.map .node)

/-- The structural children. -/
def structural? (s : Store) (n : NodeId) : Option (List Kid) :=
  (s.base n).toOption.map (·.map .node)

/-- A variable and the expression for each keyword. -/
def keyed? (s : Store) : Table → Option (List Kid)
  | [] => some []
  | e :: es => do
    return .variable e.1 :: ((← s.nested? [e.2]) ++ (← s.keyed? es))

/-- Succeeds if every argument has a name part. -/
def haveNames : (args : List Value) → Option Unit
  | [] => some ()
  | arg :: args => (Edit.argumentName arg).toOption.bind fun _ => haveNames args

/-- The children that a statement lists after the structural ones. -/
def ownKids (s : Store) (self : NodeId) : Statement → Option (List Kid)
  | .rule selector => s.embedded? selector
  | .prop name value => do
    return (← s.embedded? name) ++ (← s.nested? [value])
  | .comment body _ => s.embedded? body
  | .carrier _ expr => s.nested? [expr]
  | .assignment expr _ _ _ => s.nested? [expr]
  | .ifElse expr otherwise => s.nested? [expr, otherwise]
  | .each vars list => do
    return (← (s.items vars).toOption).map .variable ++ (← s.nested? [list])
  | .forLoop var first last _ => do
    return .variable var :: (← s.nested? [first, last])
  | .callable _ _ args splat => do
    haveNames (← (s.items args).toOption)
    s.nested? [args, splat]
  | .mixinDef _ args splat _ => do
    haveNames (← (s.items args).toOption)
    s.nested? [args, splat]
  | .mixin _ args keywords splat keywordSplat => do
    haveNames (← (s.items args).toOption)
    let before ← s.nested? [args]
    let named ← s.keyed? (← (s.keywords keywords "items").toOption)
    return before ++ named ++ (← s.nested? [splat, keywordSplat])
  | .extend selector _ => s.embedded? selector
  | .directive value => do
    (s.callable (.node self) "directive_value").toOption
    s.embedded? value
  | .media _ _ => do
    (s.callable (.node self) "directive_value").toOption
    return []
  | .supports _ _ _ => do
    (s.callable (.node self) "directive_value").toOption
    return []
  | _ => some []

/-- The children that the form of a node lists: the structural ones, then a statement's own. -/
def listed (s : Store) (n : NodeId) : Option (List Kid) := do
  let before ← s.structural? n
  match (s.node n).form with
  | .statement _ st => return before ++ (← s.ownKids n st)
  | _ => return before

/-- The children of a node, in order, if nothing keeps them from being listed. -/
def kids (s : Store) (n : NodeId) : Option (List Kid) := do
  (s.callable (.node n) "traversal_children").toOption
  (s.callable (.node n) "_collect_children").toOption
  s.listed n

/-! ## What collecting does to the store -/

/-- Completes the locations of several nodes from one that contains them. -/
def fillAll (s : Store) (self : NodeId) (cs : List NodeId) : Store :=
  cs.foldl (fun t c => t.fill c self) s

/-- Makes a variable that stands where a node does. -/
def addVariable (s : Store) (self : NodeId) (name : Value) : Store :=
  s.addNode { position := (s.node self).position, form := .expression (.variable name) }

/-- Makes a variable for each name. -/
def addVariables (s : Store) (self : NodeId) (names : List Value) : Store :=
  names.foldl (fun t name => t.addVariable self name) s

/-- What a walk can read of two stores is the same: only nodes differ, and no node that `s` has
differs in its form or its notes. -/
structure Alike (s t : Store) : Prop where
  nodes : s.nodes.size ≤ t.nodes.size
  lists : t.lists = s.lists
  tables : t.tables = s.tables
  form : ∀ n, n < s.nodes.size → (t.node n).form = (s.node n).form
  notes : ∀ n, n < s.nodes.size → (t.node n).notes = (s.node n).notes

namespace Alike

variable {s t u : Store}

theorem refl (s : Store) : s.Alike s :=
  ⟨Nat.le_refl _, rfl, rfl, fun _ _ => rfl, fun _ _ => rfl⟩

theorem trans (h : s.Alike t) (h' : t.Alike u) : s.Alike u where
  nodes := Nat.le_trans h.nodes h'.nodes
  lists := h'.lists.trans h.lists
  tables := h'.tables.trans h.tables
  form n hn := (h'.form n (Nat.lt_of_lt_of_le hn h.nodes)).trans (h.form n hn)
  notes n hn := (h'.notes n (Nat.lt_of_lt_of_le hn h.nodes)).trans (h.notes n hn)

/-- A walk reads the same after a location was completed. -/
theorem fill (s : Store) (c self : NodeId) : s.Alike (s.fill c self) where
  nodes := by simp
  lists := list_fill s c self
  tables := tables_fill s c self
  form n _ := by
    rw [node_fill]
    split
    · rename_i h
      rw [h.1]
    · rfl
  notes n _ := by
    rw [node_fill]
    split
    · rename_i h
      rw [h.1]
    · rfl

theorem addNode (s : Store) (x : Node) : s.Alike (s.addNode x) where
  nodes := by simp
  lists := rfl
  tables := rfl
  form n hn := by rw [node_addNode, if_neg (Nat.ne_of_lt hn)]
  notes n hn := by rw [node_addNode, if_neg (Nat.ne_of_lt hn)]

theorem fillAll (self : NodeId) : ∀ (cs : List NodeId) (s : Store), s.Alike (s.fillAll self cs)
  | [], s => refl s
  | c :: cs, s => (fill s c self).trans (fillAll self cs (s.fill c self))

theorem addVariables (self : NodeId) : ∀ (names : List Value) (s : Store),
    s.Alike (s.addVariables self names)
  | [], s => refl s
  | _ :: names, s => (addNode s _).trans (addVariables self names _)

end Alike

theorem flattenList_congr {s t : Store} (h : t.lists = s.lists) :
    ∀ d, t.flattenList d = s.flattenList d
  | 0 => rfl
  | d + 1 => by
    funext l
    rw [flattenList, flattenList, flattenList_congr h d]
    unfold list
    rw [h]

theorem flattenAll_congr {s t : Store} (h : t.lists = s.lists) (xs : List Value) :
    (t.flattenAll xs).toOption = (s.flattenAll xs).toOption := by
  unfold flattenAll nesting
  rw [flattenList_congr h, h]
  cases Value.flattenAllWith (s.flattenList (s.lists.size + 1)) xs <;> rfl

theorem items_congr {s t : Store} {v : Value} (hl : ∀ l, v = .list l → t.list l = s.list l)
    (ht : ∀ k, v = .table k → t.table k = s.table k) :
    (t.items v).toOption = (s.items v).toOption := by
  cases v with
  | list l => rw [items, items, hl l rfl]
  | table k => rw [items, items, ht k rfl]
  | _ => rfl

theorem keywords_congr {s t : Store} {v : Value} (ht : ∀ k, v = .table k → t.table k = s.table k)
    (wanted : String) : (t.keywords v wanted).toOption = (s.keywords v wanted).toOption := by
  cases v with
  | table k => rw [keywords, keywords, ht k rfl]
  | _ => rfl

theorem toOption_map {α β ε : Type} (f : α → β) (x : Except ε α) :
    (x.map f).toOption = x.toOption.map f := by
  cases x <;> rfl

theorem toOption_eq_some {α ε : Type} {x : Except ε α} {a : α} :
    x.toOption = some a ↔ x = .ok a := by
  cases x <;> simp [Except.toOption]

/-- Outcomes that are the same but for the fault are both faults or both the same result. -/
theorem fail_or_agree {α ε : Type} {x y : Except ε α} (h : x.toOption = y.toOption) :
    (∃ fault fault', x = .error fault ∧ y = .error fault') ∨ ∃ a, x = .ok a ∧ y = .ok a := by
  cases x with
  | error fault =>
    cases y with
    | error fault' => exact Or.inl ⟨fault, fault', rfl, rfl⟩
    | ok b => exact absurd h.symm (by simp [Except.toOption])
  | ok a => exact Or.inr ⟨a, rfl, toOption_eq_some.mp h.symm⟩

/-- The structural children of a form are read off the lists and tables that its fields name. -/
theorem structuralIn_congr {s t : Store} {f : Form}
    (hi : ∀ v ∈ f.fields, (t.items v).toOption = (s.items v).toOption)
    (hk : ∀ v ∈ f.fields, (t.keywords v "values").toOption = (s.keywords v "values").toOption) :
    (t.structuralIn f).toOption = (s.structuralIn f).toOption := by
  cases f with
  | bare => rfl
  | statement ch st =>
    rw [structuralIn, structuralIn, toOption_map, toOption_map, hi ch (by simp [Form.fields])]
  | expression e =>
    rw [structuralIn, structuralIn]
    cases e with
    | funcall name args keywords splat keywordSplat =>
      have := hk keywords (by simp [Form.fields, Expression.fields])
      rw [operands, operands]
      cases lost? args with
      | some fault => rfl
      | none => rw [toOption_map, toOption_map, this]
    | list elements separator =>
      rw [operands, operands, toOption_map, toOption_map,
        hi elements (by simp [Form.fields, Expression.fields])]
    | map pairs =>
      rw [operands, operands, toOption_map, toOption_map,
        hi pairs (by simp [Form.fields, Expression.fields])]
    | _ => rfl

theorem toOption_callable (s : Store) (v : Value) (method : String) :
    (s.callable v method).toOption =
      if ((s.notes v).lookup method).isNone then some () else none := by
  unfold callable
  cases (s.notes v).lookup method <;> rfl

theorem toOption_structural (s : Store) (n : NodeId) :
    (s.structural n).toOption =
      (s.callable (.node n) "structural_children").toOption.bind fun _ =>
        (s.structuralIn (s.node n).form).toOption := by
  unfold structural
  cases s.callable (.node n) "structural_children" <;> rfl

theorem toOption_base (s : Store) (n : NodeId) :
    (s.base n).toOption = (s.structural n).toOption.bind fun ops =>
      (s.flattenAll (ops.flatMap Operand.values)).toOption := by
  unfold base
  cases s.structural n <;> rfl

theorem Alike.callable {s t : Store} (h : s.Alike t) {n : NodeId} (hn : n < s.nodes.size)
    (method : String) : (t.callable (.node n) method).toOption =
      (s.callable (.node n) method).toOption := by
  rw [toOption_callable, toOption_callable, Store.notes, Store.notes, h.notes n hn]

theorem Alike.list {s t : Store} (h : s.Alike t) (l : ListId) : t.list l = s.list l := by
  unfold Store.list
  rw [h.lists]

theorem Alike.table {s t : Store} (h : s.Alike t) (k : TableId) : t.table k = s.table k := by
  unfold Store.table
  rw [h.tables]

theorem Alike.base {s t : Store} (h : s.Alike t) {n : NodeId} (hn : n < s.nodes.size) :
    (t.base n).toOption = (s.base n).toOption := by
  rw [toOption_base, toOption_base, toOption_structural, toOption_structural, h.callable hn,
    h.form n hn]
  rw [structuralIn_congr (t := t) (s := s)
    (fun v _ => items_congr (fun l _ => h.list l) fun k _ => h.table k)
    (fun v _ => keywords_congr (fun k _ => h.table k) _)]
  simp only [flattenAll_congr h.lists]

/-! ## What is listed exists -/

/-- What a listed child names is there. -/
def HoldsKid (s : Store) : Kid → Prop
  | .node n => n < s.nodes.size
  | .variable name => s.Holds name

/-- The items of what is there are there. -/
theorem items_held {s : Store} (hs : s.Closed) {v : Value} (hv : s.Holds v) {xs : List Value}
    (h : s.items v = .ok xs) : ∀ x ∈ xs, s.Holds x := by
  intro x hx
  cases v with
  | list l =>
    cases h
    exact hs.list l x hx
  | tuple m ys =>
    cases h
    exact hv.tuple x hx
  | text t =>
    cases h
    obtain ⟨c, _, rfl⟩ := List.mem_map.mp hx
    intro k hk
    exact absurd hk (by simp [Value.cells])
  | table t =>
    cases h
    obtain ⟨e, he, rfl⟩ := List.mem_map.mp hx
    exact hs.key t e he
  | _ => simp [items] at h

theorem keywords_held {s : Store} (hs : s.Closed) {v : Value} {wanted : String} {t : Table}
    (h : s.keywords v wanted = .ok t) : ∀ e ∈ t, s.Holds e.1 ∧ s.Holds e.2 := by
  cases v with
  | table k =>
    cases h
    exact fun e he => ⟨hs.key k e he, hs.entry k e he⟩
  | _ => simp [keywords] at h

/-- What a form lists as structural children are its fields, or the items or entries of one. -/
theorem structuralIn_mem {s : Store} {f : Form} {ops : List Operand}
    (h : s.structuralIn f = .ok ops) : ∀ x ∈ ops.flatMap Operand.values,
      x ∈ f.fields ∨ ∃ v ∈ f.fields, (∃ xs, s.items v = .ok xs ∧ x ∈ xs) ∨
        ∃ t, s.keywords v "values" = .ok t ∧ x ∈ t.values := by
  -- a form that lists the items of one field
  have spread : ∀ {v : Value}, v ∈ f.fields → (s.items v).map (·.map Operand.single) = .ok ops →
      ∀ x ∈ ops.flatMap Operand.values, x ∈ f.fields ∨ ∃ v ∈ f.fields,
        (∃ xs, s.items v = .ok xs ∧ x ∈ xs) ∨
          ∃ t, s.keywords v "values" = .ok t ∧ x ∈ t.values := by
    intro v hv hops x hx
    cases hi : s.items v with
    | error fault => simp [hi, Except.map] at hops
    | ok xs =>
      rw [hi] at hops
      cases hops
      rw [show (xs.map Operand.single).flatMap Operand.values = xs by
        simp [List.flatMap_map, Operand.values]] at hx
      exact Or.inr ⟨v, hv, Or.inl ⟨xs, hi, hx⟩⟩
  cases f with
  | bare =>
    cases h
    exact fun x hx => absurd hx (by simp)
  | statement ch st => exact spread (by simp [Form.fields]) h
  | expression e =>
    cases e with
    | list elements separator => exact spread (by simp [Form.fields, Expression.fields]) h
    | map pairs => exact spread (by simp [Form.fields, Expression.fields]) h
    | funcall name args keywords splat keywordSplat =>
      simp only [structuralIn, operands] at h
      cases hl : lost? args with
      | some fault => simp [hl] at h
      | none =>
        rw [hl] at h
        cases hk : s.keywords keywords "values" with
        | error fault => simp [hk, Except.map] at h
        | ok t =>
          rw [hk] at h
          cases h
          intro x hx
          simp only [List.flatMap_cons, List.flatMap_nil, Operand.values, List.mem_append,
            List.mem_singleton, List.append_nil] at hx
          rcases hx with rfl | hx | rfl | rfl
          · exact Or.inl (by simp [Form.fields, Expression.fields])
          · exact Or.inr ⟨keywords, by simp [Form.fields, Expression.fields], Or.inr ⟨t, hk, hx⟩⟩
          · exact Or.inl (by simp [Form.fields, Expression.fields])
          · exact Or.inl (by simp [Form.fields, Expression.fields])
    | _ =>
      cases h
      intro x hx
      refine Or.inl ?_
      simp only [List.map_cons, List.map_nil, List.flatMap_cons, List.flatMap_nil, Operand.values,
        Form.fields, Expression.fields] at hx ⊢
      grind

/-- What a form lists as structural children is held if its fields are. -/
theorem structuralIn_held {s : Store} (hs : s.Closed) {f : Form}
    (hf : ∀ v ∈ f.fields, s.Holds v) {ops : List Operand} (h : s.structuralIn f = .ok ops) :
    ∀ v ∈ ops.flatMap Operand.values, s.Holds v := by
  intro x hx
  rcases structuralIn_mem h x hx with hfield | ⟨v, hv, ⟨xs, hi, hxs⟩ | ⟨t, hk, ht⟩⟩
  · exact hf x hfield
  · exact items_held hs (hf v hv) hi x hxs
  · obtain ⟨e, he, rfl⟩ := List.mem_map.mp ht
    exact (keywords_held hs hk e he).2

end Store

namespace Value

mutual

/-- A property of all nodes that are named, directly or in lists, is one of all nodes of a nest. -/
theorem forall_flattenWith {enter : ListId → Except Stray (List NodeId)} {p : NodeId → Prop} :
    ∀ (v : Value) {ns : List NodeId}, (∀ n, Cell.node n ∈ v.cells → p n) →
      (∀ l, Cell.list l ∈ v.cells → ∀ ms, enter l = .ok ms → ∀ c ∈ ms, p c) →
      flattenWith enter v = .ok ns → ∀ c ∈ ns, p c
  | v, ns, hn, hl, hv => by
    cases v with
    | list l =>
      rw [flattenWith] at hv
      exact hl l (by simp [cells]) ns hv
    | tuple m xs =>
      rw [flattenWith] at hv
      rw [cells] at hn hl
      exact forall_flattenAllWith xs hn hl hv
    | null =>
      cases hv
      exact fun c hc => absurd hc (by simp)
    | node n =>
      cases hv
      intro c hc
      rw [List.mem_singleton.mp hc]
      exact hn n (by simp [cells])
    | _ => simp [flattenWith] at hv

/-- The same for nests side by side. -/
theorem forall_flattenAllWith {enter : ListId → Except Stray (List NodeId)} {p : NodeId → Prop} :
    ∀ (xs : List Value) {ns : List NodeId}, (∀ n, Cell.node n ∈ cellsAll xs → p n) →
      (∀ l, Cell.list l ∈ cellsAll xs → ∀ ms, enter l = .ok ms → ∀ c ∈ ms, p c) →
      flattenAllWith enter xs = .ok ns → ∀ c ∈ ns, p c
  | [], _, _, _, hv => by
    cases hv
    exact fun c hc => absurd hc (by simp)
  | x :: xs, ns, hn, hl, hv => by
    rw [cellsAll] at hn hl
    rw [flattenAllWith] at hv
    cases hx : flattenWith enter x with
    | error stray => simp [hx] at hv
    | ok ks =>
      cases hxs : flattenAllWith enter xs with
      | error stray => simp [hx, hxs] at hv
      | ok ms =>
        rw [hx, hxs] at hv
        cases hv
        intro c hc
        rcases List.mem_append.mp hc with hk | hm
        · exact forall_flattenWith x (fun n h => hn n (List.mem_append_left _ h))
            (fun l h => hl l (List.mem_append_left _ h)) hx c hk
        · exact forall_flattenAllWith xs (fun n h => hn n (List.mem_append_right _ h))
            (fun l h => hl l (List.mem_append_right _ h)) hxs c hm

end

end Value

namespace Store

variable {s t : Store}

theorem flattenList_held (hs : s.Closed) : ∀ {d : Nat} {l : ListId} {ns : List NodeId},
    s.flattenList d l = .ok ns → ∀ c ∈ ns, c < s.nodes.size
  | 0, _, _, h => by simp [flattenList] at h
  | _ + 1, l, _, h => by
    rw [flattenList] at h
    exact Value.forall_flattenAllWith _ (fun n => hasPlace_of_cellsAll (hs.list l) (.node n))
      (fun k _ ms hk => flattenList_held hs hk) h

/-- The nodes of a nest that is held are there. -/
theorem nested?_held (hs : s.Closed) {xs : List Value} (hxs : ∀ x ∈ xs, s.Holds x)
    {ks : List Kid} (h : s.nested? xs = some ks) : ∀ k ∈ ks, s.HoldsKid k := by
  unfold nested? flattenAll at h
  cases hf : Value.flattenAllWith (s.flattenList s.nesting) xs with
  | error stray => simp [hf, Except.toOption] at h
  | ok ns =>
    rw [hf] at h
    cases h
    intro k hk
    obtain ⟨c, hc, rfl⟩ := List.mem_map.mp hk
    exact Value.forall_flattenAllWith xs (fun n => hasPlace_of_cellsAll hxs (.node n))
      (fun l _ ms hl => flattenList_held hs hl) hf c hc

/-- What is embedded in a value that is there is there. -/
theorem embedded?_held (hs : s.Closed) {v : Value} (hv : s.Holds v) {ks : List Kid}
    (h : s.embedded? v = some ks) : ∀ k ∈ ks, s.HoldsKid k := by
  unfold embedded? scripts at h
  split at h
  · cases h
    exact fun k hk => absurd hk (by simp)
  · cases hi : s.items v with
    | error fault => simp [hi, Except.map, Except.toOption] at h
    | ok xs =>
      rw [hi] at h
      cases h
      intro k hk
      obtain ⟨c, hc, rfl⟩ := List.mem_map.mp hk
      obtain ⟨x, hx, hxc⟩ := List.mem_filterMap.mp hc
      have hheld := items_held hs hv hi x hx
      cases x with
      | node n =>
        simp only [Option.ite_none_right_eq_some, Option.some.injEq] at hxc
        rw [← hxc.2]
        exact hheld (.node n) (by simp [Value.cells])
      | _ => simp at hxc

/-- So is what the entries of a table give, each its key and what its value flattens to. -/
theorem keyed?_held (hs : s.Closed) : ∀ {es : Table}, (∀ e ∈ es, s.Holds e.1 ∧ s.Holds e.2) →
    ∀ {ks : List Kid}, s.keyed? es = some ks → ∀ k ∈ ks, s.HoldsKid k
  | [], _, ks, h => by
    cases h
    exact fun k hk => absurd hk (by simp)
  | e :: es, hes, ks, h => by
    simp only [keyed?, Option.pure_def, Option.bind_eq_bind, Option.bind_eq_some_iff,
      Option.some.injEq] at h
    obtain ⟨ns, hns, ls, hls, rfl⟩ := h
    have he := hes e (List.mem_cons_self ..)
    intro k hk
    rcases List.mem_cons.mp hk with rfl | hk
    · exact he.1
    rcases List.mem_append.mp hk with hk | hk
    · exact nested?_held hs (by simpa using he.2) hns k hk
    · exact keyed?_held hs (fun e' he' => hes e' (List.mem_cons_of_mem _ he')) hls k hk

/-- The structural children of a node are there. -/
theorem structural?_held (hs : s.Closed) {n : NodeId} {ks : List Kid}
    (h : s.structural? n = some ks) : ∀ k ∈ ks, s.HoldsKid k := by
  unfold structural? at h
  rw [toOption_base, toOption_structural] at h
  simp only [Option.map_eq_some_iff, Option.bind_eq_some_iff] at h
  obtain ⟨ns, ⟨ops, ⟨_, _, hops⟩, hns⟩, rfl⟩ := h
  have hheld : ∀ v ∈ ops.flatMap Operand.values, s.Holds v := by
    exact structuralIn_held hs (hs.field n) (toOption_eq_some.mp hops)
  have hnested : s.nested? (ops.flatMap Operand.values) = some (ns.map .node) := by
    unfold nested?
    rw [hns]
    rfl
  exact nested?_held hs hheld hnested

/-- What a statement lists of its own is there. -/
theorem ownKids_held (hs : s.Closed) {self : NodeId} {st : Statement}
    (hst : ∀ v ∈ st.fields, s.Holds v) {ks : List Kid} (h : s.ownKids self st = some ks) :
    ∀ k ∈ ks, s.HoldsKid k := by
  have nested {xs : List Value} {ks : List Kid} (hxs : ∀ x ∈ xs, x ∈ st.fields)
      (h : s.nested? xs = some ks) : ∀ k ∈ ks, s.HoldsKid k :=
    nested?_held hs (fun x hx => hst x (hxs x hx)) h
  have embedded {v : Value} {ks : List Kid} (hv : v ∈ st.fields) (h : s.embedded? v = some ks) :
      ∀ k ∈ ks, s.HoldsKid k :=
    embedded?_held hs (hst v hv) h
  have both {ks ls : List Kid} (hk : ∀ k ∈ ks, s.HoldsKid k) (hl : ∀ k ∈ ls, s.HoldsKid k) :
      ∀ k ∈ ks ++ ls, s.HoldsKid k :=
    List.forall_mem_append.mpr ⟨hk, hl⟩
  cases st with
  | rule selector => exact embedded (by simp [Statement.fields]) h
  | comment body style => exact embedded (by simp [Statement.fields]) h
  | extend selector isOptional => exact embedded (by simp [Statement.fields]) h
  | carrier c expr => exact nested (by simp [Statement.fields]) h
  | assignment expr name guarded isGlobal => exact nested (by simp [Statement.fields]) h
  | ifElse expr otherwise => exact nested (by simp [Statement.fields]) h
  | prop name value =>
    simp only [ownKids, Option.pure_def, Option.bind_eq_bind, Option.bind_eq_some_iff,
      Option.some.injEq] at h
    obtain ⟨ns, hns, ls, hls, rfl⟩ := h
    exact both (embedded (by simp [Statement.fields]) hns) (nested (by simp [Statement.fields]) hls)
  | each vars list =>
    simp only [ownKids, Option.pure_def, Option.bind_eq_bind, Option.bind_eq_some_iff,
      Option.some.injEq] at h
    obtain ⟨xs, hxs, ls, hls, rfl⟩ := h
    refine both ?_ (nested (by simp [Statement.fields]) hls)
    intro k hk
    obtain ⟨x, hx, rfl⟩ := List.mem_map.mp hk
    exact items_held hs (hst vars (by simp [Statement.fields])) (toOption_eq_some.mp hxs) x hx
  | forLoop var first last exclusive =>
    simp only [ownKids, Option.pure_def, Option.bind_eq_bind, Option.bind_eq_some_iff,
      Option.some.injEq] at h
    obtain ⟨ls, hls, rfl⟩ := h
    intro k hk
    rcases List.mem_cons.mp hk with rfl | hk
    · exact hst var (by simp [Statement.fields])
    · exact nested (by simp [Statement.fields]) hls k hk
  | callable isFunction name args splat =>
    simp only [ownKids, Option.bind_eq_bind, Option.bind_eq_some_iff] at h
    obtain ⟨xs, _, _, _, hls⟩ := h
    exact nested (by simp [Statement.fields]) hls
  | mixinDef name args splat hasContent =>
    simp only [ownKids, Option.bind_eq_bind, Option.bind_eq_some_iff] at h
    obtain ⟨xs, _, _, _, hls⟩ := h
    exact nested (by simp [Statement.fields]) hls
  | mixin name args keywords splat keywordSplat =>
    simp only [ownKids, Option.pure_def, Option.bind_eq_bind, Option.bind_eq_some_iff,
      Option.some.injEq] at h
    obtain ⟨xs, _, _, _, ns, hns, es, hes, ls, hls, ms, hms, rfl⟩ := h
    exact both (both (nested (by simp [Statement.fields]) hns)
      (keyed?_held hs (keywords_held hs (toOption_eq_some.mp hes)) hls))
      (nested (by simp [Statement.fields]) hms)
  | directive value =>
    simp only [ownKids, Option.bind_eq_bind, Option.bind_eq_some_iff] at h
    obtain ⟨_, _, hls⟩ := h
    exact embedded (by simp [Statement.fields]) hls
  | media value query =>
    simp only [ownKids, Option.pure_def, Option.bind_eq_bind, Option.bind_eq_some_iff,
      Option.some.injEq] at h
    obtain ⟨_, _, rfl⟩ := h
    exact fun k hk => absurd hk (by simp)
  | supports value name condition =>
    simp only [ownKids, Option.pure_def, Option.bind_eq_bind, Option.bind_eq_some_iff,
      Option.some.injEq] at h
    obtain ⟨_, _, rfl⟩ := h
    exact fun k hk => absurd hk (by simp)
  | _ =>
    cases h
    exact fun k hk => absurd hk (by simp)

/-- What a node lists is there. -/
theorem kids_held (hs : s.Closed) {n : NodeId} {ks : List Kid} (h : s.kids n = some ks) :
    ∀ k ∈ ks, s.HoldsKid k := by
  simp only [kids, listed, Option.bind_eq_bind, Option.bind_eq_some_iff] at h
  obtain ⟨_, _, _, _, before, hbefore, h⟩ := h
  have hb := structural?_held hs hbefore
  cases hf : (s.node n).form with
  | statement ch st =>
    simp only [hf, Option.pure_def, Option.bind_eq_some_iff, Option.some.injEq] at h
    obtain ⟨own, hown, rfl⟩ := h
    intro k hk
    rcases List.mem_append.mp hk with hk | hk
    · exact hb k hk
    · refine ownKids_held hs (fun v hv => hs.field n v ?_) hown k hk
      rw [hf]
      exact List.mem_cons_of_mem _ hv
  | bare =>
    rw [hf] at h
    cases h
    exact hb
  | expression e =>
    rw [hf] at h
    cases h
    exact hb

/-! ## The table does not change -/

theorem Extends.items (h : s.Extends t) {v : Value} (hv : s.Holds v) :
    (t.items v).toOption = (s.items v).toOption :=
  items_congr (fun l hl => h.list l (hv (.list l) (by simp [hl, Value.cells])))
    (fun k hk => h.table k (hv (.table k) (by simp [hk, Value.cells])))

theorem Extends.keywords (h : s.Extends t) {v : Value} (hv : s.Holds v) (wanted : String) :
    (t.keywords v wanted).toOption = (s.keywords v wanted).toOption :=
  keywords_congr (fun k hk => h.table k (hv (.table k) (by simp [hk, Value.cells]))) wanted

theorem Extends.callable (h : s.Extends t) {n : NodeId} (hn : n < s.nodes.size)
    (method : String) : (t.callable (.node n) method).toOption =
      (s.callable (.node n) method).toOption := by
  rw [toOption_callable, toOption_callable, Store.notes, Store.notes, h.notes n hn]

section Closed

variable (hs : s.Closed) (h : s.Extends t)
include hs h

theorem nested?_extends {xs : List Value} (hxs : ∀ x ∈ xs, s.Holds x) :
    t.nested? xs = s.nested? xs := by
  unfold nested?
  rw [flattenAll_extends hs h hxs]

/-- What is embedded in a value stays the same when the store is extended. -/
theorem embedded?_extends {v : Value} (hv : s.Holds v) : t.embedded? v = s.embedded? v := by
  unfold embedded? scripts
  split
  · rfl
  · rw [toOption_map, toOption_map, h.items hv]
    cases hi : s.items v with
    | error fault => rfl
    | ok xs =>
      simp only [Except.toOption, Option.map_some, Option.some.injEq]
      refine congrArg (List.map Kid.node) (List.filterMap_congr fun x hx => ?_)
      have hheld := items_held hs hv hi x hx
      cases x with
      | node n =>
        have hscript : (t.node n).isScript = (s.node n).isScript :=
          congrArg Form.isExpression (h.form n (hheld (.node n) (by simp [Value.cells])))
        show (if (t.node n).isScript then some n else none) = _
        rw [hscript]
      | _ => rfl

/-- The structural children of a node stay the same when the store is extended. -/
theorem structural?_extends {n : NodeId} (hn : n < s.nodes.size) :
    t.structural? n = s.structural? n := by
  unfold structural?
  rw [toOption_base, toOption_base, toOption_structural, toOption_structural,
    h.callable hn, h.form n hn, structuralIn_congr (t := t) (s := s)
      (fun v hv => h.items (hs.field n v hv))
      (fun v hv => h.keywords (hs.field n v hv) _)]
  congr 1
  cases s.callable (.node n) "structural_children" with
  | error fault => rfl
  | ok u =>
    cases ho : s.structuralIn (s.node n).form with
    | error fault => rfl
    | ok ops => exact flattenAll_extends hs h (structuralIn_held hs (hs.field n) ho)

theorem keyed?_extends : ∀ {es : Table}, (∀ e ∈ es, s.Holds e.2) → t.keyed? es = s.keyed? es
  | [], _ => rfl
  | e :: es, hes => by
    rw [keyed?, keyed?, nested?_extends hs h (by simpa using hes e (List.mem_cons_self ..)),
      keyed?_extends fun e' he' => hes e' (List.mem_cons_of_mem _ he')]

/-- So do the kids that a statement has of its own. All that is read for them are values, lists and
tables that stay, whatever the form. -/
theorem ownKids_extends {self : NodeId} (hself : self < s.nodes.size) {st : Statement}
    (hst : ∀ v ∈ st.fields, s.Holds v) : t.ownKids self st = s.ownKids self st := by
  have nested (xs : List Value) (hxs : ∀ x ∈ xs, x ∈ st.fields) : t.nested? xs = s.nested? xs :=
    nested?_extends hs h fun x hx => hst x (hxs x hx)
  have embedded (v : Value) (hv : v ∈ st.fields) : t.embedded? v = s.embedded? v :=
    embedded?_extends hs h (hst v hv)
  have items (v : Value) (hv : v ∈ st.fields) : (t.items v).toOption = (s.items v).toOption :=
    h.items (hst v hv)
  cases st with
  | rule selector => exact embedded _ (by simp [Statement.fields])
  | comment body style => exact embedded _ (by simp [Statement.fields])
  | extend selector isOptional => exact embedded _ (by simp [Statement.fields])
  | carrier c expr => exact nested _ (by simp [Statement.fields])
  | assignment expr name guarded isGlobal => exact nested _ (by simp [Statement.fields])
  | ifElse expr otherwise => exact nested _ (by simp [Statement.fields])
  | prop name value =>
    rw [ownKids, ownKids, embedded name (by simp [Statement.fields]),
      nested [value] (by simp [Statement.fields])]
  | each vars list =>
    rw [ownKids, ownKids, items vars (by simp [Statement.fields]),
      nested [list] (by simp [Statement.fields])]
  | forLoop var first last exclusive =>
    rw [ownKids, ownKids, nested [first, last] (by simp [Statement.fields])]
  | callable isFunction name args splat =>
    rw [ownKids, ownKids, items args (by simp [Statement.fields]),
      nested [args, splat] (by simp [Statement.fields])]
  | mixinDef name args splat hasContent =>
    rw [ownKids, ownKids, items args (by simp [Statement.fields]),
      nested [args, splat] (by simp [Statement.fields])]
  | mixin name args keywords splat keywordSplat =>
    rw [ownKids, ownKids, items args (by simp [Statement.fields]),
      nested [args] (by simp [Statement.fields]),
      nested [splat, keywordSplat] (by simp [Statement.fields]),
      h.keywords (hst keywords (by simp [Statement.fields]))]
    cases hk : s.keywords keywords "items" with
    | error fault => rfl
    | ok es =>
      simp only [Except.toOption, Option.bind_eq_bind, Option.bind_some]
      rw [keyed?_extends hs h fun e he => (keywords_held hs hk e he).2]
  | directive value =>
    rw [ownKids, ownKids, h.callable hself, embedded value (by simp [Statement.fields])]
  | media value query => rw [ownKids, ownKids, h.callable hself]
  | supports value name condition => rw [ownKids, ownKids, h.callable hself]
  | _ => rfl

/-- What a node lists stays the same. -/
theorem kids_extends {n : NodeId} (hn : n < s.nodes.size) : t.kids n = s.kids n := by
  unfold kids listed
  rw [h.callable hn, h.callable hn, structural?_extends hs h hn, h.form n hn]
  cases hf : (s.node n).form with
  | statement ch st =>
    simp only
    rw [ownKids_extends hs h hn fun v hv => hs.field n v ?_]
    rw [hf]
    exact List.mem_cons_of_mem _ hv
  | bare => rfl
  | expression e => rfl

omit hs in
/-- What is new lists nothing. -/
theorem kids_new {n : NodeId} (hn : s.nodes.size ≤ n) : t.kids n = some [] := by
  obtain ⟨hform, hnotes⟩ := h.leaf n hn
  have hok : ∀ method, t.callable (.node n) method = .ok () := by
    intro method
    rw [callable, notes, hnotes]
    rfl
  have hbase : t.structural? n = some [] := by
    unfold structural? base structural
    rw [hok]
    rcases hform with hf | ⟨name, hf⟩ <;> rw [hf] <;> rfl
  unfold kids listed
  rw [hok, hok, hbase]
  rcases hform with hf | ⟨name, hf⟩ <;> rw [hf] <;> rfl

end Closed

end Store

end SheetLint
