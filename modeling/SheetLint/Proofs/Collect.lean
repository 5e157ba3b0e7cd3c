import SheetLint.Proofs.Kids

/-!
# Collecting the children of a node

What `Edit.collectWith` does, form by form, in terms of the table of children: `collectWith_spec`.
To gather the children of a node (`Edit.gather`) is to collect them where no attribute hides a
method. The steps it is made of come first, each with the outcome and the store it leaves: making
variables, completing the locations of argument names, and reading lists.
-/

namespace SheetLint

namespace Position

/-- No part of a location was lost. -/
def Present (p : Position) : Prop :=
  p.line.isMissing = false ∧ p.column.isMissing = false ∧ p.file.isMissing = false

instance (p : Position) : Decidable p.Present :=
  inferInstanceAs (Decidable (_ ∧ _ ∧ _))

theorem completed_self (p : Position) : p.completed p = p := by
  unfold completed
  split
  · simp
  · rfl

end Position

namespace Store

theorem orMissing_of_present (s : Store) (v : Value) (name : String) {w : Value}
    (h : w.isMissing = false) : s.orMissing v name (some w) = .ok w := by
  cases w with
  | missing owner lost => simp [Value.isMissing] at h
  | _ => rfl

theorem orMissing_of_missing (s : Store) (v : Value) (name : String) {w : Value}
    (h : w.isMissing = true) : ∃ fault, s.orMissing v name (some w) = .error fault := by
  cases w with
  | missing owner lost => exact ⟨_, rfl⟩
  | _ => simp [Value.isMissing] at h

theorem orMissing_ok {s : Store} {v x w : Value} {name : String}
    (h : s.orMissing v name (some x) = .ok w) : x = w := by
  cases x with
  | missing owner lost => cases h
  | _ =>
    cases h
    rfl

theorem getAttribute_kind (s : Store) (n : NodeId) :
    s.getAttribute (.node n) "kind" = .ok (s.node n).kind := by
  simp [getAttribute, attributeAlong, nodeAttribute]

theorem getAttribute_line (s : Store) (n : NodeId) : s.getAttribute (.node n) "line" =
    s.orMissing (.node n) "line" (some (s.node n).position.line) := by
  simp [getAttribute, attributeAlong, nodeAttribute, Node.fields]

theorem getAttribute_column (s : Store) (n : NodeId) : s.getAttribute (.node n) "column" =
    s.orMissing (.node n) "column" (some (s.node n).position.column) := by
  simp [getAttribute, attributeAlong, nodeAttribute, Node.fields, List.lookup_cons]

theorem getAttribute_filename (s : Store) (n : NodeId) : s.getAttribute (.node n) "filename" =
    s.orMissing (.node n) "filename" (some (s.node n).position.file) := by
  simp [getAttribute, attributeAlong, nodeAttribute, Node.fields, List.lookup_cons]

/-- That a node has moved from one node to another can be told unless its line was lost. -/
theorem reparented_node (s : Store) {c : NodeId}
    (hline : (s.node c).position.line.isMissing = false) (n m : NodeId) :
    s.reparented (.node c) (.node n) (.node m) =
      .ok (.reparented (s.bare (s.node c).kind) (s.bare (s.node c).position.line)
        (s.bare (s.node n).kind) (s.bare (s.node m).kind)) := by
  simp only [reparented, getAttribute_kind, getAttribute_line, orMissing_of_present _ _ _ hline]
  rfl

/-! ## Making variables -/

variable {s : Store} {self : NodeId}

/-- What is there before a variable is made is left alone. -/
theorem node_addVariable {m : NodeId} (hm : m < s.nodes.size) (name : Value) :
    (s.addVariable self name).node m = s.node m := by
  rw [addVariable, node_addNode, if_neg (Nat.ne_of_lt hm)]

@[simp] theorem size_addVariable (s : Store) (self : NodeId) (name : Value) :
    (s.addVariable self name).nodes.size = s.nodes.size + 1 := by
  simp [addVariable]

theorem size_addVariables (self : NodeId) : ∀ (names : List Value) (s : Store),
    (s.addVariables self names).nodes.size = s.nodes.size + names.length
  | [], _ => rfl
  | name :: names, s => by
    rw [addVariables, List.foldl_cons, ← addVariables, size_addVariables self names,
      size_addVariable, List.length_cons, Nat.add_right_comm, Nat.add_assoc]

/-- What was there before variables were made is left alone. -/
theorem node_addVariables {m : NodeId} : ∀ (names : List Value) {s : Store}, m < s.nodes.size →
    (s.addVariables self names).node m = s.node m
  | [], _, _ => rfl
  | name :: names, s, hm => by
    have hnext : m < (s.addVariable self name).nodes.size := by
      rw [size_addVariable]
      exact Nat.lt_succ_of_lt hm
    rw [addVariables, List.foldl_cons, ← addVariables, node_addVariables names hnext,
      node_addVariable hm]

/-- A new variable stands where its container does and has nothing but its name. -/
theorem node_addVariables_new : ∀ (names : List Value) {s : Store}, self < s.nodes.size →
    ∀ {k : Nat} {name : Value}, names[k]? = some name →
      (s.addVariables self names).node (s.nodes.size + k) =
        { position := (s.node self).position, form := .expression (.variable name) }
  | [], _, _, _, _, h => by simp at h
  | x :: xs, s, hself, 0, name, h => by
    have hnext : s.nodes.size < (s.addVariable self x).nodes.size := by
      rw [size_addVariable]
      exact Nat.lt_succ_self _
    rw [addVariables, List.foldl_cons, ← addVariables, Nat.add_zero, node_addVariables xs hnext,
      addVariable, node_addNode, if_pos rfl]
    cases h
    rfl
  | x :: xs, s, hself, k + 1, name, h => by
    have hnext : self < (s.addVariable self x).nodes.size := by
      rw [size_addVariable]
      exact Nat.lt_succ_of_lt hself
    have ih := node_addVariables_new xs hnext h
    rw [size_addVariable, node_addVariable hself, Nat.add_right_comm, Nat.add_assoc] at ih
    rw [addVariables, List.foldl_cons, ← addVariables]
    exact ih

end Store

namespace Edit

open Store

variable {s : Store} {self : NodeId}

theorem perform_newVariable (h : (s.node self).position.Present) (name : Value) :
    (newVariable name (.node self)).perform s = (.ok s.nodes.size, s.addVariable self name) := by
  obtain ⟨hl, hc, hf⟩ := h
  simp only [newVariable, perform_bind, perform_tryRead, Store.getAttribute_line,
    Store.getAttribute_column, Store.getAttribute_filename, Store.orMissing_of_present _ _ _ hl,
    Store.orMissing_of_present _ _ _ hc, Store.orMissing_of_present _ _ _ hf]
  rfl

/-- No variable can be made for a node that has lost a part of its location. -/
theorem newVariable_lost (h : ¬(s.node self).position.Present) (name : Value) :
    ∃ fault, (newVariable name (.node self)).perform s = (.error fault, s) := by
  simp only [newVariable, perform_bind, perform_tryRead, Store.getAttribute_line,
    Store.getAttribute_column, Store.getAttribute_filename]
  cases hl : (s.node self).position.line.isMissing with
  | true =>
    obtain ⟨fault, hfault⟩ := s.orMissing_of_missing (.node self) "line" hl
    simp only [hfault]
    exact ⟨fault, rfl⟩
  | false =>
    simp only [s.orMissing_of_present (.node self) "line" hl]
    cases hc : (s.node self).position.column.isMissing with
    | true =>
      obtain ⟨fault, hfault⟩ := s.orMissing_of_missing (.node self) "column" hc
      simp only [hfault]
      exact ⟨fault, rfl⟩
    | false =>
      simp only [s.orMissing_of_present (.node self) "column" hc]
      cases hf : (s.node self).position.file.isMissing with
      | true =>
        obtain ⟨fault, hfault⟩ := s.orMissing_of_missing (.node self) "filename" hf
        simp only [hfault]
        exact ⟨fault, rfl⟩
      | false => exact absurd ⟨hl, hc, hf⟩ h


/-- A loop that makes a variable for each of its items makes them all, at the places that are
next, or fails at the first, if there is one and a part of the container's location was lost. -/
theorem mapM_newVariable_cases {α β : Type} (name : α → Value) (give : α → NodeId → β)
    (hself : self < s.nodes.size) (as : List α) :
    (as = [] ∨ (s.node self).position.Present) ∧
        (as.mapM fun a => do return give a (← newVariable (name a) (.node self))).perform s =
          (.ok (List.zipWith give as (List.range' s.nodes.size as.length)),
            s.addVariables self (as.map name)) ∨
      ¬(as = [] ∨ (s.node self).position.Present) ∧ ∃ fault, (as.mapM fun a => do
        return give a (← newVariable (name a) (.node self))).perform s = (.error fault, s) := by
  induction as generalizing s with
  | nil => exact Or.inl ⟨Or.inl rfl, rfl⟩
  | cons a as ih =>
    by_cases h : (s.node self).position.Present
    · have hnext : self < (s.addVariable self (name a)).nodes.size := by
        simp only [addVariable, size_addNode]
        exact Nat.lt_succ_of_lt hself
      rcases ih hnext with ⟨_, hrest⟩ | ⟨hlost, _⟩
      · refine Or.inl ⟨Or.inr h, ?_⟩
        simp only [List.mapM_cons, perform_bind, perform_newVariable h, perform_pure, hrest,
          List.length_cons, List.range'_succ, List.zipWith_cons_cons, List.map_cons]
        simp only [addVariables, List.foldl_cons, addVariable, size_addNode]
      · rw [node_addVariable hself] at hlost
        exact absurd (Or.inr h) hlost
    · obtain ⟨fault, hfault⟩ := newVariable_lost h (name a)
      refine Or.inr ⟨by simp [h], fault, ?_⟩
      simp only [List.mapM_cons, perform_bind, hfault]

/-- Either all variables are made, or there are some to make and none of them can be. -/
theorem newVariables_cases (hself : self < s.nodes.size) (names : List Value) :
    (names = [] ∨ (s.node self).position.Present) ∧ (newVariables names self).perform s =
        (.ok (List.range' s.nodes.size names.length), s.addVariables self names) ∨
      ¬(names = [] ∨ (s.node self).position.Present) ∧
        ∃ fault, (newVariables names self).perform s = (.error fault, s) := by
  have hmade := mapM_newVariable_cases id (fun _ n => n) hself names
  have hplaces : List.zipWith (fun _ n => n) names (List.range' s.nodes.size names.length) =
      List.range' s.nodes.size names.length := by
    rw [← List.map_uncurry_zip_eq_zipWith]
    exact List.map_snd_zip (by simp)
  simp only [bind_pure, List.map_id, id_eq, hplaces] at hmade
  exact hmade

/-! ## Completing locations early -/

/-- Only a node has a location to complete. -/
theorem perform_fill (v : Value) (self : NodeId) (s : Store) :
    (fill v (.node self)).perform s = (.ok (), s.fillAll self v.node?.toList) := by
  cases v <;> rfl

/-- The locations that are completed are those of the name parts before the first argument that
has none. -/
theorem perform_forM_fill (self : NodeId) : ∀ (args : List Value) (s : Store), ∃ filled r,
    (args.forM fun arg => do
      fill (← tryRead fun _ => argumentName arg) (.node self)).perform s =
        (r, s.fillAll self filled) ∧
    r.toOption = Store.haveNames args ∧
    ∀ c ∈ filled, ∃ arg ∈ args, argumentName arg = .ok (.node c)
  | [], s => ⟨[], .ok (), rfl, rfl, fun c hc => absurd hc (by simp)⟩
  | arg :: args, s => by
    rw [forM_cons]
    simp only [perform_bind, perform_tryRead]
    cases ha : argumentName arg with
    | error fault =>
      refine ⟨[], .error fault, rfl, ?_, fun c hc => absurd hc (by simp)⟩
      rw [Store.haveNames, ha]
      rfl
    | ok v =>
      obtain ⟨filled, r, hrest, hr, hfilled⟩ :=
        perform_forM_fill self args (s.fillAll self v.node?.toList)
      simp only [perform_fill, hrest]
      refine ⟨v.node?.toList ++ filled, r, ?_, ?_, ?_⟩
      · rw [Store.fillAll, Store.fillAll, Store.fillAll, List.foldl_append]
      · rw [Store.haveNames, ha, hr]
        rfl
      · intro c hc
        rcases List.mem_append.mp hc with hv | hc
        · refine ⟨arg, List.mem_cons_self .., ?_⟩
          cases v with
          | node n =>
            rw [ha, List.mem_singleton.mp hv]
          | _ => simp [Value.node?] at hv
        · obtain ⟨arg', harg, hname⟩ := hfilled c hc
          exact ⟨arg', List.mem_cons_of_mem _ harg, hname⟩

/-- Completing the locations of argument names goes on until one name cannot be read. All that it
fills are names of arguments. -/
theorem perform_fillArguments (args : Value) (self : NodeId) (s : Store) : ∃ filled r,
    (fillArguments args (.node self)).perform s = (r, s.fillAll self filled) ∧
    r.toOption = (s.items args).toOption.bind Store.haveNames ∧
    ∀ c ∈ filled, ∃ xs, s.items args = .ok xs ∧ ∃ x ∈ xs, argumentName x = .ok (.node c) := by
  unfold fillArguments
  rw [perform_bind, perform_tryRead]
  cases hi : s.items args with
  | error fault => exact ⟨[], .error fault, rfl, rfl, fun c hc => absurd hc (by simp)⟩
  | ok xs =>
    obtain ⟨filled, r, hperform, hr, hfilled⟩ := perform_forM_fill self xs s
    exact ⟨filled, r, hperform, hr, fun c hc => ⟨xs, rfl, hfilled c hc⟩⟩

end Edit

/-! ## Early completion touches children only -/

namespace Value

/-- What is flattened from one of several nests is flattened from all of them. -/
theorem flattenAllWith_mem {enter : ListId → Except Stray (List NodeId)} :
    ∀ {xs : List Value} {ns : List NodeId} {x : Value}, flattenAllWith enter xs = .ok ns → x ∈ xs →
      ∃ ms, flattenWith enter x = .ok ms ∧ ∀ c ∈ ms, c ∈ ns
  | y :: ys, ns, x, h, hx => by
    rw [flattenAllWith] at h
    cases hy : flattenWith enter y with
    | error stray => simp [hy] at h
    | ok ks =>
      cases hys : flattenAllWith enter ys with
      | error stray => simp [hy, hys] at h
      | ok ms =>
        rw [hy, hys] at h
        cases h
        rcases List.mem_cons.mp hx with rfl | hx
        · exact ⟨ks, hy, fun c hc => List.mem_append_left _ hc⟩
        · obtain ⟨ls, hls, hsub⟩ := flattenAllWith_mem hys hx
          exact ⟨ls, hls, fun c hc => List.mem_append_right _ (hsub c hc)⟩

/-- The name part of an argument is among the nodes of the argument. -/
theorem mem_flattenWith_of_argumentName {enter : ListId → Except Stray (List NodeId)} {x : Value}
    {c : NodeId} (hx : Edit.argumentName x = .ok (.node c)) {ms : List NodeId}
    (h : flattenWith enter x = .ok ms) : c ∈ ms := by
  cases x with
  | tuple m xs =>
    cases xs with
    | nil => simp [Edit.argumentName] at hx
    | cons y ys =>
      cases hx
      rw [flattenWith] at h
      obtain ⟨ks, hks, hsub⟩ := flattenAllWith_mem h (List.mem_cons_self ..)
      cases hks
      exact hsub c (by simp)
  | node n =>
    cases hx
    cases h
    simp
  | _ => simp [Edit.argumentName] at hx

/-- A row of nests flattens if its first nest and the others do. -/
theorem toOption_flattenAllWith_cons (enter : ListId → Except Stray (List NodeId)) (x : Value)
    (xs : List Value) : (flattenAllWith enter (x :: xs)).toOption =
      (flattenWith enter x).toOption.bind fun ns =>
        (flattenAllWith enter xs).toOption.map (ns ++ ·) := by
  rw [flattenAllWith]
  cases flattenWith enter x with
  | error stray => rfl
  | ok ns =>
    simp only
    cases flattenAllWith enter xs <;> rfl

/-- What nests side by side flatten to, if they do. -/
theorem toOption_flattenAllWith_append (enter : ListId → Except Stray (List NodeId))
    (ys : List Value) : ∀ xs : List Value, (flattenAllWith enter (xs ++ ys)).toOption =
      (flattenAllWith enter xs).toOption.bind fun ns =>
        (flattenAllWith enter ys).toOption.map (ns ++ ·)
  | [] => by
    rw [flattenAllWith, List.nil_append]
    cases flattenAllWith enter ys <;> rfl
  | x :: xs => by
    rw [List.cons_append, toOption_flattenAllWith_cons, toOption_flattenAllWith_cons,
      toOption_flattenAllWith_append enter ys xs]
    cases (flattenWith enter x).toOption with
    | none => rfl
    | some ks =>
      cases (flattenAllWith enter xs).toOption with
      | none => rfl
      | some ns =>
        cases (flattenAllWith enter ys).toOption with
        | none => rfl
        | some ms => simp [List.append_assoc]

end Value

namespace Store

variable {s : Store}

@[simp] theorem size_fillAll (self : NodeId) : ∀ (cs : List NodeId) (s : Store),
    (s.fillAll self cs).nodes.size = s.nodes.size
  | [], _ => rfl
  | c :: cs, s => (size_fillAll self cs (s.fill c self)).trans (size_fill s c self)

/-- Completing the locations of others from a node leaves its own as it is. -/
theorem position_fillAll (self : NodeId) : ∀ (cs : List NodeId) (s : Store),
    ((s.fillAll self cs).node self).position = (s.node self).position
  | [], _ => rfl
  | c :: cs, s => by
    rw [fillAll, List.foldl_cons, ← fillAll, position_fillAll self cs, node_fill]
    split
    · rename_i h
      rw [h.1]
      exact Position.completed_self _
    · rfl

theorem toOption_flattenAll (s : Store) (xs : List Value) : (s.flattenAll xs).toOption =
    (Value.flattenAllWith (s.flattenList s.nesting) xs).toOption := by
  unfold flattenAll
  cases Value.flattenAllWith (s.flattenList s.nesting) xs <;> rfl

/-- Values side by side list their nodes one after the other. -/
theorem nested?_append (xs ys : List Value) :
    s.nested? (xs ++ ys) = do return (← s.nested? xs) ++ (← s.nested? ys) := by
  unfold nested?
  rw [toOption_flattenAll, toOption_flattenAll, toOption_flattenAll,
    Value.toOption_flattenAllWith_append]
  cases (Value.flattenAllWith (s.flattenList s.nesting) xs).toOption with
  | none => rfl
  | some ns =>
    cases (Value.flattenAllWith (s.flattenList s.nesting) ys).toOption with
    | none => rfl
    | some ms => exact congrArg some List.map_append

theorem nested?_eq_nodes {xs : List Value} {ks : List Kid} (h : s.nested? xs = some ks) :
    ∃ ns : List NodeId, ks = ns.map .node := by
  unfold nested? at h
  obtain ⟨ns, _, rfl⟩ := Option.map_eq_some_iff.mp h
  exact ⟨ns, rfl⟩

/-- A table names its keys. -/
theorem names_keyed? : ∀ {es : Table} {ks : List Kid}, s.keyed? es = some ks →
    Kid.names ks = es.map (·.1)
  | [], ks, h => by
    cases h
    rfl
  | e :: es, ks, h => by
    simp only [keyed?, Option.pure_def, Option.bind_eq_bind, Option.bind_eq_some_iff,
      Option.some.injEq] at h
    obtain ⟨ks, hks, ls, hls, rfl⟩ := h
    obtain ⟨ns, rfl⟩ := nested?_eq_nodes hks
    rw [Kid.names, Kid.names_append, Kid.names_nodes, names_keyed? hls]
    rfl

/-- The variables made for keywords, each with its expression, flatten to what the table lists. -/
theorem nested?_keyed : ∀ (es : Table) (next : NodeId),
    s.nested? ((List.zipWith (fun e n => (n, e.2)) es (List.range' next es.length)).flatMap
      fun (v, expr) => [.node v, expr]) =
        (s.keyed? es).map fun ks => (Kid.places next ks).map .node
  | [], _ => rfl
  | e :: es, next => by
    rw [List.length_cons, List.range'_succ, List.zipWith_cons_cons, List.flatMap_cons,
      nested?_append, nested?_keyed es (next + 1), keyed?]
    have hone : s.nested? [.node next, e.2] =
        (s.nested? [e.2]).map fun ks => .node next :: ks := by
      rw [show [Value.node next, e.2] = [.node next] ++ [e.2] from rfl, nested?_append]
      cases s.nested? [e.2] <;> rfl
    simp only [hone]
    cases hn : s.nested? [e.2] with
    | none => rfl
    | some ks =>
      obtain ⟨ns, rfl⟩ := nested?_eq_nodes hn
      cases s.keyed? es with
      | none => rfl
      | some ls => simp [Kid.places, Kid.places_append]

/-- What a mixin call lists of its own where its keywords are `es`: the nodes of the arguments, then
a variable and an expression for each keyword, then the nodes of what is splatted. -/
def called? (s : Store) (args : Value) (es : Table) (rest : List Value) : Option (List Kid) := do
  let before ← s.nested? [args]
  let named ← s.keyed? es
  return before ++ named ++ (← s.nested? rest)

/-- No part of what a mixin call lists changes the store, so it does not matter that collecting
turns to the keywords before it looks into the arguments. -/
theorem ownKids_mixin (self : NodeId) (name args keywords splat keywordSplat : Value) :
    s.ownKids self (.mixin name args keywords splat keywordSplat) =
      ((s.items args).toOption.bind haveNames).bind fun _ =>
        (s.keywords keywords "items").toOption.bind fun es =>
          s.called? args es [splat, keywordSplat] := by
  simp only [ownKids, called?, Option.bind_eq_bind, Option.bind_assoc]
  refine Option.bind_congr fun xs _ => Option.bind_congr fun _ _ => ?_
  cases s.nested? [args] with
  | some before => rfl
  | none => cases (s.keywords keywords "items").toOption <;> rfl

section Called

variable {args : Value} {es : Table} {rest : List Value} {ks : List Kid}

/-- The kids of a mixin call are those that are listed before the keywords, those by keyword, and
those after them. -/
theorem called?_cases (h : s.called? args es rest = some ks) :
    ∃ (before : List NodeId) (named : List Kid) (after : List NodeId),
      s.nested? [args] = some (before.map .node) ∧ s.keyed? es = some named ∧
      s.nested? rest = some (after.map .node) ∧
      ks = before.map .node ++ named ++ after.map .node := by
  simp only [called?, Option.pure_def, Option.bind_eq_bind, Option.bind_eq_some_iff,
    Option.some.injEq] at h
  obtain ⟨before, hbefore, named, hnamed, after, hafter, rfl⟩ := h
  obtain ⟨ns, rfl⟩ := nested?_eq_nodes hbefore
  obtain ⟨ms, rfl⟩ := nested?_eq_nodes hafter
  exact ⟨ns, named, ms, hbefore, hnamed, hafter, rfl⟩

/-- Only the keywords of a mixin call are made into variables. -/
theorem names_called? (h : s.called? args es rest = some ks) : Kid.names ks = es.map (·.1) := by
  obtain ⟨before, named, after, -, hnamed, -, rfl⟩ := called?_cases h
  simp [names_keyed? hnamed]

/-- A mixin call flattens to what it lists, with its variables in their places. -/
theorem nested?_called (next : NodeId) :
    s.nested? (args :: ((List.zipWith (fun e n => (n, e.2)) es
        (List.range' next es.length)).flatMap (fun (v, expr) => [.node v, expr]) ++ rest)) =
      (s.called? args es rest).map fun ks => (Kid.places next ks).map .node := by
  rw [← List.singleton_append, nested?_append, nested?_append, nested?_keyed, called?]
  cases hbefore : s.nested? [args] with
  | none => rfl
  | some before =>
    cases s.keyed? es with
    | none => rfl
    | some named =>
      cases hafter : s.nested? rest with
      | none => rfl
      | some after =>
        obtain ⟨ns, rfl⟩ := nested?_eq_nodes hbefore
        obtain ⟨ms, rfl⟩ := nested?_eq_nodes hafter
        simp [Kid.places_append]

end Called

/-- The name part of an argument is among the nodes of all arguments. -/
theorem mem_nested?_of_argument {args : Value} {vs : List Value} {xs : List Value} {x : Value}
    {c : NodeId} (hi : s.items args = .ok xs) (hx : x ∈ xs)
    (hc : Edit.argumentName x = .ok (.node c)) (ha : args ∈ vs) {ks : List Kid}
    (h : s.nested? vs = some ks) : .node c ∈ ks := by
  unfold nested? flattenAll at h
  cases hf : Value.flattenAllWith (s.flattenList s.nesting) vs with
  | error stray => simp [hf, Except.toOption] at h
  | ok ns =>
    rw [hf] at h
    cases h
    refine List.mem_map_of_mem ?_
    obtain ⟨ms, hms, hsub⟩ := Value.flattenAllWith_mem hf ha
    refine hsub c ?_
    have inside : ∀ {enter : ListId → Except Stray (List NodeId)},
        Value.flattenAllWith enter xs = .ok ms → c ∈ ms := by
      intro enter h
      obtain ⟨ls, hls, hsub⟩ := Value.flattenAllWith_mem h hx
      exact hsub c (Value.mem_flattenWith_of_argumentName hc hls)
    cases args with
    | list l =>
      cases hi
      exact inside hms
    | tuple m ys =>
      cases hi
      rw [Value.flattenWith] at hms
      exact inside hms
    | _ => simp [Value.flattenWith, items] at hms hi

/-! ## What collecting comes to -/

/-- An outcome and a store that collecting the children of a node can come to where the table
lists `listed`: locations of some children are completed and variables made, no child is given but
those listed, and all are given unless there are variables among them and a part of the node's
location was lost. -/
structure Collects (s : Store) (n : NodeId) (listed : Option (List Kid))
    (outcome : Except Fault (List NodeId)) (after : Store) : Prop where
  effect : ∃ filled names, after = (s.fillAll n filled).addVariables n names ∧
    (∀ ks, listed = some ks → ∀ c ∈ filled, .node c ∈ ks) ∧
    ∀ cs, outcome = .ok cs →
      ∃ ks, listed = some ks ∧ cs = Kid.places s.nodes.size ks ∧ names = Kid.names ks
  total : ∀ ks, listed = some ks →
    ((∃ cs, outcome = .ok cs) ↔ Kid.names ks = [] ∨ (s.node n).position.Present)

variable {self : NodeId}

/-- Reading alone changes nothing, and finds nodes that are there. -/
theorem Collects.of_reads {listed : Option (List Kid)} {outcome : Except Fault (List NodeId)}
    (h : listed = outcome.toOption.map (·.map .node)) : s.Collects self listed outcome s := by
  cases outcome with
  | error fault =>
    rw [h]
    exact ⟨⟨[], [], rfl, fun ks hks => by simp [Except.toOption] at hks,
      fun cs hcs => by simp at hcs⟩, fun ks hks => by simp [Except.toOption] at hks⟩
  | ok ns =>
    rw [h]
    refine ⟨⟨[], [], rfl, fun ks _ c hc => absurd hc (by simp), ?_⟩, ?_⟩
    · intro cs hcs
      cases hcs
      exact ⟨ns.map .node, rfl, (Kid.places_nodes _ _).symm, (Kid.names_nodes _).symm⟩
    · intro ks hks
      cases hks
      exact ⟨fun _ => Or.inl (Kid.names_nodes _), fun _ => ⟨ns, rfl⟩⟩

/-- Collecting can break off where nothing is listed. -/
theorem Collects.of_none {listed : Option (List Kid)} {fault : Fault} (filled : List NodeId)
    (names : List Value) (h : listed = none) :
    s.Collects self listed (.error fault) ((s.fillAll self filled).addVariables self names) := by
  rw [h]
  exact ⟨⟨filled, names, rfl, fun ks hks => by simp at hks, fun cs hcs => by simp at hcs⟩,
    fun ks hks => by simp at hks⟩

/-- Collecting can break off where there are variables to be made and a part of the node's location
was lost. -/
theorem Collects.of_lost {listed : Option (List Kid)} {fault : Fault} (filled : List NodeId)
    (h : ∀ ks, listed = some ks → (∀ c ∈ filled, .node c ∈ ks) ∧
      ¬(Kid.names ks = [] ∨ (s.node self).position.Present)) :
    s.Collects self listed (.error fault) (s.fillAll self filled) where
  effect := ⟨filled, [], rfl, fun ks hks => (h ks hks).1, fun cs hcs => by simp at hcs⟩
  total ks hks := ⟨fun ⟨_, hcs⟩ => by simp at hcs, fun hno => absurd hno (h ks hks).2⟩

/-- Collecting goes through. -/
theorem Collects.of_ok {listed : Option (List Kid)} {ks : List Kid} (filled : List NodeId)
    (names : List Value) (h : listed = some ks) (hfilled : ∀ c ∈ filled, .node c ∈ ks)
    {cs : List NodeId} (hcs : cs = Kid.places s.nodes.size ks) (hnames : names = Kid.names ks)
    (hpresent : names = [] ∨ (s.node self).position.Present) :
    s.Collects self listed (.ok cs) ((s.fillAll self filled).addVariables self names) where
  effect := by
    refine ⟨filled, names, rfl, ?_, ?_⟩
    · intro ks' hks'
      rw [h] at hks'
      cases hks'
      exact hfilled
    · intro cs' hcs'
      cases hcs'
      exact ⟨ks, h, hcs, hnames⟩
  total ks' hks' := by
    rw [h] at hks'
    cases hks'
    rw [← hnames]
    exact ⟨fun _ => hpresent, fun _ => ⟨cs, rfl⟩⟩

theorem nested?_of_ok {t : Store} (h : t.lists = s.lists) {xs : List Value} {ns : List NodeId}
    (hf : t.flattenAll xs = .ok ns) : s.nested? xs = some (ns.map .node) := by
  unfold nested?
  rw [← flattenAll_congr h, hf]
  rfl

theorem nested?_of_error {t : Store} (h : t.lists = s.lists) {xs : List Value} {fault : Fault}
    (hf : t.flattenAll xs = .error fault) : s.nested? xs = none := by
  unfold nested?
  rw [← flattenAll_congr h, hf]
  rfl

theorem structural?_of_ok {t : Store} (h : s.Alike t) {n : NodeId} (hn : n < s.nodes.size)
    {ns : List NodeId} (hb : t.base n = .ok ns) : s.structural? n = some (ns.map .node) := by
  unfold structural?
  rw [← h.base hn, hb]
  rfl

theorem structural?_of_error {t : Store} (h : s.Alike t) {n : NodeId} (hn : n < s.nodes.size)
    {fault : Fault} (hb : t.base n = .error fault) : s.structural? n = none := by
  unfold structural?
  rw [← h.base hn, hb]
  rfl

/-- The children that the table lists for a node of which this is the statement. -/
def listedFor (s : Store) (self : NodeId) (st : Statement) : Option (List Kid) := do
  return (← s.structural? self) ++ (← s.ownKids self st)

end Store

namespace Edit

open Store

variable {s : Store} {self : NodeId}

/-- Listing what two readings give, and how it fails. -/
theorem perform_append (f g : Store → Except Fault (List NodeId)) (s : Store) :
    (do return (← tryRead f) ++ (← tryRead g) : Edit (List NodeId)).perform s =
      (do return (← f s) ++ (← g s), s) := by
  simp only [perform_bind, perform_tryRead, perform_pure]
  cases f s with
  | error fault => rfl
  | ok ns =>
    simp only
    cases g s <;> rfl

/-- What two results give as kids, if both are there. -/
theorem toOption_append (x y : Except Fault (List NodeId)) :
    (do return (← x) ++ (← y) : Except Fault (List NodeId)).toOption.map (·.map Kid.node) =
      (do return (← x.toOption.map (·.map .node)) ++ (← y.toOption.map (·.map .node))) := by
  cases x with
  | error fault => rfl
  | ok ns =>
    cases y with
    | error fault => rfl
    | ok ms => exact congrArg some List.map_append

/-- A statement that lists what it finds by reading. -/
theorem collects_append {st : Statement} {g : Store → Except Fault (List NodeId)}
    (hg : s.ownKids self st = (g s).toOption.map (·.map .node)) :
    s.Collects self (s.listedFor self st)
      ((do return (← tryRead (·.base self)) ++ (← tryRead g) : Edit _).perform s).1
      ((do return (← tryRead (·.base self)) ++ (← tryRead g) : Edit _).perform s).2 := by
  rw [perform_append]
  refine .of_reads ?_
  rw [toOption_append, listedFor, hg]
  rfl

theorem collects_base {st : Statement} (hown : s.ownKids self st = some []) :
    s.Collects self (s.listedFor self st) (s.base self) s := by
  refine .of_reads ?_
  rw [listedFor, hown, structural?]
  cases s.base self with
  | error fault => rfl
  | ok ns => exact congrArg some (List.append_nil _)

/-- A directive is asked for its value before that is looked into. -/
theorem collects_valued (v : Value) {st : Statement}
    (hown : s.ownKids self st = (s.callable (.node self) "directive_value").toOption.bind
      fun _ => s.embedded? v) :
    let p := (do
      let before ← tryRead (·.base self)
      tryRead (·.callable (.node self) "directive_value")
      return before ++ (← tryRead (·.scripts v)) : Edit (List NodeId)).perform s
    s.Collects self (s.listedFor self st) p.1 p.2 := by
  rw [listedFor, hown, structural?, embedded?]
  simp only [perform_bind, perform_tryRead, perform_pure]
  cases s.base self with
  | error fault => exact .of_reads rfl
  | ok before =>
    simp only
    cases s.callable (.node self) "directive_value" with
    | error fault => exact .of_reads rfl
    | ok u =>
      simp only
      cases s.scripts v with
      | error fault => exact .of_reads rfl
      | ok ns => exact .of_reads (congrArg some List.map_append.symm)

/-- A property completes the location of its value before that is listed. -/
theorem collects_prop (name value : Value) :
    let p := (collectStatement (Early.filling self) self (.prop name value)).perform s
    s.Collects self (s.listedFor self (.prop name value)) p.1 p.2 := by
  simp only [collectStatement, Early.filling, perform_bind, perform_tryRead, perform_fill,
    perform_pure, listedFor, structural?, ownKids, embedded?]
  cases s.base self with
  | error fault => exact .of_reads rfl
  | ok before =>
    simp only
    cases s.scripts name with
    | error fault => exact .of_reads rfl
    | ok names =>
      simp only
      have hlists := (Alike.fillAll self value.node?.toList s).lists
      cases hf : (s.fillAll self value.node?.toList).flattenAll [value] with
      | error fault =>
        rw [nested?_of_error hlists hf]
        exact .of_none _ [] rfl
      | ok ns =>
        rw [nested?_of_ok hlists hf]
        refine .of_ok value.node?.toList [] rfl ?_ ?_ ?_ (Or.inl rfl)
        · intro c hc
          cases value with
          | node n =>
            cases hf
            rw [List.mem_singleton.mp hc]
            simp
          | _ => simp [Value.node?] at hc
        · simp [Kid.places_append]
        · simp

/-- A loop over items makes its variables before anything is listed. If it has lost a part of its
location it fails at the first of them. -/
theorem collects_each (hself : self < s.nodes.size) (vars list : Value) :
    let p := (collectStatement (Early.filling self) self (.each vars list)).perform s
    s.Collects self (s.listedFor self (.each vars list)) p.1 p.2 := by
  simp only [collectStatement, perform_bind, perform_tryRead, perform_pure, listedFor, ownKids]
  cases s.items vars with
  | error fault =>
    refine .of_reads ?_
    cases s.structural? self <;> rfl
  | ok xs =>
    simp only
    rcases newVariables_cases hself xs with ⟨hpresent, hmade⟩ | ⟨hlost, fault, hmade⟩
    · have halike := Alike.addVariables self xs s
      simp only [hmade]
      cases hb : (s.addVariables self xs).base self with
      | error fault =>
        rw [structural?_of_error halike hself hb]
        exact .of_none [] xs rfl
      | ok before =>
        rw [structural?_of_ok halike hself hb]
        simp only
        cases hf : (s.addVariables self xs).flattenAll [list] with
        | error fault =>
          rw [nested?_of_error halike.lists hf]
          exact .of_none [] xs rfl
        | ok ns =>
          rw [nested?_of_ok halike.lists hf]
          refine .of_ok [] xs rfl (fun c hc => absurd hc (by simp)) ?_ ?_ hpresent
          · simp [Kid.places_append]
          · simp
    · simp only [hmade]
      refine .of_lost [] fun ks hks => ⟨fun c hc => absurd hc (by simp), fun hnames => hlost ?_⟩
      simp only [Except.toOption, Option.pure_def, Option.bind_eq_bind, Option.bind_eq_some_iff,
        Option.some.injEq] at hks
      obtain ⟨before, _, _, ⟨_, rfl, ls, _, rfl⟩, rfl⟩ := hks
      refine hnames.imp_left fun hnone => ?_
      simp only [Kid.names_append, Kid.names_variables, List.append_eq_nil_iff] at hnone
      exact hnone.2.1

/-- A counting loop makes its variable between its statements and its bounds. -/
theorem collects_forLoop (var first last exclusive : Value) :
    let p := (collectStatement (Early.filling self) self
      (.forLoop var first last exclusive)).perform s
    s.Collects self (s.listedFor self (.forLoop var first last exclusive)) p.1 p.2 := by
  simp only [collectStatement, perform_bind, perform_tryRead, perform_pure, listedFor, ownKids,
    structural?]
  cases s.base self with
  | error fault => exact .of_reads rfl
  | ok before =>
    simp only
    by_cases h : (s.node self).position.Present
    · have halike := Alike.addVariables self [var] s
      have hmade : (newVariable var (.node self)).perform s =
          (.ok s.nodes.size, s.addVariables self [var]) := perform_newVariable h var
      simp only [hmade]
      cases hf : (s.addVariables self [var]).flattenAll [first, last] with
      | error fault =>
        rw [nested?_of_error halike.lists hf]
        exact .of_none [] [var] rfl
      | ok ns =>
        rw [nested?_of_ok halike.lists hf]
        refine .of_ok [] [var] rfl (fun c hc => absurd hc (by simp)) ?_ ?_ (Or.inr h)
        · simp [Kid.places_append, Kid.places]
        · simp [Kid.names]
    · obtain ⟨fault, hlost⟩ := newVariable_lost h var
      simp only [hlost]
      refine .of_lost [] fun ks hks => ⟨fun c hc => absurd hc (by simp), fun hnames => ?_⟩
      simp only [Except.toOption, Option.pure_def, Option.bind_eq_bind, Option.bind_eq_some_iff,
        Option.some.injEq] at hks
      obtain ⟨ls, _, _, ⟨ms, _, rfl⟩, rfl⟩ := hks
      simp [h, Kid.names] at hnames

/-- Statements with arguments complete the locations of the argument names first. -/
theorem collects_arguments (hself : self < s.nodes.size) (args splat : Value) {st : Statement}
    (hown : s.ownKids self st = ((s.items args).toOption.bind haveNames).bind
      fun _ => s.nested? [args, splat]) :
    let p := (do
      fillArguments args (.node self)
      return (← tryRead (·.base self)) ++ (← tryRead (·.flattenAll [args, splat])) :
        Edit (List NodeId)).perform s
    s.Collects self (s.listedFor self st) p.1 p.2 := by
  obtain ⟨filled, r, hperform, hr, hfilled⟩ := perform_fillArguments args self s
  have halike := Alike.fillAll self filled s
  simp only [perform_bind, hperform, perform_tryRead, perform_pure, listedFor, hown]
  rw [← hr]
  cases r with
  | error fault =>
    refine .of_none filled [] ?_
    cases s.structural? self <;> rfl
  | ok u =>
    simp only
    cases hb : (s.fillAll self filled).base self with
    | error fault =>
      rw [structural?_of_error halike hself hb]
      exact .of_none filled [] rfl
    | ok before =>
      rw [structural?_of_ok halike hself hb]
      simp only
      cases hf : (s.fillAll self filled).flattenAll [args, splat] with
      | error fault =>
        rw [nested?_of_error halike.lists hf]
        exact .of_none filled [] rfl
      | ok ns =>
        have hns := nested?_of_ok halike.lists hf
        rw [hns]
        refine .of_ok filled [] rfl (fun c hc => ?_) ?_ ?_ (Or.inl rfl)
        · obtain ⟨xs, hi, x, hx, hxc⟩ := hfilled c hc
          exact List.mem_append_right _
            (mem_nested?_of_argument hi hx hxc (List.mem_cons_self ..) hns)
        · simp [Kid.places_append]
        · simp

theorem keywordPairs_cases (hself : self < s.nodes.size) (es : Table) :
    (es = [] ∨ (s.node self).position.Present) ∧ (keywordPairs es self).perform s =
        (.ok (List.zipWith (fun e n => (n, e.2)) es (List.range' s.nodes.size es.length)),
          s.addVariables self (es.map (·.1))) ∨
      ¬(es = [] ∨ (s.node self).position.Present) ∧
        ∃ fault, (keywordPairs es self).perform s = (.error fault, s) :=
  mapM_newVariable_cases (fun e : Value × Value => e.1) (fun e n => (n, e.2)) hself es

/-- A mixin call completes the locations of the argument names, then makes its variables, and only
then looks into what it was given. -/
theorem collects_mixin (hself : self < s.nodes.size)
    (name args keywords splat keywordSplat : Value) :
    let p := (collectStatement (Early.filling self) self
      (.mixin name args keywords splat keywordSplat)).perform s
    s.Collects self (s.listedFor self (.mixin name args keywords splat keywordSplat)) p.1 p.2 := by
  obtain ⟨filled, r, hperform, hr, hfilled⟩ := perform_fillArguments args self s
  have halike := Alike.fillAll self filled s
  have hkeywords := keywords_congr (fun k _ => halike.table k) "items" (v := keywords)
  simp only [collectStatement, Early.filling, perform_bind, hperform, perform_tryRead,
    perform_pure, listedFor]
  rw [ownKids_mixin, ← hr]
  cases r with
  | error fault =>
    refine .of_none filled [] ?_
    cases s.structural? self <;> rfl
  | ok u =>
    simp only
    cases hk : (s.fillAll self filled).keywords keywords "items" with
    | error fault =>
      refine .of_none filled [] ?_
      rw [← hkeywords, hk]
      cases s.structural? self <;> rfl
    | ok es =>
      rw [← hkeywords, hk]
      simp only
      have hargs : ∀ ks, s.called? args es [splat, keywordSplat] = some ks →
          ∀ c ∈ filled, .node c ∈ ks := by
        intro ks hks c hc
        obtain ⟨xs, hi, x, hx, hxc⟩ := hfilled c hc
        obtain ⟨before, named, after, hbefore, -, -, rfl⟩ := called?_cases hks
        exact List.mem_append_left _ (List.mem_append_left _
          (mem_nested?_of_argument hi hx hxc (List.mem_cons_self ..) hbefore))
      -- The variables are made all or not at all, by whether there is a position to give them.
      rcases keywordPairs_cases (Nat.lt_of_lt_of_le hself halike.nodes) es with
        ⟨hpresent, hmade⟩ | ⟨hlost, fault, hmade⟩
      · simp only [hmade]
        rw [position_fillAll] at hpresent
        have halike' := halike.trans (Alike.addVariables self (es.map (·.1)) _)
        rw [size_fillAll]
        cases hb : ((s.fillAll self filled).addVariables self (es.map (·.1))).base self with
        | error fault =>
          rw [structural?_of_error halike' hself hb]
          exact .of_none filled _ rfl
        | ok before =>
          rw [structural?_of_ok halike' hself hb]
          simp only [List.cons_append]
          cases hf : ((s.fillAll self filled).addVariables self (es.map (·.1))).flattenAll
              (args :: ((List.zipWith (fun e n => (n, e.2)) es
                (List.range' s.nodes.size es.length)).flatMap (fun (v, expr) => [.node v, expr]) ++
                  [splat, keywordSplat])) with
          | error fault =>
            have hnone := (nested?_called s.nodes.size).symm.trans
              (nested?_of_error halike'.lists hf)
            refine .of_none filled _ ?_
            simp [Except.toOption, Option.map_eq_none_iff.mp hnone]
          | ok ns =>
            obtain ⟨ks, hks, hns⟩ := Option.map_eq_some_iff.mp
              ((nested?_called s.nodes.size).symm.trans (nested?_of_ok halike'.lists hf))
            have hplaces : Kid.places s.nodes.size ks = ns :=
              List.map_injective_iff.mpr (fun _ _ => Kid.node.inj) hns
            refine .of_ok filled _ (?_ : _ = some (before.map .node ++ ks)) ?_ ?_ ?_
              (hpresent.imp_left fun h => by rw [h]; rfl)
            · simp [Except.toOption, hks]
            · exact fun c hc => List.mem_append_right _ (hargs ks hks c hc)
            · simp [Kid.places_append, hplaces]
            · simp [names_called? hks]
      · simp only [hmade]
        rw [position_fillAll] at hlost
        refine .of_lost filled fun ks hks => ?_
        simp only [Option.pure_def, Option.bind_eq_bind, Option.bind_eq_some_iff, Option.some.injEq,
          Except.toOption] at hks
        obtain ⟨before, -, own, ⟨_, -, _, rfl, hown⟩, rfl⟩ := hks
        refine ⟨fun c hc => List.mem_append_right _ (hargs own hown c hc), fun hnames => hlost ?_⟩
        refine hnames.imp_left fun hnone => ?_
        rw [Kid.names_append, names_called? hown, List.append_eq_nil_iff] at hnone
        exact List.map_eq_nil_iff.mp hnone.2

/-- Collecting the children of a statement follows the table. -/
theorem collectStatement_spec (hself : self < s.nodes.size) (st : Statement) :
    let p := (collectStatement (Early.filling self) self st).perform s
    s.Collects self (s.listedFor self st) p.1 p.2 := by
  have reads : ∀ {st : Statement}, s.ownKids self st = some [] →
      s.Collects self (s.listedFor self st) ((tryRead (·.base self)).perform s).1
        ((tryRead (·.base self)).perform s).2 := by
    intro st h
    rw [perform_tryRead]
    exact collects_base h
  cases st with
  | rule selector => exact collects_append (g := (·.scripts selector)) rfl
  | prop name value => exact collects_prop name value
  | comment body style => exact collects_append (g := (·.scripts body)) rfl
  | carrier c expr => exact collects_append (g := (·.flattenAll [expr])) rfl
  | assignment expr name guarded isGlobal => exact collects_append (g := (·.flattenAll [expr])) rfl
  | ifElse expr otherwise => exact collects_append (g := (·.flattenAll [expr, otherwise])) rfl
  | each vars list => exact collects_each hself vars list
  | forLoop var first last exclusive => exact collects_forLoop var first last exclusive
  | callable isFunction name args splat =>
    refine collects_arguments hself args splat ?_
    rw [ownKids]
    cases (s.items args).toOption <;> rfl
  | mixinDef name args splat hasContent =>
    refine collects_arguments hself args splat ?_
    rw [ownKids]
    cases (s.items args).toOption <;> rfl
  | mixin name args keywords splat keywordSplat =>
    exact collects_mixin hself name args keywords splat keywordSplat
  | extend selector isOptional => exact collects_append (g := (·.scripts selector)) rfl
  | directive value => exact collects_valued value rfl
  | media value query => exact collects_valued .null rfl
  | supports value name condition => exact collects_valued .null rfl
  | plain => exact reads rfl
  | root template => exact reads rfl
  | content => exact reads rfl
  | importSheet file => exact reads rfl
  | importCss file uri => exact reads rfl
  | charset name => exact reads rfl
  | atRoot query => exact reads rfl
  | keyframeRule value => exact reads rfl

/-- Collecting the children of a node follows the table. -/
theorem collectWith_spec (s : Store) (self : NodeId) :
    let p := (collectWith (Early.filling self) self).perform s
    s.Collects self (s.listed self) p.1 p.2 := by
  simp only [collectWith, perform_bind, perform_read]
  have reads : ∀ listed, listed = s.structural? self →
      s.Collects self listed (s.base self) s := fun listed h => .of_reads h
  cases hf : (s.node self).form with
  | statement ch st =>
    have hself := lt_size_of_statement hf
    have hlisted : s.listed self = s.listedFor self st := by
      rw [listed, hf]
      rfl
    rw [hlisted]
    exact collectStatement_spec hself st
  | bare =>
    simp only [perform_tryRead]
    refine reads _ ?_
    rw [listed, hf]
    cases s.structural? self <;> rfl
  | expression e =>
    simp only [perform_tryRead]
    refine reads _ ?_
    rw [listed, hf]
    cases s.structural? self <;> rfl

/-- The children of a node, not yet attached to it. -/
def gather (n : NodeId) : Edit (List NodeId) := do
  tryRead (·.callable (.node n) "traversal_children")
  tryRead (·.callable (.node n) "_collect_children")
  collectWith (Early.filling n) n

/-- Gathering follows the table of children. -/
theorem gather_spec (s : Store) (n : NodeId) :
    s.Collects n (s.kids n) ((gather n).perform s).1 ((gather n).perform s).2 := by
  have hspec := collectWith_spec s n
  simp only [gather, perform_bind, perform_tryRead, kids]
  cases s.callable (.node n) "traversal_children" with
  | error fault => exact .of_none [] [] rfl
  | ok _ =>
    simp only
    cases s.callable (.node n) "_collect_children" with
    | error fault => exact .of_none [] [] rfl
    | ok _ => exact hspec

end Edit

end SheetLint
