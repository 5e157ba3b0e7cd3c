import SheetLint.Proofs.Locations

/-!
# What gathering children leaves behind

Before the children of a node are attached to it they are gathered (`Edit.gather`), and that may
fail anywhere: a list may hold something that is no node, a field may be of the wrong sort, an
argument may have no name. All that can have happened by then is that the location of the node was
handed to the value of a property or to the names of arguments (`Store.early`), and that variables
were made (`Edit.gather_cases`). No parent is touched.

The order of things is what makes this so: what is handed down is handed down at once or, where
something fails first, not at all, and after that nothing happens but the making of variables
(`Edit.Makes`).
-/

namespace SheetLint

namespace Edit

/-- The nodes that are the names of arguments, up to the first argument that has none. -/
def argumentNodes : List Value → List NodeId
  | [] => []
  | arg :: args =>
    match argumentName arg with
    | .ok v => v.node?.toList ++ argumentNodes args
    | .error _ => []

end Edit

namespace Store

/-- The nodes that a statement hands its location to before its children are listed: the value of a
property, and the names of arguments. -/
def earlyIn (s : Store) (st : Statement) : List NodeId :=
  let named (args : Value) : List NodeId := (s.items args).toOption.elim [] Edit.argumentNodes
  match st with
  | .prop _ value => value.node?.toList
  | .callable _ _ args _ => named args
  | .mixinDef _ args _ _ => named args
  | .mixin _ args _ _ _ => named args
  | _ => []

/-- The nodes that a node hands its location to before its children are listed. -/
def early (s : Store) (n : NodeId) : List NodeId :=
  match (s.node n).form with
  | .statement _ st => s.earlyIn st
  | _ => []

variable {s t : Store} {n c : NodeId}

/-! ## Locations that are handed down -/

/-- Handing down a location does not change what counts as an expression. -/
@[simp] theorem isExpression_fill (s : Store) (c n m : NodeId) :
    (s.fill c n).isExpression m = s.isExpression m := by
  have hmark : ((s.fill c n).node m).expressionMark = (s.node m).expressionMark := by
    rw [node_fill]
    split
    · rename_i h
      rw [h.1]
      rfl
    · rfl
  have htruthy : ∀ v, (s.fill c n).truthy v = s.truthy v := by
    intro v
    cases v with
    | list l => rw [truthy, truthy, Store.list, Store.list, list_fill]
    | table k => rw [truthy, truthy, Store.table, Store.table, tables_fill]
    | _ => rfl
  rw [isExpression, hmark, htruthy]
  rfl

@[simp] theorem log_fill (s : Store) (c n : NodeId) : (s.fill c n).log = s.log := by
  unfold fill
  split <;> rfl

@[simp] theorem agents_fill (s : Store) (c n : NodeId) : (s.fill c n).agents = s.agents := by
  unfold fill
  split <;> rfl

@[simp] theorem hasBacked_fill (s : Store) (c n : NodeId) :
    (s.fill c n).hasBacked = s.hasBacked := by
  unfold fill
  split <;> rfl

/-- Handing down a location to several nodes touches nothing but the locations of the expressions
among them. -/
theorem node_fillAll (n : NodeId) : ∀ (cs : List NodeId) (s : Store) (c : NodeId),
    (s.fillAll n cs).node c = if c ∈ cs ∧ s.isExpression c = true then
      { s.node c with position := (s.node c).position.completed (s.node n).position }
    else s.node c
  | [], s, c => by simp [fillAll]
  | d :: ds, s, c => by
    have hposition := position_fillAll n [d] s
    rw [fillAll, List.foldl_cons, ← fillAll, node_fillAll n ds, isExpression_fill,
      show s.fill d n = s.fillAll n [d] from rfl, hposition, fillAll, List.foldl_cons,
      List.foldl_nil, node_fill]
    by_cases hexpr : s.isExpression c = true
    · by_cases hd : c = d
      · -- what is listed twice is handed the same location again
        subst hd
        simp [hexpr, Position.completed_twice]
      · simp [hd, hexpr]
    · by_cases hd : c = d
      · subst hd
        simp [hexpr]
      · simp [hd, hexpr]

theorem log_fillAll (n : NodeId) : ∀ (cs : List NodeId) (s : Store), (s.fillAll n cs).log = s.log
  | [], _ => rfl
  | c :: cs, s => (log_fillAll n cs (s.fill c n)).trans (log_fill s c n)

theorem parent_fillAll (n : NodeId) (cs : List NodeId) (s : Store) (c : NodeId) :
    ((s.fillAll n cs).node c).parent = (s.node c).parent := by
  rw [node_fillAll]
  split <;> rfl

/-! ## Variables that are made -/

theorem addVariables_append (s : Store) (n : NodeId) (names names' : List Value) :
    s.addVariables n (names ++ names') = (s.addVariables n names).addVariables n names' :=
  List.foldl_append

theorem log_addVariables (n : NodeId) : ∀ (names : List Value) (s : Store),
    (s.addVariables n names).log = s.log
  | [], _ => rfl
  | name :: names, s => log_addVariables n names (s.addVariable n name)

/-- A variable that is made refers to no parent, and neither does a place where there is nothing. -/
theorem parent_addVariables (n : NodeId) : ∀ (names : List Value) (s : Store) (c : NodeId),
    ((s.addVariables n names).node c).parent = (s.node c).parent
  | [], _, _ => rfl
  | name :: names, s, c => by
    rw [addVariables, List.foldl_cons, ← addVariables, parent_addVariables n names, addVariable,
      node_addNode]
    split
    · rename_i hnew
      rw [node_of_size_le (Nat.le_of_eq hnew.symm)]
    · rfl

/-- What variables were made of can be told from what became of the store. -/
theorem names_of_addVariables {names names' : List Value} (hs : n < s.nodes.size)
    (hsize : t.nodes.size = s.nodes.size) (h : s.addVariables n names = t.addVariables n names') :
    names = names' := by
  have hlength : names.length = names'.length := by
    have hsizes := congrArg (·.nodes.size) h
    simp only [size_addVariables, hsize] at hsizes
    exact Nat.add_left_cancel hsizes
  refine List.ext_getElem hlength fun k hk hk' => ?_
  have hmade := node_addVariables_new names hs (List.getElem?_eq_getElem hk)
  have hmade' := node_addVariables_new names' (hsize ▸ hs) (List.getElem?_eq_getElem hk')
  rw [hsize, ← h, hmade] at hmade'
  simpa using congrArg Node.form hmade'

end Store

namespace Edit

open Store

variable {α β : Type} {s : Store} {n : NodeId}

/-! ## What is done after that -/

/-- An edit that does nothing to the store but make variables that stand where a node does. -/
def Makes (n : NodeId) (e : Edit α) : Prop :=
  ∀ s : Store, n < s.nodes.size → ∃ names, (e.perform s).2 = s.addVariables n names

theorem makes_pure (a : α) : Makes n (pure a) := fun _ _ => ⟨[], rfl⟩

theorem makes_tryRead (f : Store → Except Fault α) : Makes n (tryRead f) := by
  intro s _
  rw [perform_tryRead]
  exact ⟨[], rfl⟩

/-- A sequence makes the variables of both of its parts. -/
theorem makes_bind {x : Edit α} {f : α → Edit β} (hx : Makes n x) (hf : ∀ a, Makes n (f a)) :
    Makes n (x >>= f) := by
  intro s hn
  obtain ⟨names, hnames⟩ := hx s hn
  rw [perform_bind]
  cases hr : x.perform s with
  | mk r t =>
    have ht : t = s.addVariables n names := by rw [← hnames, hr]
    cases r with
    | error fault => exact ⟨names, ht⟩
    | ok a =>
      have hsize : n < t.nodes.size := by
        rw [ht, size_addVariables]
        exact Nat.lt_of_lt_of_le hn (Nat.le_add_right ..)
      obtain ⟨names', hnames'⟩ := hf a t hsize
      exact ⟨names ++ names', by rw [addVariables_append, ← ht, ← hnames']⟩

theorem makes_newVariables (names : List Value) : Makes n (newVariables names n) := by
  intro s hn
  rcases newVariables_cases hn names with ⟨_, hmade⟩ | ⟨_, _, hlost⟩
  · exact ⟨names, by rw [hmade]⟩
  · exact ⟨[], by rw [hlost]; rfl⟩

theorem makes_newVariable (name : Value) : Makes n (newVariable name (.node n)) := by
  intro s _
  by_cases h : (s.node n).position.Present
  · exact ⟨[name], by rw [perform_newVariable h]; rfl⟩
  · obtain ⟨fault, hlost⟩ := newVariable_lost h name
    exact ⟨[], by rw [hlost]; rfl⟩

theorem makes_keywordPairs (es : Table) : Makes n (keywordPairs es n) := by
  intro s hn
  rcases keywordPairs_cases hn es with ⟨_, hmade⟩ | ⟨_, _, hlost⟩
  · exact ⟨_, by rw [hmade]⟩
  · exact ⟨[], by rw [hlost]; rfl⟩

/-! ## Gathering -/

/-- The names of arguments are handed a location one by one, as far as there are names. -/
theorem perform_forM_argumentNodes (n : NodeId) : ∀ (args : List Value) (s : Store), ∃ r,
    (args.forM fun arg => do
      fill (← tryRead fun _ => argumentName arg) (.node n)).perform s =
        (r, s.fillAll n (argumentNodes args))
  | [], _ => ⟨.ok ⟨⟩, rfl⟩
  | arg :: args, s => by
    rw [forM_cons]
    simp only [perform_bind, perform_tryRead, argumentNodes]
    cases argumentName arg with
    | error fault => exact ⟨.error fault, rfl⟩
    | ok v =>
      obtain ⟨r, hr⟩ := perform_forM_argumentNodes n args (s.fillAll n v.node?.toList)
      refine ⟨r, ?_⟩
      simp only [perform_fill, hr]
      rw [Store.fillAll, Store.fillAll, Store.fillAll, List.foldl_append]

/-- What gathering leaves behind, given what is handed down early. -/
def Leaves (n : NodeId) (early : List NodeId) (e : Edit α) (s : Store) : Prop :=
  ∃ filled names, (e.perform s).2 = (s.fillAll n filled).addVariables n names ∧
    (filled = early ∨ filled = [] ∧ ∃ fault, (e.perform s).1 = .error fault)

theorem leaves_of_makes {e : Edit α} (h : Makes n e) (hn : n < s.nodes.size) : Leaves n [] e s := by
  obtain ⟨names, hnames⟩ := h s hn
  exact ⟨[], names, hnames, Or.inl rfl⟩

/-- Reading first changes nothing. -/
theorem leaves_tryRead {f : Store → Except Fault α} {g : α → Edit β} {early : List NodeId}
    (h : ∀ a, Leaves n early (g a) s) : Leaves n early (tryRead f >>= g) s := by
  unfold Leaves
  rw [perform_bind, perform_tryRead]
  cases f s with
  | error fault => exact ⟨[], [], rfl, Or.inr ⟨rfl, fault, rfl⟩⟩
  | ok a => exact h a

/-- Once locations were handed down only variables are made. -/
theorem leaves_fill {x : Edit α} {g : α → Edit β} {early : List NodeId}
    (hx : (x.perform s).2 = s.fillAll n early) (hg : ∀ a, Makes n (g a)) (hn : n < s.nodes.size) :
    Leaves n early (x >>= g) s := by
  unfold Leaves
  rw [perform_bind]
  cases hr : x.perform s with
  | mk r t =>
    have ht : t = s.fillAll n early := by rw [← hx, hr]
    cases r with
    | error fault => exact ⟨early, [], ht, Or.inl rfl⟩
    | ok a =>
      have hsize : n < t.nodes.size := by rwa [ht, size_fillAll]
      obtain ⟨names, hnames⟩ := hg a t hsize
      exact ⟨early, names, by rw [← ht, ← hnames], Or.inl rfl⟩

/-- Completing the locations of argument names hands the location of the node to these, as far as
they can be read. -/
theorem fillArguments_hands (args : Value) (n : NodeId) (s : Store) :
    ((fillArguments args (.node n)).perform s).2 =
      s.fillAll n ((s.items args).toOption.elim [] argumentNodes) := by
  rw [fillArguments, perform_bind, perform_tryRead]
  cases s.items args with
  | error fault => rfl
  | ok xs =>
    obtain ⟨r, hr⟩ := perform_forM_argumentNodes n xs s
    exact congrArg Prod.snd hr

/-- Statements with arguments hand their location to the names first. -/
theorem leaves_arguments {g : Unit → Edit β} (args : Value) (hg : ∀ u, Makes n (g u))
    (hn : n < s.nodes.size) :
    Leaves n ((s.items args).toOption.elim [] argumentNodes)
      (fillArguments args (.node n) >>= g) s :=
  leaves_fill (fillArguments_hands args n s) hg hn

/-- What is read once the children are known, after the structural ones. -/
theorem makes_append (f : Store → Except Fault (List NodeId)) :
    Makes n (do return (← tryRead (·.base n)) ++ (← tryRead f)) :=
  makes_bind (makes_tryRead _) fun _ => makes_bind (makes_tryRead f) fun _ => makes_pure _

/-- A statement that hands nothing down early does nothing but make variables. -/
theorem makes_collectPlain (st : Statement) : Makes n (collectStatement Early.nothing n st) := by
  have base : Makes n (tryRead (·.base n)) := makes_tryRead _
  have valued : ∀ v, Makes n (do
      let before ← tryRead (·.base n)
      tryRead (·.callable (.node n) "directive_value")
      return before ++ (← tryRead (·.scripts v))) := fun v =>
    makes_bind base fun _ => makes_bind (makes_tryRead _) fun _ =>
      makes_bind (makes_tryRead _) fun _ => makes_pure _
  cases st with
  | rule selector => exact makes_append _
  | prop name value =>
    exact makes_bind base fun _ => makes_bind (makes_tryRead _) fun _ =>
      makes_bind (makes_pure _) fun _ => makes_bind (makes_tryRead _) fun _ => makes_pure _
  | comment body style => exact makes_append _
  | carrier c expr => exact makes_append _
  | assignment expr name guarded isGlobal => exact makes_append _
  | ifElse expr otherwise => exact makes_append _
  | each vars list =>
    refine makes_bind (makes_tryRead _) fun names => ?_
    exact makes_bind (makes_newVariables names) fun _ => makes_bind base fun _ =>
      makes_bind (makes_tryRead _) fun _ => makes_pure _
  | forLoop var first last exclusive =>
    exact makes_bind base fun _ => makes_bind (makes_newVariable var) fun _ =>
      makes_bind (makes_tryRead _) fun _ => makes_pure _
  | callable isFunction name args splat =>
    exact makes_bind (makes_pure _) fun _ => makes_append _
  | mixinDef name args splat hasContent =>
    exact makes_bind (makes_pure _) fun _ => makes_append _
  | mixin name args keywords splat keywordSplat =>
    refine makes_bind (makes_pure _) fun _ => makes_bind (makes_tryRead _) fun es => ?_
    exact makes_bind (makes_keywordPairs es) fun _ => makes_append _
  | extend selector isOptional => exact makes_append _
  | directive value => exact valued value
  | media value query => exact valued .null
  | supports value name condition => exact valued .null
  | _ => exact base

/-- What collecting leaves behind, form by form: the variables that were made and the locations that
were handed down early. -/
theorem leaves_collectStatement (hn : n < s.nodes.size) (st : Statement) :
    Leaves n (s.earlyIn st) (collectStatement (Early.filling n) n st) s := by
  have plain : Makes n (collectStatement Early.nothing n st) := makes_collectPlain st
  -- only a property and the statements with arguments hand anything down
  cases st with
  | prop name value =>
    refine leaves_tryRead fun before => leaves_tryRead fun names => leaves_fill ?_ ?_ hn
    · exact congrArg Prod.snd (perform_fill value n s)
    · exact fun _ => makes_bind (makes_tryRead _) fun _ => makes_pure _
  | callable isFunction name args splat =>
    exact leaves_arguments args (fun _ => makes_append _) hn
  | mixinDef name args splat hasContent =>
    exact leaves_arguments args (fun _ => makes_append _) hn
  | mixin name args keywords splat keywordSplat =>
    refine leaves_arguments args (fun _ => makes_bind (makes_tryRead _) fun es => ?_) hn
    exact makes_bind (makes_keywordPairs es) fun _ => makes_append _
  | _ => exact leaves_of_makes plain hn

/-- Gathering hands down locations early, or fails before it gets there, and makes variables. -/
theorem gather_cases (s : Store) (n : NodeId) : Leaves n (s.early n) (gather n) s := by
  refine leaves_tryRead fun _ => leaves_tryRead fun _ => ?_
  unfold Leaves
  simp only [collectWith, perform_bind, perform_read]
  rw [early]
  cases hf : (s.node n).form with
  | statement children st =>
    exact leaves_collectStatement (lt_size_of_statement hf) st
  | _ => exact ⟨[], [], by rw [perform_tryRead]; rfl, Or.inl rfl⟩

/-- A store in which the children of a node were gathered: these are listed, the locations were
handed down that are handed down early, and a variable was made for each name. -/
structure Gathered (s : Store) (n : NodeId) (ks : List Kid) (u : Store) : Prop where
  there : n < s.nodes.size
  listed : s.kids n = some ks
  whole : Kid.names ks = [] ∨ (s.node n).position.Present
  store : u = (s.fillAll n (s.early n)).addVariables n (Kid.names ks)

/-- Gathering that goes through leaves nothing else behind. -/
theorem gathered {u : Store} {cs : List NodeId} (hn : n < s.nodes.size)
    (h : (gather n).perform s = (.ok cs, u)) :
    ∃ ks, Gathered s n ks u ∧ cs = Kid.places s.nodes.size ks := by
  obtain ⟨filled, names, hu, hfilled⟩ := gather_cases s n
  obtain ⟨⟨filled', names', hu', _, hok⟩, htotal⟩ := gather_spec s n
  rw [h] at hu hfilled hu' hok htotal
  obtain ⟨ks, hks, hcs, rfl⟩ := hok cs rfl
  obtain rfl : filled = s.early n := by
    rcases hfilled with rfl | ⟨_, fault, hfault⟩
    · rfl
    · cases hfault
  -- both ways to tell what was made speak of one store
  have hnames : names = Kid.names ks :=
    names_of_addVariables (by rwa [size_fillAll]) (by rw [size_fillAll, size_fillAll])
      (hu.symm.trans hu')
  rw [hnames] at hu
  exact ⟨ks, ⟨hn, hks, (htotal ks hks).mp ⟨cs, rfl⟩, hu⟩, hcs⟩

end Edit

end SheetLint
