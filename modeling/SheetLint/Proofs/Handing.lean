import SheetLint.Proofs.Failing

/-!
# Handing down early or late

Some nodes hand their location to the value of a property or to the names of arguments before they
list their children. The location is the same whenever it is handed down, and nobody looks at it on
the way: to hand it down goes with handing it to others, with making variables, with attaching and
with logging in any order (`fillAll_fill` and the lemmas beside it). So a node that does not hand it
down early gathers the same children and is behind by just that (`Edit.gather_plain`). What is
handed the location early is among the children (`mem_of_early`), so they get it in the end all the
same.
-/

namespace SheetLint

namespace Store

variable {s : Store} {n c d : NodeId}

/-! ## Writing in any order -/

theorem setNode_setNode (s : Store) (c : NodeId) (x y : Node) :
    (s.setNode c x).setNode c y = s.setNode c y := by
  simp [setNode]

theorem setNode_comm (s : Store) (hne : c ≠ d) (x y : Node) :
    (s.setNode c x).setNode d y = (s.setNode d y).setNode c x := by
  simp only [setNode, Array.setIfInBounds_comm (some x) (some y) hne]

theorem addNode_setNode (s : Store) (hc : c < s.nodes.size) (x y : Node) :
    (s.setNode c x).addNode y = (s.addNode y).setNode c x := by
  simp only [setNode, addNode]
  congr 1
  refine Array.ext_getElem? fun i => ?_
  simp only [Array.getElem?_push, Array.getElem?_setIfInBounds, Array.size_setIfInBounds,
    Array.size_push]
  grind

/-- To write what is there changes nothing. -/
theorem setNode_self {x : Node} (h : s.node? c = some x) : s.setNode c x = s := by
  have hx : s.nodes[c]? = some (some x) := Option.join_eq_some_iff.mp h
  obtain ⟨hc, hget⟩ := Array.getElem?_eq_some_iff.mp hx
  simp only [setNode, Array.setIfInBounds_def, dif_pos hc, ← hget, Array.set_getElem_self]

/-- What counts as an expression is there. -/
theorem node?_of_isExpression (h : s.isExpression c = true) : s.node? c = some (s.node c) := by
  cases hx : s.node? c with
  | some x => rw [node, hx, Option.getD_some]
  | none =>
    rw [isExpression, node, hx] at h
    cases h

theorem lt_size_of_isExpression (h : s.isExpression c = true) : c < s.nodes.size := by
  rcases Nat.lt_or_ge c s.nodes.size with hlt | hge
  · exact hlt
  · rw [isExpression_of_size_le hge] at h
    exact absurd h (by simp)

theorem fill_of_isExpression (h : s.isExpression c = true) (n : NodeId) :
    s.fill c n = s.setNode c { s.node c with
      position := (s.node c).position.completed (s.node n).position } := if_pos h

/-- Who hands a location down keeps it. -/
theorem container_fill (s : Store) (c n : NodeId) :
    ((s.fill c n).node n).position = (s.node n).position :=
  position_fillAll n [c] s

theorem rests_of_not_isExpression (h : ¬s.isExpression c = true) : s.Rests n c :=
  fun hexpr => absurd hexpr h

/-- Where there is nothing left to take nothing is done. -/
theorem Rests.fill_eq (h : s.Rests n c) : s.fill c n = s := by
  by_cases hexpr : s.isExpression c = true
  · rw [fill_of_isExpression hexpr, h hexpr]
    exact setNode_self (node?_of_isExpression hexpr)
  · exact if_neg hexpr

/-- A node hands its location to two children in either order. -/
theorem fill_fill (s : Store) (n c d : NodeId) :
    (s.fill c n).fill d n = (s.fill d n).fill c n := by
  by_cases hcd : c = d
  · rw [hcd]
  by_cases hc : s.isExpression c = true
  case neg =>
    have hrests := rests_of_not_isExpression (n := n) hc
    rw [hrests.fill_eq, (hrests.fill d).fill_eq]
  by_cases hd : s.isExpression d = true
  case neg =>
    have hrests := rests_of_not_isExpression (n := n) hd
    rw [hrests.fill_eq, (hrests.fill c).fill_eq]
  have hc' : (s.fill d n).isExpression c = true := by rwa [isExpression_fill]
  have hd' : (s.fill c n).isExpression d = true := by rwa [isExpression_fill]
  rw [fill_of_isExpression hd', fill_of_isExpression hc', container_fill, container_fill, node_fill,
    node_fill, if_neg fun h => hcd h.1.symm, if_neg fun h => hcd h.1, fill_of_isExpression hc,
    fill_of_isExpression hd]
  exact setNode_comm s hcd _ _

theorem setParent_node (s : Store) (d : NodeId) (v : Value) : s.setParent (.node d) v =
    s.setNode d { s.node d with parent := .to v } := rfl

/-- Handing down a location and writing a parent do not meet. -/
theorem fill_setParent (s : Store) (n c d : NodeId) (v : Value) :
    (s.setParent (.node d) v).fill c n = (s.fill c n).setParent (.node d) v := by
  by_cases hc : s.isExpression c = true
  case neg =>
    have hrests := rests_of_not_isExpression (n := n) hc
    rw [hrests.fill_eq, (hrests.setParent d v).fill_eq]
  have hc' : (s.setParent (.node d) v).isExpression c = true := by rwa [isExpression_setParent]
  rw [fill_of_isExpression hc', position_setParent, position_setParent, node_setParent,
    setParent_node, setParent_node, node_fill, fill_of_isExpression hc]
  by_cases hcd : d = c
  · subst hcd
    rw [if_pos ⟨rfl, lt_size_of_isExpression hc⟩, if_pos ⟨rfl, hc⟩, setNode_setNode,
      setNode_setNode]
  · rw [if_neg fun h => hcd h.1, if_neg fun h => hcd h.1]
    exact setNode_comm s hcd _ _

/-- Handing down a location and making a variable do not meet. -/
theorem fill_addVariable (hn : n < s.nodes.size) (c : NodeId) (name : Value) :
    (s.addVariable n name).fill c n = (s.fill c n).addVariable n name := by
  by_cases hc : s.isExpression c = true
  case neg =>
    have hrests := rests_of_not_isExpression (n := n) hc
    rw [hrests.fill_eq, (hrests.addVariable hn name).fill_eq]
  have hlt := lt_size_of_isExpression hc
  have hnode : (s.addVariable n name).node c = s.node c := node_addVariable hlt name
  have hc' : (s.addVariable n name).isExpression c = true := by
    rw [isExpression, hnode]
    exact hc
  rw [fill_of_isExpression hc', hnode, node_addVariable hn, addVariable, addVariable,
    container_fill, fill_of_isExpression hc, addNode_setNode s hlt]

/-! ## Handing down to several nodes -/

theorem fillAll_fill (n c : NodeId) : ∀ (early : List NodeId) (s : Store),
    (s.fillAll n early).fill c n = (s.fill c n).fillAll n early
  | [], _ => rfl
  | d :: early, s => by
    rw [fillAll, List.foldl_cons, ← fillAll, fillAll_fill n c early, fill_fill]
    rfl

theorem fillAll_setParent (n d : NodeId) (v : Value) : ∀ (early : List NodeId) (s : Store),
    (s.setParent (.node d) v).fillAll n early = (s.fillAll n early).setParent (.node d) v
  | [], _ => rfl
  | c :: early, s => by
    rw [fillAll, List.foldl_cons, ← fillAll, fill_setParent, fillAll_setParent n d v early]
    rfl

theorem fillAll_addVariable (name : Value) : ∀ (early : List NodeId) {s : Store},
    n < s.nodes.size →
      (s.addVariable n name).fillAll n early = (s.fillAll n early).addVariable n name
  | [], _, _ => rfl
  | c :: early, s, hn => by
    rw [fillAll, List.foldl_cons, ← fillAll, fill_addVariable hn,
      fillAll_addVariable name early (by rwa [size_fill])]
    rfl

/-- It makes no difference whether variables are made before or after locations are handed down. -/
theorem fillAll_addVariables (early : List NodeId) : ∀ (names : List Value) {s : Store},
    n < s.nodes.size →
      (s.addVariables n names).fillAll n early = (s.fillAll n early).addVariables n names
  | [], _, _ => rfl
  | name :: names, s, hn => by
    have hnext : n < (s.addVariable n name).nodes.size := by
      rw [size_addVariable]
      exact Nat.lt_succ_of_lt hn
    rw [addVariables, List.foldl_cons, ← addVariables, fillAll_addVariables early names hnext,
      fillAll_addVariable name early hn]
    rfl

/-- Where all have what they can take nothing is done. -/
theorem fillAll_eq_self : ∀ {early : List NodeId} {s : Store}, (∀ c ∈ early, s.Rests n c) →
    s.fillAll n early = s
  | [], _, _ => rfl
  | c :: early, s, h => by
    have hc := h c (List.mem_cons_self ..)
    rw [fillAll, List.foldl_cons, ← fillAll, hc.fill_eq]
    exact fillAll_eq_self fun d hd => h d (List.mem_cons_of_mem _ hd)

/-- The store with another log. -/
def withLog (s : Store) (log : List Message) : Store := { s with log }

theorem fill_withLog (s : Store) (c n : NodeId) (log : List Message) :
    (s.withLog log).fill c n = (s.fill c n).withLog log := by
  by_cases hc : s.isExpression c = true
  · rw [fill_of_isExpression hc]
    exact if_pos hc
  · rw [rests_of_not_isExpression (n := n) hc |>.fill_eq]
    exact if_neg hc

theorem fillAll_withLog (n : NodeId) (log : List Message) : ∀ (early : List NodeId) (s : Store),
    (s.withLog log).fillAll n early = (s.fillAll n early).withLog log
  | [], _ => rfl
  | c :: early, s => by
    rw [fillAll, List.foldl_cons, ← fillAll, fill_withLog, fillAll_withLog n log early]
    rfl

end Store

namespace Edit

open Store

variable {α β : Type} {s : Store} {n c : NodeId}

/-! ## Gathering without it -/

/-- An edit that gives the same where locations were not handed down yet, and leaves the same behind
but for these. It may make variables that stand where `n` does, and does nothing else. -/
def Blind (n : NodeId) (e : Edit α) : Prop :=
  ∀ (s : Store) (early : List NodeId) (a : α) (u : Store), n < s.nodes.size →
    e.perform (s.fillAll n early) = (.ok a, u) →
      ∃ names, e.perform s = (.ok a, s.addVariables n names) ∧
        u = (s.addVariables n names).fillAll n early

theorem blind_pure (a : α) : Blind n (pure a) := by
  intro s early a' u _ h
  cases h
  exact ⟨[], rfl, rfl⟩

/-- Reading is blind if what is read is the same after locations were handed down. -/
theorem blind_tryRead {f : Store → Except Fault α}
    (hf : ∀ s early, n < s.nodes.size → (f (s.fillAll n early)).toOption = (f s).toOption) :
    Blind n (tryRead f) := by
  intro s early a u hn h
  rw [perform_tryRead] at h
  obtain ⟨hread, rfl⟩ := Prod.mk.inj h
  have hsame := hf s early hn
  rw [hread] at hsame
  refine ⟨[], ?_, rfl⟩
  rw [perform_tryRead, toOption_eq_some.mp hsame.symm]
  rfl

/-- A sequence is blind if both of its parts are. -/
theorem blind_bind {x : Edit α} {f : α → Edit β} (hx : Blind n x) (hf : ∀ a, Blind n (f a)) :
    Blind n (x >>= f) := by
  intro s early b u hn h
  obtain ⟨a, t, ht, hu⟩ := of_perform_bind_ok h
  obtain ⟨names, hplain, rfl⟩ := hx s early a t hn ht
  have hn' : n < (s.addVariables n names).nodes.size := by
    rw [size_addVariables]
    exact Nat.lt_of_lt_of_le hn (Nat.le_add_right ..)
  obtain ⟨names', hplain', rfl⟩ := hf a _ early b u hn' hu
  refine ⟨names ++ names', ?_, ?_⟩
  · rw [perform_bind_ok hplain, hplain', addVariables_append]
  · rw [addVariables_append]

theorem blind_keywordPairs (es : Table) : Blind n (keywordPairs es n) := by
  intro s early pairs u hn h
  have hn' : n < (s.fillAll n early).nodes.size := by rwa [size_fillAll]
  rcases keywordPairs_cases hn' es with ⟨hpresent, hmade⟩ | ⟨_, fault, hlost⟩
  · rw [position_fillAll] at hpresent
    rcases keywordPairs_cases hn es with ⟨_, hplain⟩ | ⟨hlost, _⟩
    · rw [hmade, size_fillAll] at h
      cases h
      exact ⟨_, hplain, (fillAll_addVariables early _ hn).symm⟩
    · exact absurd hpresent hlost
  · rw [hlost] at h
    cases h

/-- What is listed by reading is the same. -/
theorem blind_append {f : Store → Except Fault (List NodeId)}
    (hf : ∀ s early, n < s.nodes.size → (f (s.fillAll n early)).toOption = (f s).toOption) :
    Blind n (do return (← tryRead (·.base n)) ++ (← tryRead f)) :=
  blind_bind (blind_tryRead fun s early hn => (Alike.fillAll n early s).base hn) fun _ =>
    blind_bind (blind_tryRead hf) fun _ => blind_pure _

theorem flattenAll_fillAll (xs : List Value) (s : Store) (early : List NodeId) :
    ((s.fillAll n early).flattenAll xs).toOption = (s.flattenAll xs).toOption :=
  flattenAll_congr (Alike.fillAll n early s).lists xs

/-- Nothing is missed by what comes after a location that is not handed down. -/
theorem bind_plain {x : Edit Unit} {g : Unit → Edit β} {early : List NodeId} {b : β} {u : Store}
    (hn : n < s.nodes.size) (hx : (x.perform s).2 = s.fillAll n early) (hg : Blind n (g ()))
    (h : (x >>= g).perform s = (.ok b, u)) :
    ∃ names, (g ()).perform s = (.ok b, s.addVariables n names) ∧
      u = (s.addVariables n names).fillAll n early := by
  obtain ⟨_, t, ht, hu⟩ := of_perform_bind_ok h
  rw [ht] at hx
  obtain rfl : t = _ := hx
  exact hg s early b u hn hu

/-- The variables that a statement makes are the same if it hands nothing down early, and what is
behind is just what it would have handed down. One case for each form that makes variables or hands
down. -/
theorem collectStatement_plain {cs : List NodeId} {u : Store} (hn : n < s.nodes.size)
    (st : Statement) (h : (collectStatement (Early.filling n) n st).perform s = (.ok cs, u)) :
    ∃ names, (collectStatement Early.nothing n st).perform s = (.ok cs, s.addVariables n names) ∧
      u = (s.addVariables n names).fillAll n (s.earlyIn st) := by
  -- a statement that hands nothing down early does the same in both ways
  have same : s.earlyIn st = [] →
      collectStatement (Early.filling n) n st = collectStatement Early.nothing n st → ∃ names,
        (collectStatement Early.nothing n st).perform s = (.ok cs, s.addVariables n names) ∧
          u = (s.addVariables n names).fillAll n (s.earlyIn st) := by
    intro hnone heq
    rw [heq] at h
    obtain ⟨names, hnames⟩ := makes_collectPlain st s hn
    rw [h] at hnames
    obtain rfl : u = s.addVariables n names := hnames
    rw [hnone]
    exact ⟨names, h, rfl⟩
  have arguments : ∀ args splat, Blind n (do
      return (← tryRead (·.base n)) ++ (← tryRead (·.flattenAll [args, splat]))) :=
    fun args splat => blind_append fun s early _ => flattenAll_fillAll _ s early
  cases st with
  | prop name value =>
    obtain ⟨before, t, hbefore, h⟩ := of_perform_bind_ok h
    obtain ⟨rest, t', hrest, h⟩ := of_perform_bind_ok h
    rw [perform_tryRead] at hbefore hrest
    obtain ⟨hbefore, rfl⟩ := Prod.mk.inj hbefore
    obtain ⟨hrest, rfl⟩ := Prod.mk.inj hrest
    obtain ⟨names, hplain, hu⟩ := bind_plain hn (congrArg Prod.snd (perform_fill value n s))
      (blind_bind (blind_tryRead fun s early _ => flattenAll_fillAll _ s early)
        fun _ => blind_pure _) h
    refine ⟨names, ?_, hu⟩
    rw [collectStatement, perform_bind_ok (by rw [perform_tryRead, hbefore]),
      perform_bind_ok (by rw [perform_tryRead, hrest])]
    exact hplain
  | callable isFunction name args splat =>
    exact bind_plain hn (fillArguments_hands args n s) (arguments args splat) h
  | mixinDef name args splat hasContent =>
    exact bind_plain hn (fillArguments_hands args n s) (arguments args splat) h
  | mixin name args keywords splat keywordSplat =>
    refine bind_plain hn (fillArguments_hands args n s) ?_ h
    refine blind_bind (blind_tryRead fun s early _ => ?_) fun es =>
      blind_bind (blind_keywordPairs es) fun _ => blind_append fun s early _ =>
        flattenAll_fillAll _ s early
    exact keywords_congr (fun k _ => (Alike.fillAll n early s).table k) "items"
  | _ => exact same rfl rfl

/-- The children of a node, not yet attached to it, where nothing is handed down early. -/
def gatherPlain (n : NodeId) : Edit (List NodeId) := do
  tryRead (·.callable (.node n) "traversal_children")
  tryRead (·.callable (.node n) "_collect_children")
  collectWith Early.nothing n

/-- To gather without handing anything down early does nothing but make variables. -/
theorem gatherPlain_adds (s : Store) (n : NodeId) :
    ∃ names, ((gatherPlain n).perform s).2 = s.addVariables n names := by
  simp only [gatherPlain, perform_bind, perform_tryRead]
  cases s.callable (.node n) "traversal_children" with
  | error fault => exact ⟨[], rfl⟩
  | ok _ =>
    simp only
    cases s.callable (.node n) "_collect_children" with
    | error fault => exact ⟨[], rfl⟩
    | ok _ =>
      simp only [collectWith, perform_bind, perform_read]
      cases hf : (s.node n).form with
      | statement children st => exact makes_collectPlain st s (lt_size_of_statement hf)
      | _ => exact ⟨[], by rw [perform_tryRead]; rfl⟩

/-- Without handing anything down early the same children are gathered. -/
theorem gather_plain {cs : List NodeId} {u : Store} (h : (gather n).perform s = (.ok cs, u)) :
    ∃ names, (gatherPlain n).perform s = (.ok cs, s.addVariables n names) ∧
      u = (s.addVariables n names).fillAll n (s.early n) := by
  obtain ⟨_, t, hfirst, h⟩ := of_perform_bind_ok h
  obtain ⟨_, t', hsecond, h⟩ := of_perform_bind_ok h
  obtain rfl : s = t := congrArg Prod.snd ((perform_tryRead _ s).symm.trans hfirst)
  obtain rfl : s = t' := congrArg Prod.snd ((perform_tryRead _ s).symm.trans hsecond)
  rw [gatherPlain, perform_bind_ok hfirst, perform_bind_ok hsecond, early]
  simp only [collectWith, perform_bind, perform_read] at h ⊢
  cases hf : (s.node n).form with
  | statement children st =>
    rw [hf] at h
    exact collectStatement_plain (lt_size_of_statement hf) st h
  | _ =>
    simp only [hf, perform_tryRead] at h ⊢
    obtain ⟨hread, rfl⟩ := Prod.mk.inj h
    exact ⟨[], by rw [hread]; rfl, rfl⟩

/-! ## What is handed down early -/

/-- The nodes that are handed a location as names of arguments are names of arguments. -/
theorem mem_argumentNodes : ∀ {args : List Value}, c ∈ argumentNodes args →
    ∃ arg ∈ args, argumentName arg = .ok (.node c)
  | [], h => absurd h (by simp [argumentNodes])
  | arg :: args, h => by
    rw [argumentNodes] at h
    cases ha : argumentName arg with
    | error fault => simp [ha] at h
    | ok v =>
      rw [ha] at h
      rcases List.mem_append.mp h with hv | hrest
      · refine ⟨arg, List.mem_cons_self .., ?_⟩
        cases v with
        | node m => rw [ha, List.mem_singleton.mp hv]
        | _ => simp [Value.node?] at hv
      · obtain ⟨x, hx, hname⟩ := mem_argumentNodes hrest
        exact ⟨x, List.mem_cons_of_mem _ hx, hname⟩

/-- A node that is the name of an argument is among the nodes that the arguments flatten to. -/
theorem mem_nested?_of_argumentNodes {args : Value} {vs : List Value} {ks : List Kid}
    (hc : c ∈ (s.items args).toOption.elim [] argumentNodes) (ha : args ∈ vs)
    (h : s.nested? vs = some ks) : .node c ∈ ks := by
  cases hi : s.items args with
  | error fault => simp [hi, Except.toOption] at hc
  | ok xs =>
    rw [hi] at hc
    obtain ⟨x, hx, hname⟩ := mem_argumentNodes hc
    exact mem_nested?_of_argument hi hx hname ha h

/-- Whatever is handed its location early is listed as well. -/
theorem mem_ownKids_of_earlyIn {st : Statement} {ks : List Kid} (hks : s.ownKids n st = some ks)
    (hc : c ∈ s.earlyIn st) : .node c ∈ ks := by
  have arguments : ∀ {args splat : Value}, (do
      haveNames (← (s.items args).toOption)
      s.nested? [args, splat]) = some ks →
        c ∈ (s.items args).toOption.elim [] argumentNodes → Kid.node c ∈ ks := by
    intro args splat h hc
    simp only [Option.bind_eq_bind, Option.bind_eq_some_iff] at h
    obtain ⟨_, _, _, _, hnested⟩ := h
    exact mem_nested?_of_argumentNodes hc (List.mem_cons_self ..) hnested
  cases st with
  | prop name value =>
    simp only [ownKids, Option.pure_def, Option.bind_eq_bind, Option.bind_eq_some_iff,
      Option.some.injEq] at hks
    obtain ⟨before, _, ls, hls, rfl⟩ := hks
    cases value with
    | node m =>
      obtain rfl := List.mem_singleton.mp hc
      cases hls
      simp
    | _ => simp [earlyIn, Value.node?] at hc
  | callable isFunction name args splat => exact arguments hks hc
  | mixinDef name args splat hasContent => exact arguments hks hc
  | mixin name args keywords splat keywordSplat =>
    simp only [ownKids, Option.pure_def, Option.bind_eq_bind, Option.bind_eq_some_iff,
      Option.some.injEq] at hks
    obtain ⟨_, _, _, _, before, hbefore, _, _, named, _, _, _, rfl⟩ := hks
    refine List.mem_append_left _ (List.mem_append_left _ ?_)
    exact mem_nested?_of_argumentNodes hc (List.mem_cons_self ..) hbefore
  | _ => simp [earlyIn] at hc

/-- What is handed a location early is among the children. -/
theorem mem_of_early {cs : List NodeId} {u : Store} (h : (gather n).perform s = (.ok cs, u))
    (hc : c ∈ s.early n) : c ∈ cs := by
  have hspec := gather_spec s n
  rw [h] at hspec
  obtain ⟨_, _, _, _, hok⟩ := hspec.effect
  obtain ⟨ks, hks, rfl, _⟩ := hok cs rfl
  refine Kid.mem_places_of_node ?_
  simp only [kids, listed, Option.bind_eq_bind, Option.bind_eq_some_iff] at hks
  obtain ⟨_, _, _, _, before, _, hlisted⟩ := hks
  rw [early] at hc
  cases hf : (s.node n).form with
  | statement children st =>
    rw [hf] at hlisted hc
    simp only [Option.pure_def, Option.bind_eq_some_iff, Option.some.injEq] at hlisted
    obtain ⟨own, hown, rfl⟩ := hlisted
    exact List.mem_append_right _ (mem_ownKids_of_earlyIn hown hc)
  | _ =>
    rw [hf] at hc
    exact absurd hc (by simp)

end Edit

end SheetLint
