import SheetLint.Proofs.Abreast

/-!
# Stores that have grown

What is printed of a value is a matter of all that it leads to, and how far down it is drawn depends
on all of the store. Nodes that are made later change neither, as long as everything that is named
anywhere exists (`Store.Closed`): a value names none of them (`Holds.drawn`), and a picture that is
deep enough is the same to any depth. So the fault of a node that has another parent reads as it did
before (`Grown.secondParent`).

The first part says that a store stays closed when a node is written or made of what is held.
-/

namespace SheetLint

/-- Each part of a completed location is one of its own or one of the container's. -/
theorem Position.completed_parts (own container : Position) (v : Value)
    (hv : v = (own.completed container).line ∨ v = (own.completed container).column ∨
      v = (own.completed container).file) :
    (v = own.line ∨ v = own.column ∨ v = own.file) ∨
      v = container.line ∨ v = container.column ∨ v = container.file := by
  unfold completed at hv
  split at hv
  · rcases hv with rfl | rfl | rfl
    · exact Or.inr (Or.inl rfl)
    · dsimp only
      split
      · exact Or.inr (Or.inr (Or.inl rfl))
      · exact Or.inl (Or.inr (Or.inl rfl))
    · dsimp only
      split
      · exact Or.inr (Or.inr (Or.inr rfl))
      · exact Or.inl (Or.inr (Or.inr rfl))
  · exact Or.inl hv

namespace Store

variable {s t u : Store} {v x : Value} {n c : NodeId} {name : String}

/-! ## Closed stores -/

theorem Holds.mono (h : s.Holds v) (hplace : ∀ k, s.hasPlace k → t.hasPlace k) : t.Holds v :=
  fun k hk => hplace k (h k hk)

/-- Writing a node changes what is in that node and in nothing else. -/
theorem contents_setNode (s : Store) (c : NodeId) (x : Node) (k : Cell) :
    (s.setNode c x).contents k =
      if k = .node c ∧ c < s.nodes.size then x.held else s.contents k := by
  cases k with
  | node n =>
    simp only [contents, node?, Store.setNode, Array.getElem?_setIfInBounds, Cell.node.injEq]
    by_cases hn : c = n
    · subst hn
      by_cases hc : c < s.nodes.size
      · simp [hc]
      · simp [hc]
    · rw [if_neg hn, if_neg fun h => hn h.1.symm]
  | _ => rfl

theorem contents_addNode (s : Store) (x : Node) (k : Cell) :
    (s.addNode x).contents k = if k = .node s.nodes.size then x.held else s.contents k := by
  cases k with
  | node n =>
    simp only [contents, node?, Store.addNode, Array.getElem?_push, Cell.node.injEq]
    split <;> rfl
  | _ => rfl

/-- A store stays closed when a node is written that holds only what is there. -/
theorem Closed.setNode (hs : s.Closed) {x : Node} (hx : ∀ v ∈ x.held, s.Holds v) (c : NodeId) :
    (s.setNode c x).Closed := by
  have hplace : ∀ k, s.hasPlace k → (s.setNode c x).hasPlace k := by
    rintro (n | _) hk
    · simpa only [hasPlace, size_setNode] using hk
    all_goals exact hk
  intro k v hv
  rw [contents_setNode] at hv
  split at hv
  · exact (hx v hv).mono hplace
  · exact (hs k v hv).mono hplace

theorem hasPlace_addNode {y : Node} {k : Cell} (hk : s.hasPlace k) : (s.addNode y).hasPlace k := by
  cases k with
  | node n =>
    simp only [hasPlace, size_addNode]
    exact Nat.lt_succ_of_lt hk
  | _ => exact hk

/-- A store stays closed when a node is made that holds only what is there. -/
theorem Closed.addNode (hs : s.Closed) {x : Node} (hx : ∀ v ∈ x.held, s.Holds v) :
    (s.addNode x).Closed := by
  have hplace : ∀ k, s.hasPlace k → (s.addNode x).hasPlace k := fun _ => hasPlace_addNode
  intro k v hv
  rw [contents_addNode] at hv
  split at hv
  · exact (hx v hv).mono hplace
  · exact (hs k v hv).mono hplace

/-- What a node holds, by where it holds it. -/
theorem mem_held {x : Node} :
    v ∈ x.held ↔ (v = x.position.line ∨ v = x.position.column ∨ v = x.position.file) ∨
      v ∈ (x.nodeClass.fieldNames.zip x.form.fields).map (·.2) ∨ v ∈ x.notes.map (·.2) ∨
      v ∈ x.parent.held ∨ v ∈ x.backing.toList.map .table := by
  simp only [Node.held, Node.fields, List.map_append, List.map_cons, List.map_nil, List.mem_append,
    List.mem_cons, List.not_mem_nil, or_false, or_assoc]

/-- A node that is written with another location or parent holds what it did, and the location. -/
theorem mem_held_with {x : Node} {p : Position} {r : Backref} (hr : r.held ⊆ x.parent.held)
    (hv : v ∈ ({ x with position := p, parent := r } : Node).held) :
    v ∈ x.held ∨ v = p.line ∨ v = p.column ∨ v = p.file := by
  rcases mem_held.mp hv with hposition | hform | hnotes | hparent | hbacking
  · exact Or.inr hposition
  · exact Or.inl (mem_held.mpr (Or.inr (Or.inl hform)))
  · exact Or.inl (mem_held.mpr (Or.inr (Or.inr (Or.inl hnotes))))
  · exact Or.inl (mem_held.mpr (Or.inr (Or.inr (Or.inr (Or.inl (hr hparent))))))
  · exact Or.inl (mem_held.mpr (Or.inr (Or.inr (Or.inr (Or.inr hbacking)))))

/-- What a location is completed from is there already. -/
theorem Closed.fill (hs : s.Closed) (c n : NodeId) : (s.fill c n).Closed := by
  unfold Store.fill
  split
  · refine hs.setNode (fun v hv => ?_) c
    have hcontainer := hs.position n
    have hparts := Position.completed_parts (s.node c).position (s.node n).position
    rcases mem_held_with (List.Subset.refl _) hv with hheld | hpart
    · exact hs.of_held hheld
    · rcases hparts v hpart with hown | rfl | rfl | rfl
      · exact hs.of_held (mem_held.mpr (Or.inl hown))
      · exact hcontainer.1
      · exact hcontainer.2.1
      · exact hcontainer.2.2
  · exact hs

/-- Parents play no part in what a store holds. -/
theorem Closed.setParent (hs : s.Closed) (c : NodeId) (p : Value) :
    (s.setParent (.node c) p).Closed := by
  refine hs.setNode (fun v hv => ?_) c
  have hposition := hs.position c
  rcases mem_held_with (x := s.node c) (List.nil_subset _) hv with hheld | rfl | rfl | rfl
  · exact hs.of_held hheld
  · exact hposition.1
  · exact hposition.2.1
  · exact hposition.2.2

/-- A variable holds its name and the location of the node for which it is made. -/
theorem Closed.addVariable (hs : s.Closed) (n : NodeId) (hname : s.Holds v) :
    (s.addVariable n v).Closed := by
  obtain ⟨hline, hcolumn, hfile⟩ := hs.position n
  have hheld :
      ({ position := (s.node n).position, form := .expression (.variable v) } : Node).held =
      [(s.node n).position.line, (s.node n).position.column, (s.node n).position.file, v] := rfl
  refine hs.addNode fun w hw => ?_
  rw [hheld] at hw
  simp only [List.mem_cons, List.not_mem_nil, or_false] at hw
  rcases hw with rfl | rfl | rfl | rfl
  · exact hline
  · exact hcolumn
  · exact hfile
  · exact hname

theorem Closed.addVariables (n : NodeId) : ∀ (names : List Value) {s : Store}, s.Closed →
    (∀ name ∈ names, s.Holds name) → (s.addVariables n names).Closed
  | [], _, hs, _ => hs
  | name :: names, s, hs, hnames => by
    refine Closed.addVariables n names (hs.addVariable n (hnames name (List.mem_cons_self ..)))
      fun w hw => (hnames w (List.mem_cons_of_mem _ hw)).mono fun k hk => ?_
    exact hasPlace_addNode hk

/-! ## What is drawn -/

/-- What an agent says of itself is there. -/
theorem Closed.own? (hs : s.Closed) {i : AgentId} {a : Agent} (ha : s.agent? i = some a)
    (hv : a.own? name = some v) : s.Holds v := by
  refine hs (.agent i) v ?_
  rw [contents, ha]
  exact Agent.own?_mem hv

/-- What is drawn of a value is there. -/
theorem Holds.drawn (hs : s.Closed) (hv : s.Holds v) :
    ∀ x ∈ s.drawn v, s.Holds x := by
  cases v with
  | list l => exact hs.list l
  | tuple m xs => exact hv.tuple
  | table k =>
    intro x hx
    rcases List.mem_append.mp hx with hx | hx
    · obtain ⟨e, he, rfl⟩ := List.mem_map.mp hx
      exact hs.key k e he
    · obtain ⟨e, he, rfl⟩ := List.mem_map.mp hx
      exact hs.entry k e he
  | node n =>
    intro x hx
    refine hs.of_held (n := n) ?_
    simp only [Node.held, List.mem_append]
    exact Or.inl (Or.inl (Or.inl hx))
  | location m l c n =>
    intro x hx k hk
    refine hv k ?_
    simp only [Store.drawn, List.mem_cons, List.not_mem_nil, or_false] at hx
    simp only [Value.cells, List.mem_cons, List.mem_append]
    rcases hx with rfl | rfl | rfl <;> tauto
  | lint m source file loc description severity fixable =>
    intro x hx k hk
    refine hv k ?_
    simp only [Store.drawn, List.mem_cons, List.not_mem_nil, or_false] at hx
    simp only [Value.cells, List.mem_cons, List.mem_append]
    rcases hx with rfl | rfl | rfl | rfl | rfl <;> tauto
  | agent i =>
    intro x hx
    obtain ⟨a, ha, rfl⟩ := List.mem_map.mp hx
    cases hname : a.own? "name" with
    | none => exact .of_cells rfl
    | some w => exact hs.own? (by simpa using ha) hname
  | _ => exact fun x hx => absurd hx (by simp [Store.drawn])

/-! ## What was lost -/

/-- Whether a node has lost an attribute. -/
def lacks (s : Store) (n : NodeId) : Bool := (s.node n).fields.any fun f => f.2.isMissing

/-- Something is missing in a store if attributes were replaced somewhere, and a node or an agent
lacks a part. -/
theorem hasMissing_iff : s.hasMissing = true ↔ s.hasBacked = true ∧ ((∃ n, s.lacks n = true) ∨
    (s.agents.any fun a => a.role.parts.any fun p => p.2.isMissing) = true) := by
  have hnode : (s.nodes.any fun n => n.elim false fun x => x.fields.any fun f => f.2.isMissing) =
      true ↔ ∃ n, s.lacks n = true := by
    rw [Array.any_eq_true]
    constructor
    · rintro ⟨n, hn, hlost⟩
      refine ⟨n, ?_⟩
      cases hx : s.nodes[n] with
      | none => simp [hx] at hlost
      | some x =>
        have hnode : s.node n = x := by simp [node, node?, hn, hx]
        rw [hx] at hlost
        rwa [lacks, hnode]
    · rintro ⟨n, hlost⟩
      cases hx : s.node? n with
      | none =>
        rw [lacks, node, hx] at hlost
        cases hlost
      | some x =>
        have hn : s.nodes[n]? = some (some x) := Option.join_eq_some_iff.mp hx
        obtain ⟨hlt, hget⟩ := Array.getElem?_eq_some_iff.mp hn
        refine ⟨n, hlt, ?_⟩
        rw [lacks, node, hx] at hlost
        rw [hget]
        exact hlost
  rw [hasMissing, Bool.and_eq_true, Bool.or_eq_true, hnode]

/-- Nothing is lost, and nothing found again, where nodes lack what they did. -/
theorem hasMissing_congr (hbacked : t.hasBacked = s.hasBacked) (hagents : t.agents = s.agents)
    (hlacks : ∀ n, t.lacks n = s.lacks n) : t.hasMissing = s.hasMissing := by
  rw [Bool.eq_iff_iff, hasMissing_iff, hasMissing_iff, hbacked, hagents]
  simp only [hlacks]

/-- A variable lacks nothing if its name is there and the location it is given. -/
theorem hasMissing_addVariable (hv : v.isMissing = false) (hn : (s.node n).position.Present) :
    (s.addVariable n v).hasMissing = s.hasMissing := by
  refine hasMissing_congr rfl rfl fun m => ?_
  obtain ⟨hline, hcolumn, hfile⟩ := hn
  rw [lacks, lacks, addVariable, node_addNode]
  split
  · rename_i hnew
    rw [node_of_size_le (Nat.le_of_eq hnew.symm)]
    have hfields : ({ position := (s.node n).position, form := .expression (.variable v) } :
        Node).fields = [("line", (s.node n).position.line), ("column", (s.node n).position.column),
          ("filename", (s.node n).position.file), ("name", v)] := rfl
    have hbare : (({} : Node).fields.any fun f => f.2.isMissing) = false := rfl
    rw [hfields, hbare]
    simp [hline, hcolumn, hfile, hv]
  · rfl

/-! ## Growing -/

/-- Whatever was there is as it was, parents included. There may be more nodes. -/
structure Grown (s t : Store) : Prop where
  nodes : s.nodes.size ≤ t.nodes.size
  node : ∀ n < s.nodes.size, t.node n = s.node n
  lists : t.lists = s.lists
  tables : t.tables = s.tables
  agents : t.agents = s.agents

namespace Grown

theorem refl (s : Store) : s.Grown s := ⟨Nat.le_refl _, fun _ _ => rfl, rfl, rfl, rfl⟩

variable (h : s.Grown t)
include h

theorem list (l : ListId) : t.list l = s.list l := by
  unfold Store.list
  rw [h.lists]

theorem table (k : TableId) : t.table k = s.table k := by
  unfold Store.table
  rw [h.tables]

theorem agent? (i : AgentId) : t.agent? i = s.agent? i := by
  unfold Store.agent?
  rw [h.agents]

theorem node_of_holds (hn : s.Holds (.node n)) : t.node n = s.node n :=
  h.node n (hn (.node n) (by simp [Value.cells]))

theorem named (hnamed : s.Named) : t.Named := by
  intro i a v ha
  rw [h.agent?] at ha
  exact hnamed i a v ha

variable (hs : s.Closed) (hnamed : s.Named)
include hs hnamed

/-- A value has the same picture in a store that has grown. -/
theorem picture (hv : s.Holds v) : t.picture v = s.picture v := by
  refine s.descent_picture.alike_all t.descent_picture (fun hv => hv.drawn hs)
    (fun _ _ => rfl) ?_ (hnamed.ends _) ((h.named hnamed).ends _) hv
  intro isWithin inner v hv
  cases v with
  | list l => rw [pictureStep, pictureStep, h.list]
  | table k => rw [pictureStep, pictureStep, h.table]
  | node n => rw [pictureStep, pictureStep, h.node_of_holds hv]
  | agent i => rw [pictureStep, pictureStep, h.agent?]
  | _ => rfl

/-- What keeps a value from being printed is the same as long as nothing more was lost. -/
theorem printFault? (hlost : t.hasMissing = s.hasMissing) (hv : s.Holds v) :
    t.printFault? v = s.printFault? v := by
  have hsearched : ∀ {v : Value}, s.Holds v → t.searched v = s.searched v := by
    intro v hv
    cases v with
    | list l => rw [searched, searched, h.list]
    | table k => rw [searched, searched, h.table]
    | node n => rw [searched, searched, h.node_of_holds hv]
    | agent i => rw [searched, searched, h.agent?]
    | _ => rfl
  exact s.descent_printFault.alike_all t.descent_printFault (fun hv => hv.drawn hs)
    (fun _ _ => rfl) (fun isWithin inner {v} hv =>
      printFaultStep_of_searched hlost (hsearched hv) isWithin inner)
    (hnamed.ends _) ((h.named hnamed).ends _) hv

theorem tryBare (hlost : t.hasMissing = s.hasMissing) (hv : s.Holds v) :
    t.tryBare v = s.tryBare v := by
  have hbare : t.bare v = s.bare v := by
    cases v with
    | text x => rfl
    | _ => exact congrArg Data.quoted (h.picture hs hnamed hv)
  rw [Store.tryBare, Store.tryBare, h.printFault? hs hnamed hlost hv, hbare]

omit hs hnamed

theorem typeName (hv : s.Holds v) : t.typeName v = s.typeName v := by
  cases v with
  | node n => rw [Store.typeName, Store.typeName, h.node_of_holds hv]
  | agent i => rw [Store.typeName, Store.typeName, agentClass, agentClass, h.agents]
  | _ => rfl

end Grown

/-- The kind and the line, of anything that has them. -/
def describing : List String := ["kind", "line"]

/-- What an agent says of itself is its own or that of its class. -/
theorem getAttribute_agent (hname : name ∈ describing) (i : AgentId) :
    s.getAttribute (.agent i) name =
      match s.agent? i with
      | none => .error (.missingAttribute (s.agentClass i) name)
      | some a => s.orMissing (.agent i) name (a.own? name <|> Members.agent? a.role name) := by
  rw [show s.getAttribute (.agent i) name = s.agentAttribute _ i name from rfl, agentAttribute]
  simp only [describing, List.mem_cons, List.not_mem_nil, or_false] at hname
  cases s.agent? i with
  | none => rfl
  | some a =>
    obtain ⟨role, _, _, _⟩ := a
    rcases hname with rfl | rfl <;> cases role <;> rfl

/-- What a node or an agent says of itself is there. -/
theorem Closed.described (hs : s.Closed) (hv : (∃ n, v = .node n) ∨ ∃ i, v = .agent i)
    (hname : name ∈ describing) {w : Value} (hw : s.getAttribute v name = .ok w) : s.Holds w := by
  rcases hv with ⟨n, rfl⟩ | ⟨i, rfl⟩
  · simp only [describing, List.mem_cons, List.not_mem_nil, or_false] at hname
    rcases hname with rfl | rfl
    · rw [getAttribute_kind] at hw
      cases hw
      unfold Node.kind
      cases hk : (s.node n).notes.lookup "kind" with
      | none => exact .of_cells rfl
      | some w =>
        obtain ⟨before, after, hnotes, _⟩ := List.lookup_eq_some_iff.mp hk
        exact hs.note n ("kind", w) (by rw [hnotes]; simp)
    · rw [getAttribute_line] at hw
      rw [← orMissing_ok hw]
      exact (hs.position n).1
  · rw [getAttribute_agent hname] at hw
    cases ha : s.agent? i with
    | none =>
      rw [ha] at hw
      cases hw
    | some a =>
      rw [ha] at hw
      simp only at hw
      cases hfound : a.own? name with
      | some x =>
        rw [hfound] at hw
        rw [← orMissing_ok hw]
        exact hs.own? ha hfound
      | none =>
        cases hmember : Members.agent? a.role name with
        | none =>
          rw [hfound, hmember] at hw
          cases hw
        | some x =>
          rw [hfound, hmember] at hw
          rw [← orMissing_ok hw]
          exact .of_cells (Linter.member_cells hmember)

namespace Grown

variable (h : s.Grown t)
include h

theorem orMissing (hv : s.Holds v) (name : String) (found : Option Value) :
    t.orMissing v name found = s.orMissing v name found := by
  unfold Store.orMissing
  cases found with
  | none => rw [h.typeName hv]
  | some w => cases w <;> rfl

/-- The kind and the line of what was there are the same in a store that has grown. -/
theorem getAttribute (hv : s.Holds v) (hname : name ∈ describing) :
    t.getAttribute v name = s.getAttribute v name := by
  have hnames := hname
  simp only [describing, List.mem_cons, List.not_mem_nil, or_false] at hnames
  cases v with
  | node n =>
    rcases hnames with rfl | rfl
    · rw [getAttribute_kind, getAttribute_kind, h.node_of_holds hv]
    · rw [getAttribute_line, getAttribute_line, h.node_of_holds hv, h.orMissing hv]
  | agent i =>
    have hclass : t.agentClass i = s.agentClass i := h.typeName hv
    rw [getAttribute_agent hname, getAttribute_agent hname, h.agent?, hclass]
    cases s.agent? i with
    | none => rfl
    | some a => exact h.orMissing hv ..
  | location m l c n | lint m source file place description severity fixable =>
    rw [Store.getAttribute, Store.getAttribute, h.agents]
    rcases hnames with rfl | rfl <;> rfl
  | missing owner lost => rfl
  | _ => exact h.orMissing hv ..

variable (hs : s.Closed) (hnamed : s.Named) (hlost : t.hasMissing = s.hasMissing)
include hs hnamed hlost

theorem kindOf (hv : s.Holds v) : t.kindOf v = s.kindOf v := by
  rw [Store.kindOf, Store.kindOf, h.getAttribute hv (by decide)]
  cases hw : s.getAttribute v "kind" with
  | error fault => rfl
  | ok w =>
    exact h.tryBare hs hnamed hlost (hs.described (getAttribute_kind_cases hw) (by decide) hw)

/-- What has no kind is not asked for its line. -/
theorem lineOf (hv : s.Holds v) {kind : String} (hk : s.kindOf v = .ok kind) :
    t.lineOf v = s.lineOf v := by
  have hwho : (∃ n, v = .node n) ∨ ∃ i, v = .agent i := by
    rw [Store.kindOf] at hk
    cases hkind : s.getAttribute v "kind" with
    | error fault =>
      rw [hkind] at hk
      cases hk
    | ok x => exact getAttribute_kind_cases hkind
  rw [Store.lineOf, Store.lineOf, h.getAttribute hv (by decide)]
  cases hw : s.getAttribute v "line" with
  | error fault => rfl
  | ok w => exact h.tryBare hs hnamed hlost (hs.described hwho (by decide) hw)

/-- The fault of a second parent reads as it did. -/
theorem secondParent {child current : Value} (hchild : s.Holds child) (hcurrent : s.Holds current) :
    t.secondParent child current = s.secondParent child current := by
  unfold Store.secondParent
  rw [h.kindOf hs hnamed hlost hchild, h.kindOf hs hnamed hlost hcurrent]
  cases hkind : s.kindOf child with
  | error fault => rfl
  | ok kind =>
    rw [h.lineOf hs hnamed hlost hchild hkind]
    cases s.lineOf child with
    | error fault => rfl
    | ok line =>
      cases hparent : s.kindOf current with
      | error fault => rfl
      | ok parentKind => rw [h.lineOf hs hnamed hlost hcurrent hparent]

end Grown

end Store

end SheetLint
