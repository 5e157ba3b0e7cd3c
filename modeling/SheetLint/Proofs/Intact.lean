import SheetLint.Proofs.Below

/-!
# Well-formed documents

A document is well formed if all child lists below its root flatten and no part of a location was
ever lost. Walks leave it so (`Intact`). What a well-formed document buys is that computing children
can fail in one way only: whenever one of them is attached and has another parent already. What is
said about that parent can then be printed (`secondParent_node`).

A node may be a child of two others: `Store.SharesBelow`. A document in which none is, is a tree as
far as its nodes are concerned, though one node may list a child twice.
-/

namespace SheetLint

namespace Position

theorem eq_null {v : Value} (h : v.isNull = true) : v = .null := by
  cases v with
  | null => rfl
  | _ => simp [Value.isNull] at h

/-- Nothing is missing from a location that was completed with one from which nothing is. -/
theorem Present.completed {p c : Position} (hp : p.Present) (hc : c.Present) :
    (p.completed c).Present := by
  unfold Position.completed
  split
  · refine ⟨hc.1, ?_, ?_⟩
    · show (if p.column.isNull then c.column else p.column).isMissing = false
      split
      · exact hc.2.1
      · exact hp.2.1
    · show (if p.file.isNull then c.file else p.file).isMissing = false
      split
      · exact hc.2.2
      · exact hp.2.2
  · exact hp

end Position

namespace Store

variable {s t s₀ : Store} {root n m c : NodeId} {policy : ParentPolicy}

/-- What is below a node flattens, and nothing was lost. -/
structure WellFormed (s : Store) (root : NodeId) : Prop where
  closed : s.Closed
  unbacked : s.hasBacked = false
  present : ∀ n, (s.node n).position.Present
  there : root < s.nodes.size
  listed : ∀ n, s.Below root n → (s.kids n).isSome

/-- Well-formedness can be told by looking at each node. -/
theorem wellFormed_of_nodes (closed : s.Closed) (unbacked : s.hasBacked = false)
    (there : root < s.nodes.size)
    (nodes : ∀ n < s.nodes.size, (s.node n).position.Present ∧ (s.kids n).isSome) :
    s.WellFormed root where
  closed := closed
  unbacked := unbacked
  present n := by
    rcases Nat.lt_or_ge n s.nodes.size with hn | hn
    · exact (nodes n hn).1
    · rw [node_of_size_le hn]
      exact ⟨rfl, rfl, rfl⟩
  there := there
  listed n hn := (nodes n (hn.lt_size closed there)).2

/-- Whatever a walk or a linter meets has a list of children. -/
theorem WellFormed.exists_kids (hs₀ : s₀.WellFormed root) (h : s₀.Extends s)
    (hn : s₀.Below root n ∨ s₀.nodes.size ≤ n) : ∃ ks, s.kids n = some ks := by
  rcases hn with hbelow | hnew
  · have hlisted := hs₀.listed n hbelow
    rw [← kids_extends hs₀.closed h (hbelow.lt_size hs₀.closed hs₀.there)] at hlisted
    exact Option.isSome_iff_exists.mp hlisted
  · exact ⟨[], kids_new h hnew⟩

/-- A node below `root` lists another one as a child. -/
def Contains (s : Store) (root n c : NodeId) : Prop :=
  s.Below root n ∧ s.Leads n c

theorem Contains.below (h : s.Contains root n c) : s.Below root c := h.1.tail h.2

/-- Something below a node is a child of two different nodes. -/
def SharesBelow (s : Store) (root : NodeId) : Prop :=
  ∃ m n c, m ≠ n ∧ s.Contains root m c ∧ s.Contains root n c

/-- Where nothing is shared a child has one container. -/
theorem Contains.unique (h : ¬s.SharesBelow root) (hm : s.Contains root m c)
    (hn : s.Contains root n c) : m = n := by
  by_contra hne
  exact h ⟨m, n, c, hne, hm, hn⟩

/-- Whether anything is shared can be told by what each node lists. -/
theorem not_sharesBelow_of_offspring
    (h : ∀ m < s.nodes.size, ∀ n < s.nodes.size, ∀ c ∈ s.offspring m, c ∈ s.offspring n → m = n)
    (root : NodeId) : ¬s.SharesBelow root := by
  rintro ⟨m, n, c, hne, ⟨_, hm⟩, _, hn⟩
  exact hne (h m hm.self_lt_size n hn.self_lt_size c (leads_iff_offspring.mp hm)
    (leads_iff_offspring.mp hn))

/-- Whatever is below a node and is not that node is a child of something. -/
theorem Below.exists_container (h : s.Below root c) (hne : c ≠ root) :
    ∃ n, s.Contains root n c := by
  rcases Relation.ReflTransGen.cases_tail h with rfl | ⟨n, hn, hleads⟩
  · exact absurd rfl hne
  · exact ⟨n, hn, hleads⟩

/-- Without a cycle the root is a child of nothing below it. -/
theorem AcyclicFrom.not_contains (h : s.AcyclicFrom root) (n : NodeId) :
    ¬s.Contains root n root :=
  fun ⟨hn, hleads⟩ => h root .refl (Relation.TransGen.tail' hn hleads)

/-! ## What stays -/

/-- A store that came out of `s₀` and in which nothing was lost either. -/
structure Intact (s₀ s : Store) : Prop where
  extends_ : s₀.Extends s
  unbacked : s.hasBacked = false
  present : ∀ n, (s.node n).position.Present

namespace Intact

theorem refl (h : s.WellFormed root) : s.Intact s := ⟨.refl s, h.unbacked, h.present⟩

/-- Completing a location loses nothing. -/
theorem fill (h : s₀.Intact s) (c self : NodeId) : s₀.Intact (s.fill c self) where
  extends_ := h.extends_.fill c self
  unbacked := by
    unfold Store.fill
    split <;> exact h.unbacked
  present n := by
    rw [node_fill]
    split
    · exact (h.present c).completed (h.present self)
    · exact h.present n

/-- Nor does making a variable. -/
theorem addVariable (h : s₀.Intact s) (self : NodeId) (name : Value) :
    s₀.Intact (s.addVariable self name) where
  extends_ := addVariable_extends h.extends_ self name
  unbacked := h.unbacked
  present n := by
    rw [Store.addVariable, node_addNode]
    split
    · exact h.present self
    · exact h.present n

theorem setParent (h : s₀.Intact s) (c : NodeId) (p : Value) :
    s₀.Intact (s.setParent (.node c) p) where
  extends_ := h.extends_.setParent c p
  unbacked := h.unbacked
  present n := by
    rw [node_setParent]
    split <;> exact h.present n

theorem note (h : s₀.Intact s) (m : Message) : s₀.Intact (s.note m) :=
  ⟨h.extends_.note m, h.unbacked, h.present⟩

theorem children (h : s₀.Intact s) (n : NodeId) (policy : ParentPolicy) :
    s₀.Intact ((Edit.children n policy).perform s).2 :=
  Edit.children_keeps s₀.Intact (fun _ => True) (fun _ c h _ => h.fill c n)
    (fun _ name h => h.addVariable n name) (fun _ c h _ => h.setParent c _)
    (fun _ m h => h.note m) h (fun _ _ => trivial) policy

/-! ## What can be said about nodes -/

theorem exists_kindOf (h : s₀.Intact s) (n : NodeId) : ∃ kind, s.kindOf (.node n) = .ok kind := by
  rw [kindOf, getAttribute_kind]
  exact ⟨_, tryBare_of_unbacked h.unbacked _⟩

theorem exists_lineOf (h : s₀.Intact s) (n : NodeId) : ∃ line, s.lineOf (.node n) = .ok line := by
  rw [lineOf, getAttribute_line, orMissing_of_present _ _ _ (h.present n).1]
  exact ⟨_, tryBare_of_unbacked h.unbacked _⟩

/-- The fault of a second parent can be worded. -/
theorem secondParent_node (h : s₀.Intact s) (c n : NodeId) :
    ∃ kind line parentKind parentLine, s.secondParent (.node c) (.node n) =
      .ok (.secondParent kind line parentKind parentLine) := by
  obtain ⟨kind, hkind⟩ := h.exists_kindOf c
  obtain ⟨line, hline⟩ := h.exists_lineOf c
  obtain ⟨parentKind, hparentKind⟩ := h.exists_kindOf n
  obtain ⟨parentLine, hparentLine⟩ := h.exists_lineOf n
  refine ⟨kind, line, parentKind, parentLine, ?_⟩
  rw [secondParent, hkind, hline, hparentKind, hparentLine]
  rfl

end Intact

end Store

end SheetLint
