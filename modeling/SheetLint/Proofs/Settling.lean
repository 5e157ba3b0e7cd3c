import SheetLint.Proofs.Attributes
import SheetLint.Proofs.Intact

/-!
# Documents that settle

Every pass over a document completes locations and writes parents, and may stop midway. Where the
document is a tree (`Store.TreeFrom`) all of this works towards one state: the location of a node
ends up as its own, completed from where its container ends up (`Store.Final`), and its parent ends
up as its container. `Store.Settling` is the invariant: what is there of a location can still be
completed to where it ends up, and no reference leads to anything but the container.

A location that is handed down may itself be incomplete, so a child can get a column before it gets
a line. This does no harm, since a part that is there is already the final one
(`Position.completed_completed`).
-/

namespace SheetLint

namespace Position

/-- A location on its way to another one: what is there of it is final, and all of it is if there is
a line. -/
structure Towards (p f : Position) : Prop where
  line : p.line.isNull = false → p = f
  column : p.column.isNull = false → p.column = f.column
  file : p.file.isNull = false → p.file = f.file

theorem Towards.refl (p : Position) : p.Towards p := ⟨fun _ => rfl, fun _ => rfl, fun _ => rfl⟩

/-- What is on the way to one location is on the way to those that it leads to. -/
theorem Towards.trans {p q r : Position} (h : p.Towards q) (h' : q.Towards r) : p.Towards r where
  line hl := by
    obtain rfl := h.line hl
    exact h'.line hl
  column hc := by
    have hq := h.column hc
    rw [hq] at hc ⊢
    exact h'.column hc
  file hf := by
    have hq := h.file hf
    rw [hq] at hf ⊢
    exact h'.file hf

/-- A location is on its way to what completing it gives. -/
theorem towards_completed (p f : Position) : p.Towards (p.completed f) := by
  unfold completed
  cases hl : p.line.isNull with
  | false => exact .refl p
  | true => exact ⟨by simp [hl], fun hc => by simp [hc], fun hf => by simp [hf]⟩

/-- A part that is filled in from one on its way to `f` can still be filled in from `f`. -/
theorem part_first {c f : Value} (h : c.isNull = false → c = f) (own : Value) :
    (if (if own.isNull then c else own).isNull then f else if own.isNull then c else own) =
      if own.isNull then f else own := by
  cases ho : own.isNull with
  | false => simp [ho]
  | true =>
    simp only [if_true]
    cases hc : c.isNull with
    | false => simp [h hc]
    | true => rfl

/-- A part that was filled in from `f` gets nothing from one that is on its way there. -/
theorem part_last {c f : Value} (h : c.isNull = false → c = f) (own : Value) :
    (if (if own.isNull then f else own).isNull then c else if own.isNull then f else own) =
      if own.isNull then f else own := by
  cases ho : own.isNull with
  | false => simp [ho]
  | true =>
    simp only [if_true]
    cases hf : f.isNull with
    | false => simp
    | true =>
      cases hc : c.isNull with
      | false => exact h hc
      | true => exact (eq_null hc).trans (eq_null hf).symm

/-- Completing a location from one that is on its way gets in the way of nothing. -/
theorem completed_completed {c f : Position} (h : c.Towards f) (own : Position) :
    (own.completed c).completed f = own.completed f := by
  cases hl : own.line.isNull with
  | false => simp [completed, hl]
  | true =>
    cases hcl : c.line.isNull with
    | false =>
      obtain rfl := h.line hcl
      simp [completed, hl, hcl]
    | true => simp only [completed, hl, hcl, if_true, part_first h.column, part_first h.file]

/-- What is complete stays as it is. -/
theorem completed_of_towards {c f : Position} (h : c.Towards f) (own : Position) :
    (own.completed f).completed c = own.completed f := by
  cases hl : own.line.isNull with
  | false => simp [completed, hl]
  | true =>
    cases hfl : f.line.isNull with
    | false => simp [completed, hl, hfl]
    | true =>
      have hline : c.line = f.line := by
        cases hcl : c.line.isNull with
        | false => rw [h.line hcl]
        | true => rw [eq_null hcl, eq_null hfl]
      simp only [completed, hl, hfl, if_true, hline, part_last h.column, part_last h.file]

end Position

/-- Whether a reference leads to no parent but a container, if there is one. -/
def Backref.isOnly (container : Option NodeId) : Backref → Bool
  | .none => true
  | .gone => true
  | .to (.node n) => container == some n
  | _ => false

/-- A reference that can only be to the container is to it, or to nothing. -/
theorem Backref.isOnly_iff {r : Backref} {container : Option NodeId} :
    r.isOnly container = true ↔
      r = .none ∨ r = .gone ∨ ∃ n, container = some n ∧ r = .to (.node n) := by
  constructor
  · unfold isOnly
    split
    · exact fun _ => Or.inl rfl
    · exact fun _ => Or.inr (Or.inl rfl)
    · exact fun h => Or.inr (Or.inr ⟨_, by simpa using h, rfl⟩)
    · exact fun h => absurd h (by simp)
  · rintro (rfl | rfl | ⟨n, rfl, rfl⟩)
    · rfl
    · rfl
    · simp [isOnly]

namespace Store

variable {s t s₀ : Store} {root n m c : NodeId} {p q : Position}

/-! ## Trees -/

/-- What is below a node is a tree, and whoever refers to a parent in it refers to its container. -/
structure TreeFrom (s : Store) (root : NodeId) : Prop where
  there : root < s.nodes.size
  /-- Every child list flattens. -/
  listed : ∀ n, s.Below root n → (s.kids n).isSome
  /-- Nothing is a child of two nodes. -/
  unique : ∀ {m n c}, s.Below root m → s.Below root n → s.Leads m c → s.Leads n c → m = n
  /-- The root is a child of none. -/
  top : ∀ {n}, s.Below root n → ¬s.Leads n root
  free : s.parent? root = .ok none
  attached : ∀ {n c}, s.Below root n → s.Leads n c →
    s.parent? c = .ok none ∨ s.parent? c = .ok (some (.node n))

/-- In a tree nothing is below itself. -/
theorem TreeFrom.acyclic (h : s.TreeFrom root) : s.AcyclicFrom root := by
  intro n hn
  -- a way back to a node comes in through its one container, which is then on a way back to itself
  induction hn with
  | refl =>
    intro hcycle
    obtain ⟨m, hm, hback⟩ := Relation.TransGen.tail'_iff.mp hcycle
    exact h.top hm hback
  | tail hm hleads ih =>
    intro hcycle
    obtain ⟨k, hk, hback⟩ := Relation.TransGen.tail'_iff.mp hcycle
    have hbelow := (hm.tail hleads).trans hk
    obtain rfl := h.unique hbelow hm hback hleads
    exact ih (Relation.TransGen.head' hleads hk)

/-- A tree can be told by what each node lists. -/
theorem treeFrom_of_offspring (hs : s.Closed) (there : root < s.nodes.size)
    (listed : ∀ n < s.nodes.size, (s.kids n).isSome)
    (unique : ∀ m < s.nodes.size, ∀ n < s.nodes.size, ∀ c ∈ s.offspring m, c ∈ s.offspring n →
      m = n)
    (top : ∀ n < s.nodes.size, root ∉ s.offspring n)
    (free : (s.node root).parent.isOnly none)
    (attached : ∀ n < s.nodes.size, ∀ c ∈ s.offspring n, (s.node c).parent.isOnly (some n)) :
    s.TreeFrom root where
  there := there
  listed n hn := listed n (hn.lt_size hs there)
  unique hm hn hleads hleads' := unique _ (hm.lt_size hs there) _ (hn.lt_size hs there) _
    (leads_iff_offspring.mp hleads) (leads_iff_offspring.mp hleads')
  top hn hleads := top _ (hn.lt_size hs there) (leads_iff_offspring.mp hleads)
  free := by
    rw [parent?_eq_none]
    rcases Backref.isOnly_iff.mp free with hnone | hgone | ⟨n, hn, _⟩
    · exact Or.inl hnone
    · exact Or.inr hgone
    · simp at hn
  attached {n c} hn hleads := by
    have honly := attached n (hn.lt_size hs there) c (leads_iff_offspring.mp hleads)
    rw [parent?_eq_none, parent?_eq_some]
    rcases Backref.isOnly_iff.mp honly with hnone | hgone | ⟨m, hm, hto⟩
    · exact Or.inl (Or.inl hnone)
    · exact Or.inl (Or.inr hgone)
    · obtain rfl : n = m := Option.some.inj hm
      exact Or.inr hto

/-- Where the location of a node ends up. -/
inductive Final (s : Store) (root : NodeId) : NodeId → Position → Prop where
  | root : s.Final root root (s.node root).position
  | filled {n c : NodeId} {p : Position} : s.Final root n p → s.Leads n c →
      s.isExpression c = true → s.Final root c ((s.node c).position.completed p)
  | own {n c : NodeId} {p : Position} : s.Final root n p → s.Leads n c →
      s.isExpression c = false → s.Final root c (s.node c).position

theorem Final.isBelow (h : s.Final root n p) : s.Below root n := by
  induction h with
  | root => exact .refl
  | filled _ hleads _ ih => exact ih.tail hleads
  | own _ hleads _ ih => exact ih.tail hleads

theorem exists_final (h : s.Below root n) : ∃ p, s.Final root n p := by
  induction h with
  | refl => exact ⟨_, .root⟩
  | @tail _ c _ hleads ih =>
    obtain ⟨p, hp⟩ := ih
    cases hexpr : s.isExpression c with
    | true => exact ⟨_, .filled hp hleads hexpr⟩
    | false => exact ⟨_, .own hp hleads hexpr⟩

theorem Final.present (hs : ∀ n, (s.node n).position.Present) (h : s.Final root n p) :
    p.Present := by
  induction h with
  | root => exact hs _
  | filled _ _ _ ih => exact (hs _).completed ih
  | own _ _ _ _ => exact hs _

/-- In a tree a location ends up in one way only. -/
theorem Final.unique (htree : s.TreeFrom root) (hp : s.Final root n p) :
    ∀ {q}, s.Final root n q → p = q := by
  induction hp with
  | root =>
    intro q hq
    cases hq with
    | root => rfl
    | filled hn hleads _ => exact absurd hleads (htree.top hn.isBelow)
    | own hn hleads _ => exact absurd hleads (htree.top hn.isBelow)
  | filled hn hleads hexpr ih =>
    intro q hq
    cases hq with
    | root => exact absurd hleads (htree.top hn.isBelow)
    | filled hm hleads' _ =>
      obtain rfl := htree.unique hn.isBelow hm.isBelow hleads hleads'
      rw [ih hm]
    | own _ _ hexpr' => simp [hexpr] at hexpr'
  | own hn hleads hexpr _ =>
    intro q hq
    cases hq with
    | root => exact absurd hleads (htree.top hn.isBelow)
    | filled _ _ hexpr' => simp [hexpr] at hexpr'
    | own _ _ _ => rfl

/-! ## The invariant -/

/-- A document on its way: whatever is there of a location is what will be there in the end, and
whatever parent is referred to is the container. -/
structure Settling (s₀ : Store) (root : NodeId) (s : Store) : Prop where
  follows : s₀.Follows s
  top : (s.node root).position = (s₀.node root).position
  own : ∀ {n c}, s₀.Below root n → s₀.Leads n c → s₀.isExpression c = false →
    (s.node c).position = (s₀.node c).position
  filled : ∀ {n c p}, s₀.Final root n p → s₀.Leads n c → s₀.isExpression c = true →
    (s.node c).position.completed p = (s₀.node c).position.completed p
  free : s.parent? root = .ok none
  attached : ∀ {n c}, s₀.Below root n → s₀.Leads n c →
    s.parent? c = .ok none ∨ s.parent? c = .ok (some (.node n))

namespace Settling

theorem refl (htree : s.TreeFrom root) : s.Settling root s where
  follows := .refl s
  top := rfl
  own _ _ _ := rfl
  filled _ _ _ := rfl
  free := htree.free
  attached := htree.attached

/-- What is there of the location of a node is final. -/
theorem towards (h : s₀.Settling root s) (hn : s₀.Final root n p) :
    (s.node n).position.Towards p := by
  cases hn with
  | root =>
    rw [h.top]
    exact .refl _
  | filled hm hleads hexpr =>
    rw [← h.filled hm hleads hexpr]
    exact Position.towards_completed ..
  | own hm hleads hexpr =>
    rw [h.own hm.isBelow hleads hexpr]
    exact .refl _

/-- Nothing changes for the document if its nodes keep their locations, and their parents unless
these are let go. -/
theorem of_nodes (hs₀ : s₀.Closed) (htree : s₀.TreeFrom root) (h : s₀.Settling root s)
    (ht : s₀.Follows t)
    (hposition : ∀ n < s₀.nodes.size, (t.node n).position = (s.node n).position)
    (hparent : ∀ n < s₀.nodes.size, (t.node n).parent = (s.node n).parent ∨
      (t.node n).parent = .gone ∧ ∃ v, (s.node n).parent = .to v) : s₀.Settling root t := by
  have hfree : ∀ n < s₀.nodes.size, s.parent? n = .ok none → t.parent? n = .ok none := by
    intro n hn hnone
    rw [parent?_eq_none] at hnone ⊢
    rcases hparent n hn with heq | ⟨hgone, _⟩
    · rw [heq]
      exact hnone
    · exact Or.inr hgone
  refine ⟨ht, ?_, fun hn hleads hexpr => ?_, fun hn hleads hexpr => ?_, ?_, fun hn hleads => ?_⟩
  · rw [hposition root htree.there]
    exact h.top
  · rw [hposition _ (hleads.lt_size hs₀)]
    exact h.own hn hleads hexpr
  · rw [hposition _ (hleads.lt_size hs₀)]
    exact h.filled hn hleads hexpr
  · exact hfree root htree.there h.free
  · have hc := hleads.lt_size hs₀
    rcases h.attached hn hleads with hnone | hsome
    · exact Or.inl (hfree _ hc hnone)
    · rcases hparent _ hc with heq | ⟨hgone, _⟩
      · rw [parent?_eq_some] at hsome ⊢
        rw [heq]
        exact Or.inr hsome
      · exact Or.inl (parent?_eq_none.mpr (Or.inr hgone))

/-- A child in the document, or something new. -/
def IsChild (s₀ : Store) (root n c : NodeId) : Prop :=
  s₀.Below root n ∧ s₀.Leads n c ∨ s₀.nodes.size ≤ c

/-- Handing a location to a child keeps a document on its way: nothing else hands the child any, so
what it gets is what it will have in the end. -/
theorem fill (hs₀ : s₀.Closed) (htree : s₀.TreeFrom root) (h : s₀.Settling root s)
    (hc : IsChild s₀ root n c) : s₀.Settling root (s.fill c n) := by
  have hfollows : s₀.Follows (s.fill c n) := by
    refine h.follows.of_agents (h.follows.extends_.fill c n) ?_ ?_ <;>
      (unfold Store.fill; split <;> rfl)
  rcases hc with ⟨hbelow, hleads⟩ | hnew
  · have hsize := hleads.lt_size hs₀
    have hexpr := isExpression_extends hs₀ h.follows.extends_ hsize
    refine ⟨hfollows, ?_, fun hm hleads' hown => ?_, fun hm hleads' hfill => ?_, ?_,
      fun hm hleads' => ?_⟩
    · have hne : ¬(root = c ∧ s.isExpression c) := by
        rintro ⟨rfl, _⟩
        exact htree.top hbelow hleads
      rw [node_fill, if_neg hne]
      exact h.top
    · rw [node_fill]
      split
      · rename_i hc
        obtain ⟨rfl, hc⟩ := hc
        rw [hexpr, hown] at hc
        exact absurd hc (by simp)
      · exact h.own hm hleads' hown
    · rw [node_fill]
      split
      · rename_i hc
        obtain ⟨rfl, _⟩ := hc
        -- only the container hands its location down, and what it has of it is final
        obtain rfl := htree.unique hm.isBelow hbelow hleads' hleads
        rw [Position.completed_completed (h.towards hm)]
        exact h.filled hm hleads' hfill
      · exact h.filled hm hleads' hfill
    · rw [parent?_eq_none, parent_fill, ← parent?_eq_none]
      exact h.free
    · rw [parent?_eq_none, parent?_eq_some, parent_fill, ← parent?_eq_none, ← parent?_eq_some]
      exact h.attached hm hleads'
  · refine h.of_nodes hs₀ htree hfollows (fun k hk => ?_) fun k _ => Or.inl (parent_fill s c n k)
    have hne : ¬(k = c ∧ s.isExpression c) := by
      rintro ⟨rfl, _⟩
      exact absurd hk (Nat.not_lt.mpr hnew)
    rw [node_fill, if_neg hne]

/-- So does attaching a child, which has no other container. -/
theorem setParent (hs₀ : s₀.Closed) (htree : s₀.TreeFrom root) (h : s₀.Settling root s)
    (hc : IsChild s₀ root n c) : s₀.Settling root (s.setParent (.node c) (.node n)) := by
  have hfollows : s₀.Follows (s.setParent (.node c) (.node n)) :=
    h.follows.of_agents (h.follows.extends_.setParent c _) rfl rfl
  have hposition : ∀ k, ((s.setParent (.node c) (.node n)).node k).position =
      (s.node k).position := by
    intro k
    rw [node_setParent]
    split <;> rfl
  have hparent : ∀ k, k ≠ c → ((s.setParent (.node c) (.node n)).node k).parent =
      (s.node k).parent := by
    intro k hk
    rw [node_setParent, if_neg fun h => hk h.1.symm]
  rcases hc with ⟨hbelow, hleads⟩ | hnew
  · refine ⟨hfollows, ?_, fun hm hleads' hown => ?_, fun hm hleads' hfill => ?_, ?_,
      fun {m d} hm hleads' => ?_⟩
    · rw [hposition]
      exact h.top
    · rw [hposition]
      exact h.own hm hleads' hown
    · rw [hposition]
      exact h.filled hm hleads' hfill
    · have hne : root ≠ c := by
        rintro rfl
        exact htree.top hbelow hleads
      rw [parent?_eq_none, hparent root hne, ← parent?_eq_none]
      exact h.free
    · by_cases hd : d = c
      · subst hd
        obtain rfl := htree.unique hm hbelow hleads' hleads
        refine Or.inr (parent?_eq_some.mpr ?_)
        have hsize := Nat.lt_of_lt_of_le (hleads.lt_size hs₀) h.follows.extends_.nodes
        rw [node_setParent, if_pos ⟨rfl, hsize⟩]
      · rw [parent?_eq_none, parent?_eq_some, hparent d hd, ← parent?_eq_none,
          ← parent?_eq_some]
        exact h.attached hm hleads'
  · refine h.of_nodes hs₀ htree hfollows (fun k _ => hposition k) fun k hk => Or.inl ?_
    exact hparent k fun he => absurd hk (Nat.not_lt.mpr (he ▸ hnew))

/-- A new variable is nothing that was in the document. -/
theorem addVariable (hs₀ : s₀.Closed) (htree : s₀.TreeFrom root) (h : s₀.Settling root s)
    (n : NodeId) (name : Value) : s₀.Settling root (s.addVariable n name) := by
  have hnode : ∀ k < s₀.nodes.size, (s.addVariable n name).node k = s.node k := fun k hk =>
    node_addVariable (Nat.lt_of_lt_of_le hk h.follows.extends_.nodes) name
  refine h.of_nodes hs₀ htree
    (h.follows.of_agents (addVariable_extends h.follows.extends_ n name) rfl rfl)
    (fun k hk => ?_) fun k hk => Or.inl ?_
  · rw [hnode k hk]
  · rw [hnode k hk]

/-- Lists, tables and marks play no part. -/
theorem of_rest (hs₀ : s₀.Closed) (htree : s₀.TreeFrom root) (h : s₀.Settling root s)
    (ht : s₀.Follows t) (nodes : t.nodes = s.nodes) : s₀.Settling root t := by
  have hnode : ∀ k, t.node k = s.node k := fun k => by rw [node, node?, nodes]; rfl
  refine h.of_nodes hs₀ htree ht (fun k _ => ?_) fun k _ => Or.inl ?_
  · rw [hnode]
  · rw [hnode]

/-- What is let go is let go. -/
theorem keepParents (hs₀ : s₀.Closed) (htree : s₀.TreeFrom root) (h : s₀.Settling root s)
    (stays : Cell → Bool) : s₀.Settling root (s.keepParents stays) := by
  refine h.of_nodes hs₀ htree (h.follows.keepParents stays) (fun k _ => ?_) fun k _ => ?_
  · rw [node_keepParents]
  · rw [node_keepParents]
    rcases hk : (s.node k).parent with _ | v | _ | v
    · exact Or.inl rfl
    · cases hstays : v.cell?.elim false stays with
      | true => exact Or.inl (by simp [keepParent, hstays])
      | false => exact Or.inr ⟨by simp [keepParent, hstays], v, rfl⟩
    · exact Or.inl rfl
    · exact Or.inl rfl

end Settling

end Store

end SheetLint
