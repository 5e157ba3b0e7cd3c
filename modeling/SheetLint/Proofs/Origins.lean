import SheetLint.Proofs.Locations
import SheetLint.Proofs.Settling

/-!
# Where locations come from

A part of a location is handed down from container to child until it meets a node that keeps its
own: one that has the part, or a line, or is no expression (`Store.keeps`). Where nothing is a child
of two nodes there is one chain from a node up to the root (`Store.Ascent`), and so one answer to
where a part comes from: the first node of the chain that keeps its own (`Store.inherited`). The
rules for a line and for the other parts are one rule, for to have the part and to have a line is
then the same.

Nothing is said here about parents, so these may be whatever they are. What a tour keeps is
`Store.Converging`: a location is on its way to where it ends up (`Store.Final`). That it gets there
is because nothing is left to hand down (`Tour.atRest`).
-/

namespace SheetLint

namespace Store

variable {s s₀ t : Store} {root m n c : NodeId} {policy : ParentPolicy} {chain : List NodeId}
  {p : Position} {part : Position → Value}

/-! ## The chain to the root -/

/-- The chain from a node up to the root: each is a child of the next. -/
inductive Ascent (s : Store) (root : NodeId) : NodeId → List NodeId → Prop where
  | top : s.Ascent root root [root]
  | up {n c : NodeId} {chain : List NodeId} :
      s.Ascent root n chain → s.Leads n c → s.Ascent root c (c :: chain)

theorem Ascent.isBelow (h : s.Ascent root n chain) : s.Below root n := by
  induction h with
  | top => exact .refl
  | up _ hleads ih => exact ih.tail hleads

theorem exists_ascent (h : s.Below root n) : ∃ chain, s.Ascent root n chain := by
  induction h with
  | refl => exact ⟨_, .top⟩
  | tail _ hleads ih =>
    obtain ⟨chain, hchain⟩ := ih
    exact ⟨_, hchain.up hleads⟩

/-- Where nothing is shared there is one chain. -/
theorem Ascent.unique (hshares : ¬s.SharesBelow root) (htop : ∀ n, ¬s.Contains root n root)
    (h : s.Ascent root n chain) : ∀ {chain'}, s.Ascent root n chain' → chain = chain' := by
  induction h with
  | top =>
    intro chain' h'
    cases h' with
    | top => rfl
    | up hn hleads => exact absurd ⟨hn.isBelow, hleads⟩ (htop _)
  | up hn hleads ih =>
    intro chain' h'
    cases h' with
    | top => exact absurd ⟨hn.isBelow, hleads⟩ (htop _)
    | up hm hleads' =>
      obtain rfl := Contains.unique hshares ⟨hn.isBelow, hleads⟩ ⟨hm.isBelow, hleads'⟩
      rw [ih hm]

/-! ## What is inherited -/

/-- Whether a node keeps its own part of a location, be it there or not, when locations are handed
down from the root. -/
def keeps (part : Position → Value) (s : Store) (root n : NodeId) : Bool :=
  !(part (s.node n).position).isNull || (s.node n).hasLine || !s.isExpression n || n == root

/-- The part of a location that comes down a chain: that of the nearest node that keeps its own. -/
def inherited (part : Position → Value) (s : Store) (root : NodeId) (chain : List NodeId) :
    Option Value :=
  (chain.find? (s.keeps part root)).map fun n => part (s.node n).position

/-- What counts as a part of a location: it is filled in if it is missing, and only where there is
no line. -/
def IsPart (part : Position → Value) : Prop :=
  ∀ own container : Position, part (own.completed container) =
    if own.line.isNull && (part own).isNull then part container else part own

theorem isPart_line : IsPart Position.line := by
  intro own container
  unfold Position.completed
  cases own.line.isNull <;> rfl

theorem isPart_column : IsPart Position.column := by
  intro own container
  unfold Position.completed
  cases own.line.isNull <;> rfl

theorem isPart_file : IsPart Position.file := by
  intro own container
  unfold Position.completed
  cases own.line.isNull <;> rfl

theorem inherited_of_keeps (h : s.keeps part root n = true) (chain : List NodeId) :
    s.inherited part root (n :: chain) = some (part (s.node n).position) := by
  rw [inherited, List.find?_cons_of_pos h]
  rfl

theorem inherited_of_not_keeps (h : s.keeps part root n = false) (chain : List NodeId) :
    s.inherited part root (n :: chain) = s.inherited part root chain := by
  rw [inherited, List.find?_cons_of_neg (by simp [h]), ← inherited]

/-- Completing the location of a child adds one link to the chain. -/
theorem inherited_cons (hpart : IsPart part) (hne : c ≠ root) (hexpr : s.isExpression c = true)
    (h : s.inherited part root chain = some (part p)) :
    s.inherited part root (c :: chain) = some (part ((s.node c).position.completed p)) := by
  have hkeeps : s.keeps part root c =
      !((s.node c).position.line.isNull && (part (s.node c).position).isNull) := by
    simp [keeps, Node.hasLine, hexpr, hne, Bool.or_comm]
  rw [hpart]
  cases hmissing : (s.node c).position.line.isNull && (part (s.node c).position).isNull with
  | true =>
    rw [hmissing] at hkeeps
    rw [inherited_of_not_keeps hkeeps, h]
    rfl
  | false =>
    rw [hmissing] at hkeeps
    rw [inherited_of_keeps hkeeps]
    rfl

/-- Where a location ends up is what its chain hands down, part by part. -/
theorem Ascent.exists_final (htop : ∀ n, ¬s.Contains root n root)
    (h : s.Ascent root n chain) :
    ∃ p, s.Final root n p ∧ ∀ part, IsPart part → s.inherited part root chain = some (part p) := by
  -- from the root down: what a container ends up with is what it has to hand on
  induction h with
  | top =>
    refine ⟨_, .root, fun part _ => inherited_of_keeps ?_ _⟩
    simp [keeps]
  | @up n c chain hn hleads ih =>
    obtain ⟨p, hp, hparts⟩ := ih
    cases hexpr : s.isExpression c with
    | true =>
      have hne : c ≠ root := by
        rintro rfl
        exact htop n ⟨hn.isBelow, hleads⟩
      exact ⟨_, .filled hp hleads hexpr, fun part hpart =>
        inherited_cons hpart hne hexpr (hparts part hpart)⟩
    | false =>
      refine ⟨_, .own hp hleads hexpr, fun part _ => inherited_of_keeps ?_ _⟩
      simp [keeps, hexpr]

/-- A node that has a line, or is no expression, ends up where it was. -/
theorem Final.eq_own (h : s.Final root n p)
    (hown : (s.node n).hasLine = true ∨ s.isExpression n = false) : p = (s.node n).position := by
  cases h with
  | root => rfl
  | own => rfl
  | filled _ _ hexpr =>
    rcases hown with hline | hno
    · have hfull : (s.node n).position.line.isNull = false := by simpa [Node.hasLine] using hline
      simp [Position.completed, hfull]
    · simp [hexpr] at hno

/-! ## The invariant -/

/-- A document whose locations are on their way: they can still be completed to where they end
up. -/
structure Converging (s₀ : Store) (root : NodeId) (s : Store) : Prop where
  extends_ : s₀.Extends s
  top : (s.node root).position = (s₀.node root).position
  own : ∀ {n c}, s₀.Contains root n c → s₀.isExpression c = false →
    (s.node c).position = (s₀.node c).position
  filled : ∀ {n c p}, s₀.Final root n p → s₀.Leads n c → s₀.isExpression c = true →
    (s.node c).position.completed p = (s₀.node c).position.completed p

namespace Converging

theorem refl (s : Store) (root : NodeId) : s.Converging root s :=
  ⟨.refl s, rfl, fun _ _ => rfl, fun _ _ _ => rfl⟩

/-- What is there of the location of a node is final. -/
theorem towards (h : s₀.Converging root s) (hn : s₀.Final root n p) :
    (s.node n).position.Towards p := by
  cases hn with
  | root =>
    rw [h.top]
    exact .refl _
  | filled hm hleads hexpr =>
    rw [← h.filled hm hleads hexpr]
    exact Position.towards_completed ..
  | own hm hleads hexpr =>
    rw [h.own ⟨hm.isBelow, hleads⟩ hexpr]
    exact .refl _

/-- One step of a tour: only its container hands a child anything, and that is final. -/
theorem children (h : s₀.Converging root s) (hs₀ : s₀.Closed) (there : root < s₀.nodes.size)
    (hshares : ¬s₀.SharesBelow root) (htop : ∀ n, ¬s₀.Contains root n root)
    (hn : s₀.Below root n ∨ s₀.nodes.size ≤ n) {cs : List NodeId}
    (hcs : (Edit.children n policy).perform s = (.ok cs, t)) : s₀.Converging root t := by
  -- what was there from the start and is a child now was one from the start
  have hcontained : ∀ c < s₀.nodes.size, c ∈ cs → s₀.Contains root n c := by
    intro c hc hmem
    have hleads := (mem_children_iff hs₀ h.extends_ hcs hc).mp hmem
    rcases hn with hbelow | hnew
    · exact ⟨hbelow, hleads⟩
    · exact absurd hleads.self_lt_size (Nat.not_lt.mpr hnew)
  have hkept : ∀ c < s₀.nodes.size, c ∉ cs → t.node c = s.node c := fun c hc hmem =>
    node_children_of_not_mem hcs hmem (Nat.lt_of_lt_of_le hc h.extends_.nodes)
  refine ⟨extends_of_children h.extends_ hcs, ?_, fun {m c} hm hexpr => ?_,
    fun {m c p} hm hleads hexpr => ?_⟩
  · rw [hkept root there fun hmem => htop n (hcontained root there hmem)]
    exact h.top
  · have hc := hm.2.lt_size hs₀
    by_cases hmem : c ∈ cs
    · rw [position_of_mem_children hs₀ h.extends_ hcs hmem hc, handed, hexpr]
      exact h.own hm hexpr
    · rw [hkept c hc hmem]
      exact h.own hm hexpr
  · have hc := hleads.lt_size hs₀
    by_cases hmem : c ∈ cs
    · obtain rfl := Contains.unique hshares ⟨hm.isBelow, hleads⟩ (hcontained c hc hmem)
      rw [position_of_mem_children hs₀ h.extends_ hcs hmem hc, handed, if_pos hexpr,
        Position.completed_completed (h.towards hm)]
      exact h.filled hm hleads hexpr
    · rw [hkept c hc hmem]
      exact h.filled hm hleads hexpr

/-- Locations that are at rest have arrived. -/
theorem arrived (h : s₀.Converging root s) (hrest : s₀.AtRest root s) (hn : s₀.Final root n p) :
    (s.node n).position = p := by
  induction hn with
  | root => exact h.top
  | @filled n c p hm hleads hexpr ih =>
    have hnothing : handed s₀ s n c = (s.node c).position := hrest n c ⟨hm.isBelow, hleads⟩
    rw [handed, if_pos hexpr, ih] at hnothing
    rw [← hnothing]
    exact h.filled hm hleads hexpr
  | own hm hleads hexpr => exact h.own ⟨hm.isBelow, hleads⟩ hexpr

end Converging

end Store

open Store

/-- A walk through a document in which nothing is shared leaves its locations converging. -/
theorem Walk.Tour.converging {policy : ParentPolicy} {s u : Store} {root : NodeId}
    {visits : List (Value × Store)} (h : Tour policy [root] s visits [] u) (hs : s.Closed)
    (there : root < s.nodes.size) (hshares : ¬s.SharesBelow root)
    (htop : ∀ n, ¬s.Contains root n root) : s.Converging root u := by
  let P (stack : List NodeId) (u : Store) : Prop :=
    (∀ n ∈ stack, s.Below root n ∨ s.nodes.size ≤ n) ∧ s.Converging root u
  have hend : P [] u := by
    refine h.keeps (P := fun _ => P) ?_ [] ⟨mem_root s root, .refl s root⟩
    rintro before n rest v cs t ⟨hstack, hv⟩ hcs
    exact ⟨below_stack hs hv.extends_ hstack hcs,
      hv.children hs there hshares htop (hstack n (List.mem_cons_self ..)) hcs⟩
  exact hend.2

/-- A walk over a tree that is done has brought each part of the location of each node down from the
nearest node above that keeps its own. The nodes with a line and those that are no expressions are
where they were. Parents do not matter. -/
theorem walk_locations {s : Store} {root : NodeId} {policy : ParentPolicy} {limit : Nat}
    (hs : s.Closed) (there : root < s.nodes.size) (hshares : ¬s.SharesBelow root)
    (htop : ∀ n, ¬s.Contains root n root)
    (hdone : (Walk.start policy limit (.node root) s).finish = .done) :
    ∀ n, s.Below root n → ∃ chain, s.Ascent root n chain ∧
      (∀ chain', s.Ascent root n chain' → chain' = chain) ∧
      let after := ((Walk.start policy limit (.node root) s).store.node n).position
      s.inherited Position.line root chain = some after.line ∧
        s.inherited Position.column root chain = some after.column ∧
        s.inherited Position.file root chain = some after.file ∧
        ((s.node n).hasLine = true ∨ s.isExpression n = false → after = (s.node n).position) := by
  intro n hn
  have htour := Walk.tour_of_done hdone
  obtain ⟨chain, hchain⟩ := exists_ascent hn
  obtain ⟨p, hp, hparts⟩ := hchain.exists_final htop
  have hafter : ((Walk.start policy limit (.node root) s).store.node n).position = p :=
    (htour.converging hs there hshares htop).arrived (htour.atRest hs) hp
  refine ⟨chain, hchain, fun chain' h' => (hchain.unique hshares htop h').symm, ?_⟩
  rw [hafter]
  exact ⟨hparts _ isPart_line, hparts _ isPart_column, hparts _ isPart_file, hp.eq_own⟩

/-- A property whose value has a column alone, over an operand that has a file alone. The operand
refers to what it is no child of. -/
def scatteredSheet : Store where
  nodes := #[
    some { position := { line := .int 1 }, form := .statement (.list 0) (.rule (.list 1)) },
    some { position := { line := .int 2, column := .int 3 }
           form := .statement (.list 1) (.prop (.list 1) (.node 2)) },
    some { position := { column := .int 7 }
           form := .expression (.unary (.text "not") (.node 3)) },
    some { position := { file := .text "b.scss" }
           form := .expression (.variable (.text "color")), parent := .to (.node 0) }]
  lists := #[[.node 1], []]

/-- The line of the operand is that of the property, and its column that of the value. -/
theorem walk_locations_scattered :
    scatteredSheet.Closed ∧ ¬scatteredSheet.SharesBelow 0 ∧
      (∀ n, ¬scatteredSheet.Contains 0 n 0) ∧
      (Walk.start .refresh 9 (.node 0) scatteredSheet).finish = .done ∧
      scatteredSheet.Ascent 0 3 [3, 2, 1, 0] ∧
      let after := (Walk.start .refresh 9 (.node 0) scatteredSheet).store
      (after.node 3).position =
          { line := .int 2, column := .int 7, file := .text "b.scss" } ∧
        (after.node 1).position = { line := .int 2, column := .int 3 } := by
  have hclosed : scatteredSheet.Closed := by decide
  have hshares : ¬scatteredSheet.SharesBelow 0 := not_sharesBelow_of_offspring (by decide) 0
  have htop : ∀ n, ¬scatteredSheet.Contains 0 n 0 :=
    (acyclicFrom_of_rank (fun n => [3, 2, 1, 0].getD n 0) (by decide) 0).not_contains
  have hleads : ∀ n < 3, scatteredSheet.Leads n (n + 1) := fun n hn =>
    leads_iff_offspring.mpr ((by decide : ∀ n < 3, n + 1 ∈ scatteredSheet.offspring n) n hn)
  have hprop : scatteredSheet.Ascent 0 1 [1, 0] := .up .top (hleads 0 (by decide))
  have hoperand : scatteredSheet.Ascent 0 3 [3, 2, 1, 0] :=
    (hprop.up (hleads 1 (by decide))).up (hleads 2 (by decide))
  have hlocations := walk_locations hclosed (by decide) hshares htop
    (rfl : (Walk.start .refresh 9 (.node 0) scatteredSheet).finish = .done)
  obtain ⟨chain, -, hunique, hline, hcolumn, hfile, -⟩ := hlocations 3 hoperand.isBelow
  obtain ⟨_, -, -, -, -, -, hkept⟩ := hlocations 1 hprop.isBelow
  obtain rfl := hunique _ hoperand
  refine ⟨hclosed, hshares, htop, rfl, hoperand, ?_, hkept (Or.inl rfl)⟩
  generalize hafter : ((Walk.start .refresh 9 (.node 0) scatteredSheet).store.node 3).position =
    after at hline hcolumn hfile
  obtain ⟨line, column, file⟩ := after
  cases hline
  cases hcolumn
  cases hfile
  exact hafter

end SheetLint
