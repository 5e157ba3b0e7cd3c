import SheetLint.Proofs.Intact
import SheetLint.Proofs.Parents

/-!
# Locations come to rest

Computing the children of a node completes the location of each of them from its own, once
(`position_of_mem_children`). Where nodes are shared, one can get its line only after its children
were computed, so that these miss it. But whoever hands a node its line also has it as a child, so
it is visited again. This is the invariant of a tour: what was visited is on the stack again, or has
nothing to hand down that its children lack. A tour that leaves nothing on the stack therefore
leaves no location that could be completed any more (`Tour.atRest`).
-/

namespace SheetLint

namespace Position

/-- A location is completed from another one once. -/
theorem completed_twice (q p : Position) : (q.completed p).completed p = q.completed p := by
  cases hl : q.line.isNull with
  | false => simp [completed, hl]
  | true =>
    cases hpl : p.line.isNull with
    | false => simp [completed, hl, hpl]
    | true => cases hc : q.column.isNull <;> cases hf : q.file.isNull <;> simp [completed, *]

/-- A part that is not filled in from one value is not filled in from it later. -/
theorem part_stays {a b : Value} (h : (if a.isNull then b else a) = a) (c : Value) :
    (if (if a.isNull then c else a).isNull then b else if a.isNull then c else a) =
      if a.isNull then c else a := by
  cases ha : a.isNull with
  | false => simp [ha]
  | true =>
    simp only [ha, if_true] at h ⊢
    cases hc : c.isNull with
    | false => simp
    | true => rw [if_pos rfl, h, eq_null ha, eq_null hc]

/-- What has nothing to hand down to a location has nothing to hand down once it was completed. -/
theorem completed_stays {q r : Position} (h : q.completed r = q) (p : Position) :
    (q.completed p).completed r = q.completed p := by
  cases hl : q.line.isNull with
  | false =>
    have hq : q.completed p = q := by simp [completed, hl]
    rw [hq, h]
  | true =>
    obtain ⟨line, column, file⟩ := q
    simp only [completed, hl, if_true] at h
    obtain ⟨hline, hcolumn, hfile⟩ := Position.mk.inj h
    cases hpl : p.line.isNull with
    | false => simp [completed, hl, hpl]
    | true =>
      -- there is still no line, and none to get from `r`; the other parts go one by one
      have hlines : r.line = p.line := by
        rw [hline, eq_null hpl]
        exact eq_null hl
      simp only [completed, hl, hpl, if_true, part_stays hcolumn, part_stays hfile, hlines]

end Position

namespace Store

variable {s t u s₀ : Store} {root n m c d : NodeId} {policy : ParentPolicy} {cs : List NodeId}

/-! ## What children are handed -/

/-- Where a node stands once a container has handed it its location. -/
def handed (s₀ s : Store) (n c : NodeId) : Position :=
  if s₀.isExpression c then (s.node c).position.completed (s.node n).position
  else (s.node c).position

/-- A store in the midst of computing the children of `n`, which began in `s`: the node `c` stands
where it did, or where `n` puts it. -/
structure Handing (s₀ s : Store) (n c : NodeId) (u : Store) : Prop where
  extends_ : s₀.Extends u
  container : (u.node n).position = (s.node n).position
  child : (u.node c).position = (s.node c).position ∨ (u.node c).position = handed s₀ s n c

namespace Handing

theorem begin (hs : s₀.Extends s) (n c : NodeId) : Handing s₀ s n c s := ⟨hs, rfl, Or.inl rfl⟩

/-- The location of `c` is completed. -/
theorem position_fill (hs₀ : s₀.Closed) (hc : c < s₀.nodes.size) (h : Handing s₀ s n c u) :
    ((u.fill c n).node c).position = handed s₀ s n c := by
  have hexpr := isExpression_extends hs₀ h.extends_ hc
  have hchild := h.child
  rw [node_fill, hexpr]
  unfold handed at hchild ⊢
  cases he : s₀.isExpression c with
  | false =>
    rw [he] at hchild
    simpa using hchild
  | true =>
    rw [he] at hchild
    simp only [true_and, if_true] at hchild ⊢
    rw [h.container]
    rcases hchild with hown | hdone
    · rw [hown]
    · rw [hdone, Position.completed_twice]

/-- Completing the location of any child keeps this up. -/
theorem fill (hs₀ : s₀.Closed) (hc : c < s₀.nodes.size) (h : Handing s₀ s n c u) (d : NodeId) :
    Handing s₀ s n c (u.fill d n) where
  extends_ := h.extends_.fill d n
  container := by
    rw [node_fill]
    split
    · rename_i hn
      rw [← hn.1, Position.completed_self]
      exact h.container
    · exact h.container
  child := by
    by_cases hdc : d = c
    · rw [hdc]
      exact Or.inr (h.position_fill hs₀ hc)
    · rw [node_fill, if_neg fun hc => hdc hc.1.symm]
      exact h.child

/-- A new variable moves nothing. -/
theorem addVariable (hn : n < s₀.nodes.size) (hc : c < s₀.nodes.size) (h : Handing s₀ s n c u)
    (name : Value) : Handing s₀ s n c (u.addVariable n name) where
  extends_ := addVariable_extends h.extends_ n name
  container := by
    rw [node_addVariable (Nat.lt_of_lt_of_le hn h.extends_.nodes)]
    exact h.container
  child := by
    rw [node_addVariable (Nat.lt_of_lt_of_le hc h.extends_.nodes)]
    exact h.child

/-- Nor does writing a parent. -/
theorem setParent (h : Handing s₀ s n c u) (d : NodeId) (p : Value) :
    Handing s₀ s n c (u.setParent (.node d) p) where
  extends_ := h.extends_.setParent d p
  container := by
    rw [position_setParent]
    exact h.container
  child := by
    rw [position_setParent]
    exact h.child

theorem note (h : Handing s₀ s n c u) (m : Message) : Handing s₀ s n c (u.note m) :=
  ⟨h.extends_.note m, h.container, h.child⟩

end Handing

/-- Once the children of a node are computed, each of them stands where the node puts it. -/
theorem position_of_mem_children (hs₀ : s₀.Closed) (hs : s₀.Extends s)
    (hcs : (Edit.children n policy).perform s = (.ok cs, t)) (hc : c ∈ cs)
    (hold : c < s₀.nodes.size) : (t.node c).position = handed s₀ s n c := by
  have hn : n < s₀.nodes.size := ((mem_children_iff hs₀ hs hcs hold).mp hc).self_lt_size
  obtain ⟨ks, filled, _, rfl, _, hloop⟩ := Edit.children_ok hcs
  let Q (d : NodeId) (u : Store) : Prop := d = c → (u.node c).position = handed s₀ s n c
  have hcollected : Handing s₀ s n c ((s.fillAll n filled).addVariables n (Kid.names ks)) := by
    refine addVariables_keeps (fun _ name h => h.addVariable hn hold name) _ ?_
    exact fillAll_keeps (fun _ => True) (fun _ d h _ => h.fill hs₀ hold d) filled (.begin hs n c)
      fun _ _ => trivial
  have hall := Edit.forM_establishes (P := Handing s₀ s n c) (Q := Q)
    (fun d => Edit.adopt_keeps policy (fun _ h => h.fill hs₀ hold d) (fun _ h => h.setParent d _)
      fun _ m h => h.note m) ?establish ?stable hcollected hloop
  case establish =>
    rintro d u v hu hadopt rfl
    have hposition := hu.position_fill hs₀ hold
    refine Edit.attach_keeps (P := fun w => (w.node d).position = handed s₀ s n d)
      (fun w hw => ?_) (fun _ _ h => h) hposition (Edit.of_adopt_ok hadopt)
    rwa [position_setParent]
  case stable =>
    -- a child that is listed twice is completed from the same node again
    intro d e
    refine Edit.adopt_keeps policy ?_ ?_ ?_
    · rintro u ⟨hu, hd⟩
      refine ⟨hu.fill hs₀ hold e, fun hdc => ?_⟩
      by_cases hec : e = c
      · rw [hec]
        exact hu.position_fill hs₀ hold
      · rw [node_fill, if_neg fun hc => hec hc.1.symm]
        exact hd hdc
    · rintro u ⟨hu, hd⟩
      refine ⟨hu.setParent e _, fun hdc => ?_⟩
      rw [position_setParent]
      exact hd hdc
    · exact fun u m ⟨hu, hd⟩ => ⟨hu.note m, hd⟩
  exact hall c hc rfl

/-! ## At rest -/

/-- A node has nothing to hand down that its child lacks. -/
def NothingToHand (s₀ s : Store) (n c : NodeId) : Prop := handed s₀ s n c = (s.node c).position

/-- No location of a document can be completed any more. -/
def AtRest (s₀ : Store) (root : NodeId) (s : Store) : Prop :=
  ∀ n c, s₀.Contains root n c → NothingToHand s₀ s n c

/-- One step of a tour: what was just visited has nothing left to hand down, and so it stays with
what has not changed, for nothing was handed down to it. -/
theorem nothingToHand_children (hs₀ : s₀.Closed) (hs : s₀.Extends s)
    (hcs : (Edit.children n policy).perform s = (.ok cs, t)) (hm : m ∉ cs) (hmc : s₀.Leads m c)
    (h : m = n ∨ NothingToHand s₀ s m c) : NothingToHand s₀ t m c := by
  have hold := hmc.lt_size hs₀
  have hcontainer : t.node m = s.node m :=
    node_children_of_not_mem hcs hm (Nat.lt_of_lt_of_le hmc.self_lt_size hs.nodes)
  by_cases hc : c ∈ cs
  · have hposition := position_of_mem_children hs₀ hs hcs hc hold
    unfold NothingToHand
    rw [handed, hposition, hcontainer]
    unfold handed
    cases he : s₀.isExpression c with
    | false => rfl
    | true =>
      simp only [if_true]
      -- handed down just now, or by another container, which only takes away what is missing
      rcases h with rfl | hnothing
      · exact Position.completed_twice ..
      · rw [NothingToHand, handed, he, if_pos rfl] at hnothing
        exact Position.completed_stays hnothing _
  · rcases h with rfl | hnothing
    · exact absurd ((mem_children_iff hs₀ hs hcs hold).mpr hmc) hc
    · have hchild : t.node c = s.node c :=
        node_children_of_not_mem hcs hc (Nat.lt_of_lt_of_le hold hs.nodes)
      rw [NothingToHand, handed, hchild, hcontainer]
      exact hnothing

end Store

open Store

variable {s t u s₀ : Store} {root n c : NodeId} {policy : ParentPolicy}
  {stack left : List NodeId} {visits : List (Value × Store)}

/-- Along a tour whatever was visited is on the stack again or has nothing to hand down. -/
theorem Walk.Tour.nothingToHand (h : Tour policy stack s visits left u) (hs₀ : s₀.Closed)
    (hs : s₀.Extends s) (hc : s₀.Leads n c) (hn : ∃ v, (.node n, v) ∈ visits) :
    n ∈ left ∨ NothingToHand s₀ u n c := by
  let P (before : List (Value × Store)) (stack : List NodeId) (u : Store) : Prop :=
    s₀.Extends u ∧ ((∃ v, (.node n, v) ∈ before) → n ∈ stack ∨ NothingToHand s₀ u n c)
  have hend : P ([] ++ visits) left u := by
    refine h.keeps (P := P) ?_ [] ⟨hs, fun ⟨_, hv⟩ => absurd hv (by simp)⟩
    rintro before m rest s cs t ⟨hs, hbefore⟩ hcs
    refine ⟨extends_of_children hs hcs, fun ⟨v, hv⟩ => ?_⟩
    by_cases hmem : n ∈ cs ++ rest
    · exact Or.inl hmem
    · -- not handed a location just now, and not to be visited again
      rw [List.mem_append, not_or] at hmem
      refine Or.inr (nothingToHand_children hs₀ hs hcs hmem.1 hc ?_)
      rcases List.mem_append.mp hv with hv | hv
      · rcases hbefore ⟨v, hv⟩ with hstack | hnothing
        · rcases List.mem_cons.mp hstack with hnm | hrest
          · exact Or.inl hnm
          · exact absurd hrest hmem.2
        · exact Or.inr hnothing
      · cases List.mem_singleton.mp hv
        exact Or.inl rfl
  exact hend.2 hn

/-- A tour that leaves nothing on the stack leaves no location that could be completed. -/
theorem Walk.Tour.atRest (h : Tour policy [root] s visits [] u) (hs : s.Closed) :
    s.AtRest root u := by
  rintro n c ⟨hn, hleads⟩
  rcases h.nothingToHand hs (.refl s) hleads (h.visits_below hs hn) with hleft | hnothing
  · exact absurd hleft (by simp)
  · exact hnothing

end SheetLint
