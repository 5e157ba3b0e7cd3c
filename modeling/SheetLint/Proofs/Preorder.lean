import SheetLint.Proofs.Below
import SheetLint.Tree.Walk

/-!
# The walk is the plain recursion

`Walk.fromStack` keeps the nodes still to visit on a stack. `Walk.preorder` is what it is meant to
be: visit a node, compute its children, then do the same with each of them in turn. The two agree in
everything: the nodes visited and the store at each visit, the log included, how they end, and the
store they leave (`walk_eq_preorder`).

The walk can be left after any number of visits, the recursion cannot. What a walk comes to that is
left early is the recursion cut off there (`Walk.cut`). The simulation is `fromStack_eq_resume`:
with a node on top of the stack the walk first does what the recursion does from that node, and then
goes on with the rest of the stack, unless it is left or failed before.

The recursion is cut off at a depth, which plays no part if nothing is below itself.
-/

namespace SheetLint

namespace Walk

/-- A walk that comes after these visits. -/
def after (visits : List (Value × Store)) (w : Walk) : Walk :=
  { w with visits := visits ++ w.visits }

/-- Walks from several nodes, one after the other, given how to walk from one. -/
def inTurn (walk : NodeId → Store → Walk) : List NodeId → Store → Walk
  | [], s => ⟨[], .done, s⟩
  | c :: cs, s =>
    let w := walk c s
    match w.finish with
    | .done => (inTurn walk cs w.store).after w.visits
    | _ => w

/-- Visits a node, then all below it, child by child, to a depth of `depth`. -/
def preorder (policy : ParentPolicy) : (depth : Nat) → NodeId → Store → Walk
  | 0, _, s => ⟨[], .limit, s⟩
  | d + 1, n, s =>
    match (Edit.children n policy).perform s with
    | (.error fault, s') => ⟨[(.node n, s)], .failed fault, s'⟩
    | (.ok cs, s') => (inTurn (preorder policy d) cs s').visiting (.node n) s

/-- A walk from the store `s` that is left after `limit` visits: whoever leaves it last saw the
store of the last visit. One that ends with fewer visits is not cut. -/
def cut (s : Store) (limit : Nat) (w : Walk) : Walk :=
  if limit ≤ w.visits.length then
    ⟨w.visits.take limit, .limit, (w.visits.take limit).getLast?.elim s (·.2)⟩
  else w

/-- A walk from the store `s` that is followed by another, where no more than `limit` nodes are
visited in all. -/
def resume (s : Store) (limit : Nat) (w : Walk) (next : Nat → Store → Walk) : Walk :=
  if limit ≤ w.visits.length then w.cut s limit
  else
    match w.finish with
    | .done => (next (limit - w.visits.length) w.store).after w.visits
    | _ => w

variable {policy : ParentPolicy}

/-! ## The simulation -/

/-- What precedes a walk does not matter for how it is resumed. -/
theorem after_resume (visits : List (Value × Store)) {limit : Nat} (hlimit : 0 < limit) (w : Walk)
    (s t : Store) (next : Nat → Store → Walk) :
    (w.resume t limit next).after visits =
      (w.after visits).resume s (visits.length + limit) next := by
  unfold resume
  have hlength : (w.after visits).visits.length = visits.length + w.visits.length := by
    simp [after]
  by_cases hle : limit ≤ w.visits.length
  · have hlast : w.visits.take limit ≠ [] := by
      intro hnil
      have := congrArg List.length hnil
      simp only [List.length_take, List.length_nil] at this
      omega
    rw [if_pos hle, if_pos (by omega), cut, if_pos hle, cut, if_pos (by omega)]
    simp only [after, List.take_append, List.take_of_length_le (Nat.le_add_right _ _),
      Nat.add_sub_cancel_left, List.getLast?_append]
    cases hl : (w.visits.take limit).getLast? with
    | none => exact absurd (List.getLast?_eq_none_iff.mp hl) hlast
    | some x => rfl
  · rw [if_neg hle, if_neg (by omega)]
    cases hf : w.finish with
    | done =>
      simp only [after, hf, List.length_append, List.append_assoc]
      rw [Nat.add_sub_add_left]
    | limit => simp only [after, hf]
    | failed fault => simp only [after, hf]

/-- The stack stands for the nodes that come in turn. -/
theorem fromStack_inTurn (rest : List NodeId) {walk : NodeId → Store → Walk}
    (hwalk : ∀ n rest s limit, (walk n s).finish ≠ .limit →
      fromStack policy limit (n :: rest) s =
        (walk n s).resume s limit fun k t => fromStack policy k rest t) :
    ∀ (cs : List NodeId) (s : Store) (limit : Nat), (inTurn walk cs s).finish ≠ .limit →
      fromStack policy limit (cs ++ rest) s =
        (inTurn walk cs s).resume s limit fun k t => fromStack policy k rest t
  | [], s, limit, _ => by
    cases limit with
    | zero => rfl
    | succ k =>
      rw [inTurn, resume, if_neg (by simp)]
      rfl
  | c :: cs, s, limit, hend => by
    rw [inTurn] at hend ⊢
    cases hf : (walk c s).finish with
    | limit =>
      simp only [hf] at hend
      exact absurd rfl hend
    | failed fault =>
      simp only
      rw [List.cons_append, hwalk c (cs ++ rest) s limit (by simp [hf]), resume, resume, hf]
    | done =>
      simp only [hf] at hend ⊢
      rw [List.cons_append, hwalk c (cs ++ rest) s limit (by simp [hf]), resume]
      by_cases hle : limit ≤ (walk c s).visits.length
      · rw [if_pos hle, resume, if_pos (by simp only [after, List.length_append]; omega), cut,
          if_pos hle, cut, if_pos (by simp only [after, List.length_append]; omega)]
        simp only [after, List.take_append_of_le_length hle]
      · rw [if_neg hle, hf]
        simp only
        rw [fromStack_inTurn rest hwalk cs (walk c s).store _ hend,
          after_resume _ (by omega) _ s, Nat.add_sub_cancel' (by omega)]

/-- With a node on top of the stack the walk does what the recursion does from that node, and then
goes on with the rest of the stack. -/
theorem fromStack_eq_resume : ∀ (d : Nat) (n : NodeId) (rest : List NodeId) (s : Store)
    (limit : Nat), (preorder policy d n s).finish ≠ .limit →
      fromStack policy limit (n :: rest) s =
        (preorder policy d n s).resume s limit fun k t => fromStack policy k rest t
  | 0, _, _, _, _, hend => absurd rfl hend
  | d + 1, n, rest, s, limit, hend => by
    rw [preorder] at hend ⊢
    cases hcs : (Edit.children n policy).perform s with
    | mk r t =>
      rw [hcs] at hend
      match limit with
      | 0 => cases r <;> rfl
      | 1 => cases r <;> simp [fromStack, resume, cut, visiting]
      | k + 2 =>
        rw [fromStack, hcs]
        cases r with
        | error fault =>
          simp only
          rw [resume, if_neg (by simp)]
        | ok cs =>
          simp only at hend ⊢
          have hrest := fromStack_inTurn rest (fromStack_eq_resume d) cs t (k + 1) hend
          rw [hrest]
          exact (after_resume [(.node n, s)] (Nat.succ_pos k) _ s t _).trans
            (by rw [Nat.add_comm]; rfl)

/-- With nothing else on the stack a walk that is not left ends where it is. -/
theorem resume_empty (s : Store) (limit : Nat) (w : Walk) :
    w.resume s limit (fun k t => fromStack policy k [] t) = w.cut s limit := by
  unfold resume
  by_cases hle : limit ≤ w.visits.length
  · rw [if_pos hle]
  · rw [if_neg hle, cut, if_neg hle]
    obtain ⟨visits, finish, store⟩ := w
    cases finish with
    | limit => rfl
    | failed fault => rfl
    | done =>
      obtain ⟨k, hk⟩ := Nat.exists_eq_add_of_lt (Nat.lt_of_not_le hle)
      have hleft : limit - visits.length = k + 1 := by
        rw [hk, Nat.add_assoc, Nat.add_sub_cancel_left]
      simp only [hleft, fromStack, after, List.append_nil]

/-! ## Depth -/

/-- Going deeper does not change a recursion that was not cut off. -/
theorem inTurn_congr {walk walk' : NodeId → Store → Walk}
    (hwalk : ∀ n s, (walk n s).finish ≠ .limit → walk' n s = walk n s) :
    ∀ (cs : List NodeId) (s : Store), (inTurn walk cs s).finish ≠ .limit →
      inTurn walk' cs s = inTurn walk cs s
  | [], _, _ => rfl
  | c :: cs, s, hend => by
    rw [inTurn] at hend ⊢
    rw [inTurn]
    have hc : (walk c s).finish ≠ .limit := by
      intro hlimit
      rw [hlimit] at hend
      exact hend hlimit
    rw [hwalk c s hc]
    cases hf : (walk c s).finish with
    | limit => exact absurd hf hc
    | failed fault => rfl
    | done =>
      simp only [hf] at hend ⊢
      rw [inTurn_congr hwalk cs _ hend]

/-- Where the recursion was deep enough, it comes to the same one step deeper. -/
theorem preorder_deeper : ∀ (d : Nat) (n : NodeId) (s : Store),
    (preorder policy d n s).finish ≠ .limit → preorder policy (d + 1) n s = preorder policy d n s
  | 0, _, _, hend => absurd rfl hend
  | d + 1, n, s, hend => by
    rw [preorder] at hend
    rw [preorder, preorder]
    cases hcs : (Edit.children n policy).perform s with
    | mk r t =>
      rw [hcs] at hend
      cases r with
      | error fault => rfl
      | ok cs =>
        simp only
        rw [inTurn_congr (preorder_deeper d) cs t hend]

theorem preorder_of_le {d d' : Nat} (hle : d ≤ d') {n : NodeId} {s : Store}
    (hend : (preorder policy d n s).finish ≠ .limit) :
    preorder policy d' n s = preorder policy d n s := by
  induction hle with
  | refl => rfl
  | step _ ih =>
    rw [preorder_deeper _ n s (by rw [ih]; exact hend), ih]

variable {s₀ : Store}

/-- Walks in turn are not cut off if none of them is, where each starts in a store that the one
before may leave. -/
theorem inTurn_ends {P : Store → Prop} {walk : NodeId → Store → Walk} : ∀ (cs : List NodeId)
    (s : Store), P s →
    (∀ c ∈ cs, ∀ t, P t → (walk c t).finish ≠ .limit ∧ P (walk c t).store) →
    (inTurn walk cs s).finish ≠ .limit ∧ P (inTurn walk cs s).store
  | [], _, hs, _ => ⟨by simp [inTurn], hs⟩
  | c :: cs, s, hs, hwalk => by
    obtain ⟨hend, hkept⟩ := hwalk c (List.mem_cons_self ..) s hs
    rw [inTurn]
    cases hf : (walk c s).finish with
    | limit => exact absurd hf hend
    | failed fault =>
      refine ⟨?_, hkept⟩
      simp [hf]
    | done => exact inTurn_ends cs _ hkept fun c' hc' => hwalk c' (List.mem_cons_of_mem _ hc')

/-- The recursion that does not go on below the nodes at which it stops: these are visited, but
their children are not computed. -/
def pruned (stops : Store → NodeId → Bool) (policy : ParentPolicy) :
    (depth : Nat) → NodeId → Store → Walk
  | 0, _, s => ⟨[], .limit, s⟩
  | d + 1, n, s =>
    if stops s n then ⟨[(.node n, s)], .done, s⟩
    else
      match (Edit.children n policy).perform s with
      | (.error fault, s') => ⟨[(.node n, s)], .failed fault, s'⟩
      | (.ok cs, s') => (inTurn (pruned stops policy d) cs s').visiting (.node n) s

/-- A recursion that stops nowhere is the plain one. -/
theorem pruned_never : ∀ d, pruned (fun _ _ => false) policy d = preorder policy d
  | 0 => rfl
  | d + 1 => by
    funext n s
    rw [pruned, preorder, pruned_never d]
    rfl

/-- The recursion is not cut off if it may go down one step further than the ways down are long:
variables that are made have nothing below them. -/
theorem pruned_ends (stops : Store → NodeId → Bool) (policy : ParentPolicy) (hs₀ : s₀.Closed) :
    ∀ (d : Nat) (n : NodeId) (s : Store), s₀.Extends s → s₀.EndsWithin d n ∨ s₀.nodes.size ≤ n →
      (pruned stops policy (d + 1) n s).finish ≠ .limit ∧
        s₀.Extends (pruned stops policy (d + 1) n s).store
  | d, n, s, hs, hn => by
    have hext := Store.children_extends hs n policy
    rw [pruned]
    split
    · exact ⟨by simp, hs⟩
    cases hcs : (Edit.children n policy).perform s with
    | mk r t =>
      rw [hcs] at hext
      cases r with
      | error fault => exact ⟨by simp, hext⟩
      | ok cs =>
        refine inTurn_ends (P := s₀.Extends) cs t hext fun c hc u hu => ?_
        match d, hn with
        | d, Or.inr hnew =>
          rw [Store.children_of_new hs hnew hcs] at hc
          exact absurd hc (by simp)
        | d + 1, Or.inl hends =>
          refine pruned_ends stops policy hs₀ d c u hu ?_
          rcases Store.child_leads hs₀ hs hcs hc with hled | hnew
          · exact Or.inl (hends c hled)
          · exact Or.inr hnew

theorem preorder_ends (policy : ParentPolicy) (hs₀ : s₀.Closed) (d : Nat) (n : NodeId) (s : Store)
    (hs : s₀.Extends s) (hn : s₀.EndsWithin d n ∨ s₀.nodes.size ≤ n) :
    (preorder policy (d + 1) n s).finish ≠ .limit ∧
      s₀.Extends (preorder policy (d + 1) n s).store := by
  rw [← pruned_never]
  exact pruned_ends _ policy hs₀ d n s hs hn

/-- A walk is the recursion from its root, cut off where the walk was left, if the recursion is not
cut off by its depth. -/
theorem start_eq_cut {d : Nat} {root : NodeId} {s : Store}
    (hend : (preorder policy d root s).finish ≠ .limit) (limit : Nat) :
    start policy limit (.node root) s = (preorder policy d root s).cut s limit := by
  rw [start, fromStack_eq_resume d root [] s limit hend, resume_empty]

/-- Without a cycle there is a walk that every other one is cut from. -/
theorem exists_whole (policy : ParentPolicy) {s : Store} (hs : s.Closed) {root : NodeId}
    (hacyclic : s.AcyclicFrom root) :
    ∃ w : Walk, w.finish ≠ .limit ∧
      ∀ limit, start policy limit (.node root) s = w.cut s limit := by
  have hends := Store.endsWithin_of_acyclic hs hacyclic
  obtain ⟨hend, _⟩ := preorder_ends policy hs _ root s (.refl s) (Or.inl hends)
  exact ⟨_, hend, start_eq_cut hend⟩

end Walk

/-- A walk from a node below which nothing is below itself is the plain recursion from that node,
cut off where the walk was left: the same visits, each in the same store, the same end and the same
store afterwards, with all locations, parents and messages in it. The recursion comes to an end by
itself, so a walk that is not left does so too. -/
theorem walk_eq_preorder {s : Store} (hs : s.Closed) {root : NodeId}
    (hacyclic : s.AcyclicFrom root) (policy : ParentPolicy) :
    ∃ w : Walk, w.finish ≠ .limit ∧
      (∀ depth, s.nodes.size + 2 ≤ depth → Walk.preorder policy depth root s = w) ∧
      ∀ limit, Walk.start policy limit (.node root) s = w.cut s limit := by
  have hends := Store.endsWithin_of_acyclic hs hacyclic
  obtain ⟨hend, _⟩ := Walk.preorder_ends policy hs _ root s (.refl s) (Or.inl hends)
  exact ⟨_, hend, fun depth hdepth => Walk.preorder_of_le hdepth hend, Walk.start_eq_cut hend⟩

/-- A loop with a variable to be made, over an expression that is also the value of a property
below it. -/
def sharedSheet : Store where
  nodes := #[
    some { position := { line := .int 1 }
           form := .statement (.list 0) (.each (.list 1) (.node 2)) },
    some { position := { line := .int 2 }
           form := .statement (.list 2) (.prop (.list 2) (.node 2)) },
    some { position := { column := .int 4 }
           form := .expression (.variable (.text "colors")) }]
  lists := #[[.node 1], [.text "color"], []]

/-- Under the strict policy the shared expression is refused the second time. -/
theorem walk_eq_preorder_shared :
    sharedSheet.Closed ∧ sharedSheet.AcyclicFrom 0 ∧
      ∃ w : Walk, w.finish ≠ .limit ∧
        (∀ depth, 5 ≤ depth → Walk.preorder .strict depth 0 sharedSheet = w) ∧
        ∀ limit, Walk.start .strict limit (.node 0) sharedSheet = w.cut sharedSheet limit := by
  have hclosed : sharedSheet.Closed := by decide
  have hacyclic : sharedSheet.AcyclicFrom 0 :=
    Store.acyclicFrom_of_rank (fun n => [2, 1, 0].getD n 0) (by decide) 0
  exact ⟨hclosed, hacyclic, walk_eq_preorder hclosed hacyclic .strict⟩

end SheetLint
