import SheetLint.Proofs.Rewalks

/-!
# The walk that stops

A walk that does not go on below some nodes (`Walk.pruned`) visits what the table of children lists:
a node, then what is listed below each of its children in turn, cut below every occurrence of a node
at which it stops (`Store.expansion`). A name in the table stands for a variable that is made for it
during the walk (`Store.Shows`).

Where the document is well formed and parents are replaced without asking, nothing is in the way of
that, and the walk comes to its end (`Walk.pruned_expands`).
-/

namespace SheetLint

namespace Store

/-- What is listed below a child in preorder, the child first, cut below the nodes at which it
stops. The depth plays no part if it is great enough. -/
def expansion (s : Store) (stop : NodeId → Bool) : (depth : Nat) → Kid → List Kid
  | 0, _ => []
  | _ + 1, .variable name => [.variable name]
  | d + 1, .node n =>
    .node n :: if stop n then [] else ((s.kids n).getD []).flatMap (s.expansion stop d)

/-- Whether a value that is visited is the child that is listed: the node itself, or a new variable
of the name. -/
def Shows (s₀ : Store) (visit : Value × Store) : Kid → Prop
  | .node n => visit.1 = .node n
  | .variable name => ∃ n, visit.1 = .node n ∧ s₀.nodes.size ≤ n ∧
      (visit.2.node n).form = .expression (.variable name)

/-- A node below the root, or a new variable of the name. -/
def Stands (s₀ : Store) (root : NodeId) (s : Store) (n : NodeId) : Kid → Prop
  | .node m => n = m ∧ s₀.Below root n
  | .variable name => s₀.nodes.size ≤ n ∧ (s.node n).form = .expression (.variable name)

variable {s₀ s t : Store} {root n : NodeId} {k : Kid} {policy : ParentPolicy}

namespace Stands

theorem shows_ : ∀ {k : Kid}, s₀.Stands root s n k → s₀.Shows (.node n, s) k
  | .node _, h => congrArg Value.node h.1
  | .variable _, h => ⟨n, rfl, h.1, h.2⟩

theorem met : ∀ {k : Kid}, s₀.Stands root s n k → s₀.Below root n ∨ s₀.nodes.size ≤ n
  | .node _, h => Or.inl (h.1 ▸ h.2)
  | .variable _, h => Or.inr h.1

theorem lt_size (hs₀ : s₀.WellFormed root) (hs : s₀.Extends s) :
    ∀ {k : Kid}, s₀.Stands root s n k → n < s.nodes.size
  | .node _, h => Nat.lt_of_lt_of_le (h.2.lt_size hs₀.closed hs₀.there) hs.nodes
  | .variable _, h => by
    refine Nat.lt_of_not_le fun hn => ?_
    have hform := h.2
    rw [node_of_size_le hn] at hform
    exact absurd hform (by simp)

theorem later (hs₀ : s₀.WellFormed root) (hs : s₀.Extends s) (ht : s.Extends t) :
    ∀ {k : Kid}, s₀.Stands root s n k → s₀.Stands root t n k
  | .node _, h => h
  | .variable _, h => ⟨h.1, (ht.form n (lt_size hs₀ hs h)).trans h.2⟩

end Stands

/-- The children of a node stand for what it lists, and the ways down from them are shorter. -/
theorem stands_children (hs₀ : s₀.WellFormed root) (hs : s₀.Extends s) (hn : s₀.Below root n)
    {d : Nat} (hends : s₀.EndsWithin (d + 1) n) {cs : List NodeId}
    (hcs : (Edit.children n policy).perform s = (.ok cs, t)) : ∃ ks, s₀.kids n = some ks ∧
      List.Forall₂ (fun c k => s₀.Stands root t c k ∧ (s₀.EndsWithin d c ∨ s₀.nodes.size ≤ c))
        cs ks := by
  have hold := hn.lt_size hs₀.closed hs₀.there
  obtain ⟨ks, hks, rfl, hmade⟩ := made_of_children (Nat.lt_of_lt_of_le hold hs.nodes) hcs
  rw [kids_extends hs₀.closed hs hold] at hks
  refine ⟨ks, hks, Kid.forall₂_places (fun c hc => ?_) fun k name hk => ?_⟩
  · have hleads : s₀.Leads n c := ⟨ks, hks, hc⟩
    exact ⟨⟨rfl, hn.tail hleads⟩, Or.inl (hends c hleads)⟩
  · have hnew : s₀.nodes.size ≤ s.nodes.size + k := Nat.le_trans hs.nodes (Nat.le_add_right ..)
    exact ⟨⟨hnew, (hmade k name hk).form⟩, Or.inr hnew⟩

end Store

namespace Walk

open Store

/-- Any node is fit to be referred to: a refreshing walk takes children over from wherever. -/
abbrev Refreshing (s₀ : Store) (root : NodeId) (s : Store) : Prop :=
  Attaching (fun _ _ => True) s₀ root s

/-- A walk that began in `s` came to its end and visited what is listed. -/
structure Expands (s₀ : Store) (root : NodeId) (s : Store) (w : Walk) (ks : List Kid) : Prop where
  done : w.finish = .done
  refreshing : Refreshing s₀ root w.store
  later : s.Extends w.store
  visits : List.Forall₂ s₀.Shows w.visits ks

variable {s₀ s : Store} {root : NodeId}

/-- Walks in turn visit one after the other what each of them does. -/
theorem inTurn_expands {Q : Store → NodeId → Kid → Prop} {walk : NodeId → Store → Walk}
    {expand : Kid → List Kid}
    (hlater : ∀ s t c k, Refreshing s₀ root s → Q s c k → s.Extends t → Q t c k)
    (hwalk : ∀ s c k, Refreshing s₀ root s → Q s c k → Expands s₀ root s (walk c s) (expand k)) :
    ∀ {cs : List NodeId} {ks : List Kid} {s : Store}, Refreshing s₀ root s →
      List.Forall₂ (Q s) cs ks → Expands s₀ root s (inTurn walk cs s) (ks.flatMap expand)
  | [], _, s, hs, .nil => ⟨rfl, hs, .refl s, .nil⟩
  | c :: cs, k :: ks, s, hs, .cons hc hcs => by
    have hfirst := hwalk s c k hs hc
    have hrest := inTurn_expands hlater hwalk hfirst.refreshing
      (hcs.imp fun c' k' h => hlater s _ c' k' hs h hfirst.later)
    rw [inTurn, hfirst.done]
    exact ⟨hrest.done, hrest.refreshing, hfirst.later.trans hrest.later,
      List.rel_append hfirst.visits hrest.visits⟩

/-- A refreshing walk that stops where the kinds of nodes say so visits what is listed. -/
theorem pruned_expands (hs₀ : s₀.WellFormed root) (htop : ∀ n, ¬s₀.Contains root n root)
    {stops : Store → NodeId → Bool} {stop : NodeId → Bool}
    (hstop : ∀ s n, s₀.Intact s → s₀.Below root n → stops s n = stop n) :
    ∀ (d e : Nat) (n : NodeId) (k : Kid) (s : Store), d ≤ e → Refreshing s₀ root s →
      s₀.Stands root s n k → s₀.EndsWithin d n ∨ s₀.nodes.size ≤ n →
        Expands s₀ root s (pruned stops .refresh (d + 1) n s) (s₀.expansion stop (e + 1) k)
  | d, e, n, k, s, hde, hs, hn, hends => by
    have hext := hs.intact.extends_
    have hvisit : List.Forall₂ s₀.Shows [(.node n, s)] [k] := .cons hn.shows_ .nil
    have hkept := hs.children hs₀ htop (fun _ _ _ => trivial) hn.met .refresh
    have hlater := children_extends (.refl s) n .refresh
    rw [pruned]
    split
    case isTrue hstops =>
      refine ⟨rfl, hs, .refl s, ?_⟩
      rcases k with m | name
      · obtain ⟨rfl, hbelow⟩ := hn
        rw [hstop s n hs.intact hbelow] at hstops
        rw [expansion, if_pos hstops]
        exact hvisit
      · exact hvisit
    case isFalse hgoes =>
      cases hcs : (Edit.children n .refresh).perform s with
      | mk r t =>
        rw [hcs] at hkept hlater
        cases r with
        | error fault =>
          obtain ⟨hpolicy, _⟩ := hs.children_fails hs₀ htop (fun _ _ _ => trivial) hn.met hcs
          exact absurd hpolicy (by simp)
        | ok cs =>
          rcases k with m | name
          · obtain ⟨rfl, hbelow⟩ := hn
            have hends := hends.resolve_right
              (Nat.not_le.mpr (hbelow.lt_size hs₀.closed hs₀.there))
            obtain ⟨d, rfl⟩ : ∃ d', d = d' + 1 := by
              cases d with
              | zero => exact hends.elim
              | succ d => exact ⟨d, rfl⟩
            obtain ⟨e, rfl⟩ : ∃ e', e = e' + 1 := ⟨e - 1, by omega⟩
            -- a child stands for what is listed while its siblings are walked, so one list of
            -- children will do for all of them
            obtain ⟨ks, hks, hstands⟩ := stands_children hs₀ hext hbelow hends hcs
            have hrest : Expands s₀ root t (inTurn (pruned stops .refresh (d + 1)) cs t)
                (ks.flatMap (s₀.expansion stop (e + 1))) :=
              inTurn_expands
                (Q := fun s c k => s₀.Stands root s c k ∧ (s₀.EndsWithin d c ∨ s₀.nodes.size ≤ c))
                (fun s t c k hs h ht => ⟨.later hs₀ hs.intact.extends_ ht h.1, h.2⟩)
                (fun s c k hs h => pruned_expands hs₀ htop hstop d e c k s
                  (Nat.le_of_succ_le_succ hde) hs h.1 h.2) hkept hstands
            rw [hstop s n hs.intact hbelow] at hgoes
            rw [expansion, if_neg hgoes, hks]
            exact ⟨hrest.done, hrest.refreshing, hlater.trans hrest.later, .cons rfl hrest.visits⟩
          · -- nothing is below a variable that was made on the way
            obtain rfl := children_of_new hext hn.1 hcs
            exact ⟨rfl, hkept, hlater, hvisit⟩
  termination_by d => d

end Walk

end SheetLint
