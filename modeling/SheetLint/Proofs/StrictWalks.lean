import SheetLint.Proofs.Attaching
import SheetLint.Proofs.Lines
import SheetLint.Proofs.Parents

/-!
# Strict walks

Under the strict policy a reference to a parent is for good: a walk that would have to change one
fails. A walk from a root below which nothing has a parent yet therefore tells whether anything
below it is a child of two nodes (`strict_walk_decides`).

The walk keeps no record of what it visited, and there may be cycles. Still it comes to an end.
While it goes down, the node it is at refers to the one it came from, that one to the one before,
and so on up to the root, which refers to nothing. Such a lineage repeats nothing (`Lineage.nodup`),
so it is no longer than there are nodes.
-/

namespace SheetLint

namespace Store

variable {s t u s₀ : Store} {root n m c : NodeId} {cs : List NodeId} {ns ms path : List NodeId}
  {fault : Fault}

/-! ## References are for good -/

/-- Whoever refers to a parent in one store does so in the other. -/
def Steady (s t : Store) : Prop :=
  ∀ c v, (s.node c).parent = .to v → (t.node c).parent = .to v

theorem Steady.refl (s : Store) : s.Steady s := fun _ _ h => h

theorem Steady.trans (h : s.Steady t) (h' : t.Steady u) : s.Steady u :=
  fun c v hv => h' c v (h c v hv)

/-- What has a parent has a place. -/
theorem lt_size_of_parent {v : Value} (h : (s.node c).parent = .to v) : c < s.nodes.size := by
  rcases Nat.lt_or_ge c s.nodes.size with hc | hc
  · exact hc
  · rw [node_of_size_le hc] at h
    exact absurd h (by simp)

/-- A parent is written under the strict policy only where there is none. -/
theorem Steady.attach (h : s.Steady t) (ha : t.attach (.node c) (.node n) .strict = .ok u) :
    s.Steady u := by
  rcases attach_inv ha with ⟨_, rfl⟩ | ⟨hnone, rfl⟩ | ⟨_, _, _, _, hpolicy, _⟩
  · exact h
  · -- the child that is attached had no parent, so it is not one of those that keep theirs
    intro d v hv
    have ht := h d v hv
    rw [node_setParent]
    split
    · rename_i hd
      rw [parent?_eq_none, hd.1, ht] at hnone
      rcases hnone with hnone | hnone <;> exact absurd hnone (by simp)
    · exact ht
  · exact absurd hpolicy (by simp)

/-- Computing children under the strict policy takes no parent away. -/
theorem Steady.children (h : s.Steady t) (n : NodeId) :
    s.Steady ((Edit.children n .strict).perform t).2 := by
  refine Edit.children_preserves s.Steady (fun _ => True) ?_ ?_ ?_ h (fun _ _ => trivial)
  · intro u c hu _ d v hv
    rw [parent_fill]
    exact hu d v hv
  · intro u name hu d v hv
    have hd := hu d v hv
    rw [node_addVariable (lt_size_of_parent hd)]
    exact hd
  · exact fun _ _ _ hu _ ha => hu.attach ha

/-! ## Lineages -/

/-- A row of nodes, each of which refers to the next, up to the root, which refers to none. -/
inductive Lineage (s : Store) (root : NodeId) : List NodeId → Prop where
  | top : s.parent? root = .ok none → s.Lineage root [root]
  | child {c n : NodeId} {path : List NodeId} : (s.node c).parent = .to (.node n) →
      s.Lineage root (n :: path) → s.Lineage root (c :: n :: path)

namespace Lineage

/-- Whom a node descends from is settled by the node. -/
theorem unique (h : s.Lineage root ns) :
    ∀ {ms}, s.Lineage root ms → ns.head? = ms.head? → ns = ms := by
  induction h with
  | top hfree =>
    intro ms hms hhead
    cases hms with
    | top _ => rfl
    | child hparent _ =>
      -- a row that begins with the root ends there, for the root refers to nothing
      obtain rfl : root = _ := Option.some.inj hhead
      rw [parent?_eq_none, hparent] at hfree
      rcases hfree with hfree | hfree <;> exact absurd hfree (by simp)
  | child hparent _ ih =>
    intro ms hms hhead
    cases hms with
    | top hfree =>
      obtain rfl : _ = root := Option.some.inj hhead
      rw [parent?_eq_none, hparent] at hfree
      rcases hfree with hfree | hfree <;> exact absurd hfree (by simp)
    | child hparent' hms =>
      obtain rfl := Option.some.inj hhead
      rw [hparent] at hparent'
      cases hparent'
      rw [ih hms rfl]

/-- The part of a lineage from one of its nodes on is the lineage of that node. -/
theorem of_suffix (h : s.Lineage root ns) (hsuffix : (c :: path) <:+ ns) :
    s.Lineage root (c :: path) := by
  induction h with
  | top hfree =>
    rcases List.suffix_cons_iff.mp hsuffix with he | hnil
    · rw [he]
      exact .top hfree
    · exact absurd (List.suffix_nil.mp hnil) (by simp)
  | child hparent hrest ih =>
    rcases List.suffix_cons_iff.mp hsuffix with he | hrest'
    · rw [he]
      exact .child hparent hrest
    · exact ih hrest'

/-- Nobody is his own ancestor: from there on the row would be the whole row again. -/
theorem nodup (h : s.Lineage root ns) : ns.Nodup := by
  induction h with
  | top _ => simp
  | @child c n path hparent hrest ih =>
    refine List.nodup_cons.mpr ⟨fun hmem => ?_, ih⟩
    obtain ⟨before, after, hsplit⟩ := List.append_of_mem hmem
    have hagain := hrest.of_suffix ⟨before, hsplit.symm⟩
    have hsame := hagain.unique (.child hparent hrest) rfl
    have hlength := congrArg List.length hsplit
    rw [List.length_append, hsame] at hlength
    simp only [List.length_cons] at hlength
    omega

theorem steady (h : s.Lineage root ns) (hst : s.Steady t) (hroot : t.parent? root = .ok none) :
    t.Lineage root ns := by
  induction h with
  | top _ => exact .top hroot
  | child hparent _ ih => exact .child (hst _ _ hparent) ih

end Lineage

end Store

/-! ## Tours -/

namespace Walk

open Store

variable {s t u s₀ : Store} {root n c : NodeId} {stack left : List NodeId}
  {visits : List (Value × Store)}

theorem Tour.steady (h : Tour .strict stack s visits left u) : s.Steady u := by
  refine h.keeps (P := fun _ _ t => s.Steady t) (fun {_ n _ t cs v} ht hcs => ?_) [] (.refl s)
  have hv := ht.children n
  rwa [hcs] at hv

/-- Whoever was given by a visit refers to it for good. -/
theorem Tour.parent_of_gives (h : Tour .strict stack s visits left u) (hs₀ : s₀.Closed)
    (hs : s₀.Extends s) :
    ∀ e ∈ visits, e.2.gives .strict e.1 c = true → (u.node c).parent = .to e.1 := by
  induction h with
  | rest => simp
  | @step n rest cs left s t u visits hcs htour ih =>
    intro e he hgives
    rcases List.mem_cons.mp he with rfl | he
    · have hmem := (Store.gives_iff hcs).mp hgives
      exact htour.steady c _ (Store.parent_of_mem_children hs₀ hs hcs hmem)
    · exact ih (Store.extends_of_children hs hcs) e he hgives

/-! ## The end of a walk -/

/-- Going down from a node ends before the lineage is longer than there are nodes. -/
theorem preorder_strict_ends (hs₀ : s₀.WellFormed root) (htop : ∀ n, ¬s₀.Contains root n root)
    (hfree : s₀.parent? root = .ok none) : ∀ (d : Nat) (n : NodeId) (s : Store),
      Attaching (s₀.Contains root) s₀ root s →
      (∃ path, s.Lineage root (n :: path) ∧ s₀.Below root n ∧
          (∀ m ∈ n :: path, m < s₀.nodes.size) ∧ s₀.nodes.size < d + (n :: path).length) ∨
        s₀.nodes.size ≤ n →
      (preorder .strict (d + 1) n s).finish ≠ .limit ∧
        Attaching (s₀.Contains root) s₀ root (preorder .strict (d + 1) n s).store ∧
        s.Steady (preorder .strict (d + 1) n s).store
  -- the induction is on the depth that is left; the lineage grows by one node where it shrinks
  | d, n, s, hs, hn => by
    have hbelow : s₀.Below root n ∨ s₀.nodes.size ≤ n := by
      rcases hn with ⟨_, _, hbelow, _⟩ | hnew
      · exact Or.inl hbelow
      · exact Or.inr hnew
    have ht := hs.children hs₀ htop (fun _ _ h => h) hbelow .strict
    have hsteady := (Steady.refl s).children n
    rw [preorder]
    cases hcs : (Edit.children n .strict).perform s with
    | mk r t =>
      rw [hcs] at ht hsteady
      cases r with
      | error fault => exact ⟨by simp, ht, hsteady⟩
      | ok cs =>
        suffices hturn : (inTurn (preorder .strict d) cs t).finish ≠ .limit ∧
            Attaching (s₀.Contains root) s₀ root (inTurn (preorder .strict d) cs t).store ∧
              t.Steady (inTurn (preorder .strict d) cs t).store by
          exact ⟨hturn.1, hturn.2.1, hsteady.trans hturn.2.2⟩
        refine inTurn_ends (P := fun u => Attaching (s₀.Contains root) s₀ root u ∧ t.Steady u) cs t
          ⟨ht, .refl t⟩ ?_
        rintro c hc u ⟨hu, htu⟩
        rcases hn with ⟨path, hline, hbelow, hsizes, hlong⟩ | hnew
        case inr =>
          rw [Store.children_of_new hs.intact.extends_ hnew hcs] at hc
          exact absurd hc (by simp)
        cases d with
        | zero =>
          -- the lineage is as long as it can be, and would still have to be longer
          have hsub : n :: path ⊆ List.range s₀.nodes.size := by
            intro m hm
            exact List.mem_range.mpr (hsizes m hm)
          have hle := hline.nodup.length_le_of_subset hsub
          rw [List.length_range] at hle
          omega
        | succ d =>
          suffices hnext : (preorder .strict (d + 1) c u).finish ≠ .limit ∧
              Attaching (s₀.Contains root) s₀ root (preorder .strict (d + 1) c u).store ∧
                u.Steady (preorder .strict (d + 1) c u).store by
            exact ⟨hnext.1, hnext.2.1, htu.trans hnext.2.2⟩
          refine preorder_strict_ends hs₀ htop hfree d c u hu ?_
          rcases Store.child_leads hs₀.closed hs.intact.extends_ hcs hc with hleads | hnew
          · have hparent :=
              Store.parent_of_mem_children hs₀.closed hs.intact.extends_ hcs hc
            refine Or.inl ⟨n :: path, ?_, hbelow.tail hleads, fun m hm => ?_, ?_⟩
            · -- the siblings before the child have undone no reference
              have hroot := (parent?_congr hu.top).mpr hfree
              exact .child (htu c _ hparent) (hline.steady (hsteady.trans htu) hroot)
            · rcases List.mem_cons.mp hm with rfl | hm
              · exact hleads.lt_size hs₀.closed
              · exact hsizes m hm
            · rw [List.length_cons]
              omega
          · exact Or.inr hnew

/-- Where a strict walk fails something is a child of two nodes. -/
theorem strict_failed (hs : s.WellFormed root) (htop : ∀ n, ¬s.Contains root n root)
    (hattaching : Attaching (s.Contains root) s root s) {limit : Nat} {fault : Fault}
    (hfault : (fromStack .strict limit [root] s).finish = .failed fault) :
    fault.isMalformed = true ∧ s.SharesBelow root := by
  obtain ⟨before, n, rest, u, t, htour, hfail⟩ := tour_of_failed hfault
  have hstack := Tour.mem_root s root
  have hu := hattaching.tour hs htop (fun _ _ h => h) htour hstack
  have hn := (htour.met_below hs.closed (.refl s) hstack).2 n (List.mem_cons_self ..)
  obtain ⟨-, ⟨kind, line, parentKind, parentLine, rfl⟩, c, hnc, m, hmc, hne⟩ :=
    hu.children_fails hs htop (fun _ _ h => h) hn hfail
  exact ⟨rfl, m, n, c, hne, hmc, hnc⟩

/-- Where a strict walk is done every container of a node was visited and is what the node refers
to. -/
theorem strict_parent (hs : s.Closed) (htour : Tour .strict [root] s visits [] u)
    (hc : s.Contains root n c) : u.parent? c = .ok (some (.node n)) := by
  obtain ⟨hn, hleads⟩ := hc
  obtain ⟨v, hv⟩ := htour.visits_below hs hn
  have hgives := (htour.gives_iff_leads hs (.refl s) hv (hleads.lt_size hs)).mpr hleads
  exact parent?_eq_some.mpr (htour.parent_of_gives hs (.refl s) _ hv hgives)

/-- So no node has two. -/
theorem strict_unshared (hs : s.Closed) (htour : Tour .strict [root] s visits [] u) :
    ¬s.SharesBelow root := by
  rintro ⟨m, n, c, hne, hm, hn⟩
  have hboth := (strict_parent hs htour hm).symm.trans (strict_parent hs htour hn)
  cases hboth
  exact hne rfl

end Walk

open Store

/-- A strict walk from a root below which nothing has a parent, and which is no child of anything
below it, comes to an end whatever else is shared or cyclic. It fails, with a malformed tree,
exactly where something is a child of two different nodes. Where it does not, every node below the
root ends up attached to the one node that it is a child of. -/
theorem strict_walk_decides {s : Store} {root : NodeId} (hs : s.WellFormed root)
    (hfree : ∀ n, s.Below root n → s.parent? n = .ok none)
    (htop : ∀ n, ¬s.Contains root n root) :
    ∃ w : Walk, (∀ limit, Walk.start .strict limit (.node root) s = w.cut s limit) ∧
      (w.finish = .done ∨ ∃ fault, w.finish = .failed fault ∧ fault.isMalformed = true) ∧
      ((∃ fault, w.finish = .failed fault ∧ fault.isMalformed = true) ↔ s.SharesBelow root) ∧
      (w.finish = .done → ∀ c, s.Below root c → c ≠ root →
        ∃ n, s.Contains root n c ∧ (∀ m, s.Contains root m c → m = n) ∧
          w.store.parent? c = .ok (some (.node n))) := by
  have hattaching : Attaching (s.Contains root) s root s :=
    ⟨.refl hs, rfl, fun n c hc => Or.inl (hfree c hc.below)⟩
  obtain ⟨hend, -, -⟩ := Walk.preorder_strict_ends hs htop (hfree root .refl) s.nodes.size root s
    hattaching (Or.inl ⟨[], .top (hfree root .refl), .refl, fun m hm => by
      rw [List.mem_singleton.mp hm]
      exact hs.there, Nat.lt_succ_self _⟩)
  have hcut := Walk.start_eq_cut hend
  generalize Walk.preorder .strict (s.nodes.size + 1) root s = w at hend hcut
  have hfailed : ∀ fault, w.finish = .failed fault →
      fault.isMalformed = true ∧ s.SharesBelow root := by
    intro fault hfault
    rw [← Walk.fromStack_whole hcut] at hfault
    exact Walk.strict_failed hs htop hattaching hfault
  refine ⟨w, hcut, ?_, ⟨?_, fun hshares => ?_⟩, fun hdone c hc hne => ?_⟩
  · cases hf : w.finish with
    | done => exact Or.inl rfl
    | limit => exact absurd hf hend
    | failed fault => exact Or.inr ⟨fault, rfl, (hfailed fault hf).1⟩
  · rintro ⟨fault, hfault, _⟩
    exact (hfailed fault hfault).2
  · cases hf : w.finish with
    | done => exact absurd hshares (Walk.strict_unshared hs.closed (Walk.tour_of_whole hcut hf))
    | limit => exact absurd hf hend
    | failed fault => exact ⟨fault, rfl, (hfailed fault hf).1⟩
  · have htour := Walk.tour_of_whole hcut hdone
    obtain ⟨n, hn⟩ := hc.exists_container hne
    exact ⟨n, hn, fun m hm => hm.unique (Walk.strict_unshared hs.closed htour) hn,
      Walk.strict_parent hs.closed htour hn⟩

/-- The list that contains itself is also what the loop goes over. -/
theorem strict_walk_decides_cyclic :
    cyclicSheet.WellFormed 0 ∧
      (∀ n, cyclicSheet.Below 0 n → cyclicSheet.parent? n = .ok none) ∧
      (∀ n, ¬cyclicSheet.Contains 0 n 0) ∧
      cyclicSheet.SharesBelow 0 ∧
      ∃ w : Walk, (∀ limit, Walk.start .strict limit (.node 0) cyclicSheet =
          w.cut cyclicSheet limit) ∧
        ∃ fault, w.finish = .failed fault ∧ fault.isMalformed = true := by
  have hclosed : cyclicSheet.Closed := by decide
  have hwell : cyclicSheet.WellFormed 0 :=
    wellFormed_of_nodes hclosed rfl (by decide) (by decide)
  have hfree : ∀ n, cyclicSheet.Below 0 n → cyclicSheet.parent? n = .ok none := by
    intro n hn
    have hsize : n < 4 := hn.lt_size hclosed hwell.there
    match n, hsize with
    | 0, _ | 1, _ | 2, _ | 3, _ => rfl
  have htop : ∀ n, ¬cyclicSheet.Contains 0 n 0 := by
    have hall : ∀ n < cyclicSheet.nodes.size, 0 ∉ cyclicSheet.offspring n := by decide
    rintro n ⟨_, hleads⟩
    exact hall n hleads.self_lt_size (leads_iff_offspring.mp hleads)
  have hshares : cyclicSheet.SharesBelow 0 := by
    have hlist : cyclicSheet.Leads 0 2 := leads_iff_offspring.mpr (by decide)
    have hself : cyclicSheet.Leads 2 2 := leads_iff_offspring.mpr (by decide)
    exact ⟨0, 2, 2, by decide, ⟨.refl, hlist⟩, .single hlist, hself⟩
  obtain ⟨w, hcut, -, hiff, -⟩ := strict_walk_decides hwell hfree htop
  exact ⟨hwell, hfree, htop, hshares, w, hcut, hiff.mpr hshares⟩

end SheetLint
