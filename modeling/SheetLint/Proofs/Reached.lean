import SheetLint.Proofs.Places

/-!
# What is kept

`Store.reach` searches what some values lead to, for as many steps as there are things to be found
in all places. `Store.Reached` is what it looks for: what the values name, what that holds, and so
on. The search finds exactly this (`mem_reach`). It is sound because nothing else is ever put before
it (`Search.run_sound`). It is complete because it does not run out of steps: each step takes
something from what is pending, and what it puts there comes from a place that was not looked into
before (`Search.effort_step`).

So a collection clears what the values in use do not lead to, and nothing else. What is let go
between two collections is nothing that they lead to (`not_reached_of_leaves`).
-/

namespace SheetLint

/-- The cells of some values are the cells of each. -/
theorem Value.mem_cellsAll {vs : List Value} {c : Cell} :
    c ∈ cellsAll vs ↔ ∃ v ∈ vs, c ∈ v.cells := by
  refine ⟨fun h => ?_, fun ⟨v, hv, hc⟩ => Store.mem_cellsAll hv hc⟩
  induction vs with
  | nil => exact absurd h (by simp [cellsAll])
  | cons v vs ih =>
    rw [cellsAll, List.mem_append] at h
    rcases h with hc | hc
    · exact ⟨v, List.mem_cons_self .., hc⟩
    · obtain ⟨w, hw, hc⟩ := ih hc
      exact ⟨w, List.mem_cons_of_mem _ hw, hc⟩

/-! ## The search -/

namespace Search

variable {contents : Cell → List Value} {q : Search} {c : Cell}

/-- What some things lead to. -/
inductive Reached (contents : Cell → List Value) (start : List Cell) : Cell → Prop where
  | start {c : Cell} : c ∈ start → Reached contents start c
  | held {k c : Cell} : Reached contents start k → c ∈ Value.cellsAll (contents k) →
      Reached contents start c

theorem Reached.mono {start start' : List Cell} (h : Reached contents start c)
    (hsub : start ⊆ start') : Reached contents start' c := by
  induction h with
  | start hc => exact .start (hsub hc)
  | held _ hc ih => exact .held ih hc

/-- Everything that a search has found or has before it is reached from where it began. -/
def Sound (contents : Cell → List Value) (start : List Cell) (q : Search) : Prop :=
  ∀ c, c ∈ q.found ∨ c ∈ q.pending → Reached contents start c

/-- A step of a search finds nothing but what is reached. -/
theorem Sound.step {start : List Cell} (h : q.Sound contents start) :
    (q.step contents).Sound contents start := by
  unfold Search.step
  cases hp : q.pending with
  | nil => exact h
  | cons c rest =>
    have hc : Reached contents start c := h c (Or.inr (hp ▸ List.mem_cons_self ..))
    have hrest : ∀ k ∈ rest, Reached contents start k := fun k hk =>
      h k (Or.inr (hp ▸ List.mem_cons_of_mem _ hk))
    simp only
    split
    · exact fun k hk => hk.elim (fun hk => h k (Or.inl hk)) (hrest k)
    · rintro k (hk | hk)
      · rcases List.mem_cons.mp hk with rfl | hk
        · exact hc
        · exact h k (Or.inl hk)
      · rcases List.mem_append.mp hk with hk | hk
        · exact .held hc hk
        · exact hrest k hk

theorem run_sound {start : List Cell} : ∀ (steps : Nat) {q : Search}, q.Sound contents start →
    (run contents steps q).Sound contents start
  | 0, _, h => h
  | n + 1, q, h => by
    rw [run]
    split
    · exact h
    · exact run_sound n h.step

/-- Everything that a search should come to is found or still before it: where it began, and what is
held by what it found. -/
def Covers (contents : Cell → List Value) (start : List Cell) (q : Search) : Prop :=
  (∀ c ∈ start, c ∈ q.found ∨ c ∈ q.pending) ∧
    ∀ k ∈ q.found, ∀ c ∈ Value.cellsAll (contents k), c ∈ q.found ∨ c ∈ q.pending

/-- A step of a search leaves nothing out: what was before it is found, and what that holds is found
or before it now. -/
theorem Covers.step {start : List Cell} (h : q.Covers contents start) :
    (q.step contents).Covers contents start := by
  unfold Search.step
  cases hp : q.pending with
  | nil => exact h
  | cons c rest =>
    have hcases : ∀ {k}, k ∈ q.found ∨ k ∈ q.pending → k ∈ q.found ∨ k = c ∨ k ∈ rest := by
      intro k hk
      rwa [hp, List.mem_cons] at hk
    simp only
    split
    · rename_i hseen
      have hseen : c ∈ q.found := List.contains_iff_mem.mp hseen
      have hkept : ∀ {k}, k ∈ q.found ∨ k ∈ q.pending → k ∈ q.found ∨ k ∈ rest := by
        intro k hk
        rcases hcases hk with hk | rfl | hk
        · exact Or.inl hk
        · exact Or.inl hseen
        · exact Or.inr hk
      exact ⟨fun k hk => hkept (h.1 k hk), fun m hm k hk => hkept (h.2 m hm k hk)⟩
    · have hkept : ∀ {k}, k ∈ q.found ∨ k ∈ q.pending →
          k ∈ c :: q.found ∨ k ∈ Value.cellsAll (contents c) ++ rest := by
        intro k hk
        rcases hcases hk with hk | rfl | hk
        · exact Or.inl (List.mem_cons_of_mem _ hk)
        · exact Or.inl (List.mem_cons_self ..)
        · exact Or.inr (List.mem_append_right _ hk)
      refine ⟨fun k hk => hkept (h.1 k hk), fun m hm k hk => ?_⟩
      rcases List.mem_cons.mp hm with rfl | hm
      · exact Or.inr (List.mem_append_left _ hk)
      · exact hkept (h.2 m hm k hk)

/-- A search with nothing before it has found all it should come to. -/
theorem Covers.mem_found {start : List Cell} (h : q.Covers contents start)
    (hdone : q.pending = []) (hc : Reached contents start c) : c ∈ q.found := by
  have hall : ∀ {k}, k ∈ q.found ∨ k ∈ q.pending → k ∈ q.found := by
    intro k hk
    rw [hdone] at hk
    exact hk.resolve_right (by simp)
  induction hc with
  | start hc => exact hall (h.1 _ hc)
  | held _ hc ih => exact hall (h.2 _ ih _ hc)

/-- How many things there are to be found in those of the places that were not looked into. -/
def unseen (contents : Cell → List Value) (found : List Cell) : (places : List Cell) → Nat
  | [] => 0
  | c :: places =>
    (if c ∈ found then 0 else (Value.cellsAll (contents c)).length) + unseen contents found places

/-- How many more steps a search can take at most. -/
def effort (contents : Cell → List Value) (places : List Cell) (q : Search) : Nat :=
  q.pending.length + unseen contents q.found places

/-- Finding one more thing leaves no more to be found. -/
theorem unseen_cons_le (contents : Cell → List Value) (found : List Cell) (c : Cell) :
    ∀ places : List Cell,
    unseen contents (c :: found) places ≤ unseen contents found places
  | [] => Nat.le_refl _
  | k :: places => by
    have hrest := unseen_cons_le contents found c places
    rw [unseen, unseen]
    by_cases hk : k ∈ found
    · rw [if_pos hk, if_pos (List.mem_cons_of_mem _ hk)]
      omega
    · rw [if_neg hk]
      split <;> omega

/-- To look into a place takes off what is to be found there. -/
theorem unseen_cons {found : List Cell} (hc : c ∉ found) : ∀ {places : List Cell}, c ∈ places →
    unseen contents (c :: found) places + (Value.cellsAll (contents c)).length ≤
      unseen contents found places
  | k :: places, h => by
    rw [unseen, unseen]
    by_cases hk : k = c
    · subst hk
      have hrest := unseen_cons_le contents found k places
      rw [if_pos (List.mem_cons_self ..), if_neg hc]
      omega
    · have hrest := unseen_cons hc
        ((List.mem_cons.mp h).resolve_left fun he => hk he.symm)
      have hsame : k ∈ c :: found ↔ k ∈ found := by
        rw [List.mem_cons, or_iff_right hk]
      simp only [hsame]
      omega

/-- Where there is nothing to be found it makes no difference whether one looks. -/
theorem unseen_of_empty (found : List Cell) (hc : contents c = []) : ∀ places : List Cell,
    unseen contents (c :: found) places = unseen contents found places
  | [] => rfl
  | k :: places => by
    rw [unseen, unseen, unseen_of_empty found hc places]
    by_cases hk : k = c
    · subst hk
      rw [hc, Value.cellsAll, List.length_nil, ite_self, ite_self]
    · simp only [List.mem_cons, hk, false_or]

/-- Every step brings the end of a search nearer. -/
theorem effort_step {places : List Cell} (hplaces : ∀ c, c ∉ places → contents c = [])
    (hpending : q.pending ≠ []) :
    (q.step contents).effort contents places < q.effort contents places := by
  unfold Search.step effort
  cases hp : q.pending with
  | nil => exact absurd hp hpending
  | cons c rest =>
    simp only [List.length_cons]
    split
    · simp only
      omega
    · rename_i hseen
      have hseen : c ∉ q.found := fun h => hseen (List.contains_iff_mem.mpr h)
      simp only [List.length_append]
      by_cases hc : c ∈ places
      · have hless : _ + (Value.cellsAll (contents c)).length ≤ _ := unseen_cons hseen hc
        omega
      · have hempty := hplaces c hc
        rw [unseen_of_empty _ hempty, hempty, Value.cellsAll, List.length_nil]
        omega

/-- With enough steps a search comes to its end. -/
theorem run_covers {places start : List Cell} (hplaces : ∀ c, c ∉ places → contents c = []) :
    ∀ (steps : Nat) {q : Search}, q.Covers contents start → q.effort contents places ≤ steps →
      (run contents steps q).Covers contents start ∧ (run contents steps q).pending = []
  | 0, q, h, heffort => by
    refine ⟨h, List.length_eq_zero_iff.mp ?_⟩
    rw [effort] at heffort
    exact Nat.eq_zero_of_add_eq_zero_right (Nat.le_zero.mp heffort)
  | n + 1, q, h, heffort => by
    rw [run]
    split
    · rename_i hempty
      exact ⟨h, List.isEmpty_iff.mp hempty⟩
    · rename_i hsome
      refine run_covers hplaces n h.step ?_
      have hless := effort_step (q := q) hplaces fun he => hsome (List.isEmpty_iff.mpr he)
      omega

end Search

namespace Store

variable {s : Store} {values : List Value} {c : Cell}

/-- What values lead to, through the fields of nodes, lists, tuples, tables, lints and agents. -/
inductive Reached (s : Store) (values : List Value) : Cell → Prop where
  | named {v : Value} {c : Cell} : v ∈ values → c ∈ v.cells → Reached s values c
  | held {k c : Cell} {v : Value} : Reached s values k → v ∈ s.contents k → c ∈ v.cells →
      Reached s values c

/-- At first all of the places are still to be looked into. -/
theorem foldl_cells (contents : Cell → List Value) : ∀ (places : List Cell) (n : Nat),
    places.foldl (fun n c => n + (Value.cellsAll (contents c)).length) n =
      n + Search.unseen contents [] places
  | [], n => rfl
  | c :: places, n => by
    rw [List.foldl_cons, foldl_cells contents places, Search.unseen, if_neg (by simp),
      Nat.add_assoc]

/-- A search finds what the things it begins with lead to, and nothing else. -/
theorem mem_reachFrom {start : List Cell} :
    c ∈ s.reachFrom start ↔ Search.Reached s.contents start c := by
  unfold reachFrom
  constructor
  · intro h
    refine Search.run_sound _ (fun k hk => ?_) c (Or.inl h)
    exact .start (hk.resolve_left (by simp))
  · intro h
    have hcovers : Search.Covers s.contents start { pending := start } :=
      ⟨fun k hk => Or.inr hk, fun k hk => absurd hk (by simp)⟩
    have heffort : Search.effort s.contents s.places { pending := start } ≤
        s.places.foldl (fun n c => n + (Value.cellsAll (s.contents c)).length) start.length := by
      rw [foldl_cells]
      exact Nat.le_refl _
    obtain ⟨hend, hdone⟩ :=
      Search.run_covers (fun _ => contents_eq_nil) _ hcovers heffort
    exact hend.mem_found hdone h

/-- What values reach is what a search that begins with their cells is to find. -/
theorem reached_iff :
    s.Reached values c ↔ Search.Reached s.contents (Value.cellsAll values) c := by
  constructor
  · intro h
    induction h with
    | named hv hc => exact .start (Value.mem_cellsAll.mpr ⟨_, hv, hc⟩)
    | held _ hv hc ih => exact .held ih (Value.mem_cellsAll.mpr ⟨_, hv, hc⟩)
  · intro h
    induction h with
    | start hc =>
      obtain ⟨v, hv, hc⟩ := Value.mem_cellsAll.mp hc
      exact .named hv hc
    | held _ hc ih =>
      obtain ⟨v, hv, hc⟩ := Value.mem_cellsAll.mp hc
      exact .held ih hv hc

/-- What is searched from values is what they lead to. -/
theorem mem_reach : c ∈ s.reach values ↔ s.Reached values c := by
  rw [reach, mem_reachFrom, reached_iff]

/-- Fewer values lead to less. -/
theorem Reached.mono {values' : List Value} (h : s.Reached values c) (hsub : values ⊆ values') :
    s.Reached values' c := by
  induction h with
  | named hv hc => exact .named (hsub hv) hc
  | held _ hv hc ih => exact .held ih hv hc

/-- What things hold that name nothing is of no account. -/
theorem Reached.of_contents {t : Store} (h : s.Reached values c)
    (hsame : ∀ k, ∀ v ∈ s.contents k, v.cells ≠ [] → v ∈ t.contents k) : t.Reached values c := by
  induction h with
  | named hv hc => exact .named hv hc
  | held _ hv hc ih => exact .held ih (hsame _ _ hv (List.ne_nil_of_mem hc)) hc

/-! ## What is let go -/

/-- Whether something is let go with these values: they led to it, nothing in use does, and nothing
that waits for the next collection holds it. -/
def leaves (s : Store) (values : List Value) : Cell → Bool :=
  let used := s.inUse
  let loose := (s.reach values).filter fun c => !(s.isRecent c || used.contains c)
  let waiting := s.knots loose.length loose
  fun c => loose.contains c && !waiting.contains c

theorem release_eq (s : Store) (values : List Value) :
    s.release values = s.keepParents fun c => !s.leaves values c := by
  have hnot : ∀ waits loose : Bool, (waits || !loose) = !(loose && !waits) := by decide
  exact congrArg s.keepParents (funext fun c => hnot _ _)

/-- What is let go is nothing that the values in use led to at the last collection and still lead
to. -/
theorem not_reached_of_leaves (h : s.leaves values c = true) : ¬s.Reached s.baseline.values c := by
  simp only [leaves, Bool.and_eq_true, List.contains_iff_mem, List.mem_filter, Bool.not_eq_true',
    Bool.or_eq_false_iff] at h
  obtain ⟨⟨_, _, hunused⟩, _⟩ := h
  intro hreached
  have hused : c ∈ s.inUse :=
    mem_reachFrom.mpr ((reached_iff.mp hreached).mono (List.subset_append_left ..))
  rw [List.contains_iff_mem.mpr hused] at hunused
  exact absurd hunused (by simp)

end Store

end SheetLint
