import SheetLint.Document
import SheetLint.Proofs.Ranks
import SheetLint.Proofs.Replay

/-!
# What is found in a document

The lints of the enabled linters are gathered one linter after the other, and of equal lints the
first is kept. A lint never equals that of another linter, so what a linter adds does not depend on
what is there (`keepFirst_append`), and by what the lints of one linter say it is decided which of
them are equal (`sameMemberTo_lint`). With that each linter adds its own findings, whenever its turn
comes (`Inspection.Gathered.collectLints`).
-/

namespace SheetLint

open Store

/-! ## Keeping the first -/

section KeepFirst

variable {α β : Type} {same : α → α → Bool} {same' : β → β → Bool}

/-- Adds those items that count as one with none that is there. -/
def keepFirst (same : α → α → Bool) : (kept xs : List α) → List α
  | kept, [] => kept
  | kept, x :: xs => keepFirst same (if kept.any (same · x) then kept else kept ++ [x]) xs

/-- Where nothing was lost, lints are added so. -/
theorem Document.addNewTo_eq {s : Store} (hs : s.hasBacked = false) (depth : Nat) :
    ∀ found lints : List Value,
      addNewTo s depth found lints = .ok (keepFirst (s.sameMemberTo depth) found lints)
  | found, [] => rfl
  | found, x :: xs => by
    rw [addNewTo, isAmong_of_unbacked hs, keepFirst]
    exact addNewTo_eq hs depth _ xs

/-- What nothing new counts as one with stays at the front. -/
theorem keepFirst_append : ∀ {found kept xs : List α},
    (∀ y ∈ found, ∀ x ∈ xs, same y x = false) →
      keepFirst same (found ++ kept) xs = found ++ keepFirst same kept xs
  | _, _, [], _ => rfl
  | found, kept, x :: xs, h => by
    have hfound : found.any (same · x) = false := by
      rw [List.any_eq_false]
      intro y hy
      simp [h y hy x (List.mem_cons_self ..)]
    have hrest : ∀ y ∈ found, ∀ x ∈ xs, same y x = false := fun y hy x hx =>
      h y hy x (List.mem_cons_of_mem _ hx)
    rw [keepFirst, keepFirst, List.any_append, hfound, Bool.false_or]
    split
    · exact keepFirst_append hrest
    · rw [List.append_assoc]
      exact keepFirst_append hrest

/-- What is kept of a row is a part of it in the same order. -/
theorem keepFirst_sublist (same : α → α → Bool) : ∀ (kept xs : List α),
    (keepFirst same kept xs).Sublist (kept ++ xs)
  | kept, [] => by rw [List.append_nil]; exact .refl kept
  | kept, x :: xs => by
    rw [keepFirst]
    split
    · exact (keepFirst_sublist same kept xs).trans ((List.sublist_cons_self x xs).append_left kept)
    · have hsub := keepFirst_sublist same (kept ++ [x]) xs
      rwa [List.append_assoc] at hsub

/-- Which items are kept can be told from what goes with them. -/
theorem map_keepFirst {f : α → β} : ∀ {kept xs : List α},
    (kept ++ xs).Pairwise (fun x y => same x y = same' (f x) (f y)) →
      (keepFirst same kept xs).map f = keepFirst same' (kept.map f) (xs.map f)
  | _, [], _ => rfl
  | kept, x :: xs, h => by
    have hx : kept.any (same · x) = (kept.map f).any (same' · (f x)) := by
      rw [List.any_map, Bool.eq_iff_iff, List.any_eq_true, List.any_eq_true]
      refine exists_congr fun y => and_congr_right fun hy => ?_
      rw [(List.pairwise_append.mp h).2.2 y hy x (List.mem_cons_self ..)]
      rfl
    rw [List.map_cons, keepFirst, keepFirst, hx]
    split
    · exact map_keepFirst (h.sublist ((List.sublist_cons_self x xs).append_left kept))
    · rw [show kept.map f ++ [f x] = (kept ++ [x]).map f by simp]
      refine map_keepFirst ?_
      rwa [List.append_assoc]

end KeepFirst

/-- Lints whose rows are compared by a key are put in the order of their keys. -/
theorem Document.sorted_eq_mergeSort {α κ : Type} [LinearOrder κ] {s : Store} {f : α → Value}
    {row : α → List Value} {key : α → κ} {xs : List α}
    (hrow : ∀ x ∈ xs, s.sortKey (f x) = .ok (row x))
    (hcompare : ∀ x ∈ xs, ∀ y ∈ xs, s.compareRow (s.depthAmong (xs.map f)) .lt (row x) (row y) =
      .ok (decide (key x < key y))) :
    sorted s (xs.map f) = .ok ((xs.mergeSort fun x y => decide (key x ≤ key y)).map f) := by
  let less (a b : List Value × Value) : Except Fault Bool :=
    s.compareRow (s.depthAmong (xs.map f)) .lt a.1 b.1
  have hless : ∀ x ∈ xs, ∀ y ∈ xs, less (row x, f x) (row y, f y) = .ok (decide (key x < key y)) :=
    hcompare
  have hsort := Sorting.sort_eq_mergeSort (f := fun x => (row x, f x)) hless
  have hrows : (xs.map f).mapM s.sortKey = .ok (xs.map row) := by
    rw [List.mapM_map]
    exact Sorting.mapM_ok hrow
  unfold sorted
  rw [hrows]
  simp only [List.zip_map']
  rw [show Sorting.sort _ _ = _ from hsort]
  simp only [Except.map, List.map_map]
  rfl

/-! ## Equal lints -/

/-- A severity is what was asked for in default of another, or one that there is. -/
theorem Edit.severity_cases {settings linter fallback v : Value} {s t : Store}
    (h : (Edit.severity settings linter fallback).perform s = (.ok v, t)) :
    v = fallback ∨ ∃ x, v = .severity x := by
  unfold Edit.severity at h
  obtain ⟨_, _, _, h⟩ := Edit.of_perform_bind_ok h
  obtain ⟨own, u, _, h⟩ := Edit.of_perform_bind_ok h
  obtain ⟨choice, _, _, h⟩ := Edit.of_perform_bind_ok h
  cases choice with
  | unset =>
    cases h
    exact Or.inl rfl
  | known x =>
    cases h
    exact Or.inr ⟨x, rfl⟩
  | unknown raw =>
    obtain ⟨_, _, _, h⟩ := Edit.of_perform_bind_ok h
    obtain ⟨_, _, _, h⟩ := Edit.of_perform_bind_ok h
    obtain ⟨_, _, _, h⟩ := Edit.of_perform_bind_ok h
    cases h
    exact Or.inl rfl

/-- The severity that a linter asks for is something that is there. -/
theorem Linter.severity_held {s t : Store} {i : AgentId} (hs : s.Closed) (hi : s.Holds (.agent i))
    {v : Value} (h : (severity i).perform s = (.ok v, t)) : s.Holds v := by
  unfold severity at h
  obtain ⟨_, s₁, h₁, h⟩ := Edit.of_perform_bind_ok h
  obtain ⟨settings, s₂, h₂, h⟩ := Edit.of_perform_bind_ok h
  obtain ⟨own, s₃, h₃, h⟩ := Edit.of_perform_bind_ok h
  rw [Edit.perform_tryRead] at h₁ h₂ h₃
  obtain ⟨_, rfl⟩ := Prod.mk.inj h₁
  obtain ⟨_, rfl⟩ := Prod.mk.inj h₂
  obtain ⟨hown, rfl⟩ := Prod.mk.inj h₃
  have hheld := getAttribute_agent_held hs hi (by decide) (by decide) hown
  split at h
  · cases h
    exact hheld
  · obtain ⟨_, _, _, h⟩ := Edit.of_perform_bind_ok h
    rcases Edit.severity_cases h with rfl | ⟨x, rfl⟩
    · exact hheld
    · exact .of_cells rfl

/-- A location is there if its parts are. -/
theorem Store.Holds.location {s : Store} {m : Nat} {l c n : Value} (hl : s.Holds l)
    (hc : s.Holds c) (hn : s.Holds n) : s.Holds (.location m l c n) := by
  intro k hk
  simp only [Value.cells, List.mem_cons, List.mem_append] at hk
  rcases hk with rfl | (hk | hk) | hk
  · trivial
  · exact hl k hk
  · exact hc k hk
  · exact hn k hk

/-- So is a lint. -/
theorem Store.Holds.lint {s : Store} {m : Nat} {source file place description sev : Value}
    {fixable : Bool} (hsource : s.Holds source) (hfile : s.Holds file) (hplace : s.Holds place)
    (hdescription : s.Holds description) (hsev : s.Holds sev) :
    s.Holds (.lint m source file place description sev fixable) := by
  intro k hk
  simp only [Value.cells, List.mem_cons, List.mem_append] at hk
  rcases hk with rfl | (((hk | hk) | hk) | hk) | hk
  · trivial
  · exact hsource k hk
  · exact hfile k hk
  · exact hplace k hk
  · exact hdescription k hk
  · exact hsev k hk

/-- Marks make no difference, as long as there are two. -/
theorem Store.sameTo_lint_marks (s : Store) {r r' : Report} {mark mark' other other' : Nat}
    (hne : mark ≠ mark') (hne' : other ≠ other') (d : Nat) :
    s.sameTo d (r.lint mark) (r'.lint mark') = s.sameTo d (r.lint other) (r'.lint other') := by
  have hplace : ∀ {m m' : Nat}, m ≠ m' → (Value.location m r.line r.column r.length).identical
      (.location m' r'.line r'.column r'.length) = false := by
    intro m m' h
    simpa [Value.identical, Value.cell?] using h
  cases d with
  | zero => rfl
  | succ d =>
    simp only [Report.lint, sameTo, Value.pairwise, hplace hne, hplace hne']
    cases d <;> rfl

namespace Job

variable {J : Job} {u : Store} {r r' : Report}

/-- Whatever a lint names was there from the start, if the file and the parts of locations were. -/
theorem Says.holds_lint (hr : J.Says r) (hfile : J.start.Holds J.file)
    (hparts : ∀ v, J.Part v → J.start.Holds v) (mark : Nat) : J.start.Holds (r.lint mark) := by
  have hsev : J.start.Holds r.severity := by
    have hresult := hr.severity
    cases h : (Linter.severity J.linter).perform J.start with
    | mk x t =>
      rw [h] at hresult
      obtain rfl := toOption_eq_some.mp hresult
      exact Linter.severity_held J.sound.closed J.holds_linter h
  have hpart : ∀ v ∈ [r.line, r.column, r.length], J.start.Holds v := fun v hv =>
    hparts v (hr.parts v hv)
  refine .lint ?_ ?_ (.location ?_ ?_ ?_) hr.description hsev
  · rw [hr.linter]
    exact J.holds_linter
  · rw [hr.file]
    exact hfile
  · exact hpart r.line (by simp)
  · exact hpart r.column (by simp)
  · exact hpart r.length (by simp)

end Job

/-- Whether two reports are of lints that are equal. -/
def Store.sameReport (s : Store) : Option Report → Option Report → Bool
  | some r, some r' => s.same (r.lint 0) (r'.lint 1)
  | _, _ => false

/-- Lints that were there from the start, marks apart, are equal if what they say is. -/
theorem Store.sameMemberTo_lint {s u : Store} (hs : s.Closed) (hu : s.Extends u) {r r' : Report}
    {mark mark' : Nat} (hne : mark ≠ mark') (hr : s.Holds (r.lint mark))
    (hr' : s.Holds (r'.lint mark')) {vs : List Value} (hvs : r.lint mark ∈ vs)
    (hvs' : r'.lint mark' ∈ vs) :
    u.sameMemberTo (u.depthAmong vs) (r.lint mark) (r'.lint mark') =
      s.sameReport (some r) (some r') := by
  have hone : (r.lint mark).identical (r'.lint mark') = false := by
    simpa [Report.lint, Value.identical, Value.cell?] using hne
  rw [sameMemberTo, hone, Bool.false_or, sameReport, Bool.eq_iff_iff, sameTo_depthAmong hvs hvs',
    same_iff]
  refine exists_congr fun d => ?_
  rw [sameTo_extends hs hu d hr hr', s.sameTo_lint_marks hne (by decide : 0 ≠ 1) d]

/-- A lint never equals that of another linter. -/
theorem Store.sameMemberTo_other (s : Store) {r r' : Report} {i j : AgentId} {mark mark' : Nat}
    (hne : mark ≠ mark') (hr : r.linter = .agent i) (hr' : r'.linter = .agent j) (hij : i ≠ j)
    (depth : Nat) : s.sameMemberTo depth (r.lint mark) (r'.lint mark') = false := by
  have hone : (r.lint mark).identical (r'.lint mark') = false := by
    simpa [Report.lint, Value.identical, Value.cell?] using hne
  have hsource : ∀ d, ((Value.agent i).identical (.agent j) ||
      s.sameTo d (.agent i) (.agent j)) = false := by
    intro d
    cases d <;> simpa [Value.identical, Value.cell?, sameTo] using hij
  rw [sameMemberTo, hone, Bool.false_or]
  cases depth with
  | zero => rfl
  | succ d =>
    rw [Report.lint, Report.lint, hr, hr']
    simp only [sameTo, Value.pairwise, hsource, Bool.false_and]

/-- Lints can be counted. -/
theorem Store.countErrors_lints (s : Store) : ∀ {xs : List Value},
    (∀ x ∈ xs, ∃ r : Report, ∃ mark, x = r.lint mark) → ∃ n, s.countErrors xs = .ok n
  | [], _ => ⟨0, rfl⟩
  | x :: xs, h => by
    obtain ⟨r, mark, rfl⟩ := h x (List.mem_cons_self ..)
    obtain ⟨n, hn⟩ := s.countErrors_lints fun y hy => h y (List.mem_cons_of_mem _ hy)
    have herror : ∃ b, s.isError (r.lint mark) = .ok b := by
      unfold isError Report.lint
      split
      · exact ⟨_, rfl⟩
      · exact ⟨_, rfl⟩
      · rename_i hlint
        exact absurd rfl (hlint _ _ _ _ _ _ _)
    obtain ⟨b, hb⟩ := herror
    refine ⟨if b then n + 1 else n, ?_⟩
    rw [countErrors, hb, hn]
    rfl

end SheetLint
