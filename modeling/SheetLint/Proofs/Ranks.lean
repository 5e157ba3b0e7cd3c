import Mathlib.Data.List.Sort
import Mathlib.Order.Lattice
import SheetLint.Sorting

/-!
# Sorting by a key

Where items are compared by a key from a linear order, ranks go with keys, so the comparison is
consistent and sorting puts the items in the order of their keys, those of one key as they were
(`sort_eq_mergeSort`).

A stable order is fixed by the items of each key. So lists in which the items of each key stand in
the same order are sorted alike, however the keys are mixed (`mergeSort_eq_of_filter`), and to put
together parts that have no key in common can be done in any order (`flatMap_perm`).
-/

namespace SheetLint.Sorting

variable {α ε κ : Type} [LinearOrder κ] {key : α → κ} {less : α → α → Except ε Bool}
  {xs ys : List α} {x y : α}

/-! ## Ranks and keys -/

theorem mapM_ok {β : Type} {f : α → Except ε β} {g : α → β} : ∀ {xs : List α},
    (∀ x ∈ xs, f x = .ok (g x)) → xs.mapM f = .ok (xs.map g)
  | [], _ => rfl
  | x :: xs, h => by
    rw [List.mapM_cons, h x (List.mem_cons_self ..),
      mapM_ok fun x' hx' => h x' (List.mem_cons_of_mem _ hx')]
    rfl

/-- How many items have a lower key. -/
def keyRank (key : α → κ) (xs : List α) (x : α) : Nat :=
  xs.countP fun y => decide (key y < key x)

theorem keyRank_le (hxy : key x ≤ key y) : keyRank key xs x ≤ keyRank key xs y := by
  refine List.countP_mono_left fun z _ hz => ?_
  simp only [decide_eq_true_eq] at hz ⊢
  exact lt_of_lt_of_le hz hxy

/-- An item has a lower key exactly if it has a lower rank. -/
theorem keyRank_lt_iff (hx : x ∈ xs) : keyRank key xs x < keyRank key xs y ↔ key x < key y := by
  constructor
  · intro hrank
    by_contra hkey
    have hle : keyRank key xs y ≤ keyRank key xs x := keyRank_le (not_lt.mp hkey)
    omega
  · -- the item itself makes the difference
    intro hkey
    obtain ⟨before, after, rfl⟩ := List.append_of_mem hx
    have hbefore : keyRank key before x ≤ keyRank key before y := keyRank_le hkey.le
    have hafter : keyRank key after x ≤ keyRank key after y := keyRank_le hkey.le
    unfold keyRank at hbefore hafter ⊢
    simp only [List.countP_append, List.countP_cons, lt_irrefl, hkey, decide_true, decide_false,
      if_true, Bool.false_eq_true, if_false]
    omega

/-- Whether each of the items has a lower key. -/
def keyRow (key : α → κ) (xs : List α) (y : α) : List Bool :=
  xs.map fun x => decide (key x < key y)

theorem rank_keyRow (key : α → κ) (xs : List α) (y : α) :
    rank (keyRow key xs y) = keyRank key xs y := by
  simp [rank, keyRow, keyRank, List.count_eq_countP, List.countP_map, Function.comp_def]

theorem isConsistent_keyRow (key : α → κ) (xs : List α) :
    isConsistent (xs.map (keyRow key xs)) = true := by
  simp only [isConsistent, List.all_eq_true, List.mem_map, beq_iff_eq]
  rintro _ ⟨y, _, rfl⟩
  rw [List.map_map, List.map_map, rank_keyRow]
  refine List.map_congr_left fun x hx => ?_
  simp only [Function.comp, rank_keyRow, keyRank_lt_iff hx]

/-- What is compared by the keys of items is put in the order of these keys. -/
theorem sort_eq_mergeSort {β : Type} {f : α → β} {less : β → β → Except ε Bool}
    (hless : ∀ x ∈ xs, ∀ y ∈ xs, less (f x) (f y) = .ok (decide (key x < key y))) :
    sort less (xs.map f) = .ok ((xs.mergeSort fun x y => decide (key x ≤ key y)).map f) := by
  have htable : below less (xs.map f) = .ok (xs.map (keyRow key xs)) := by
    unfold below
    rw [List.mapM_map]
    refine mapM_ok fun y hy => ?_
    simp only [Function.comp_apply, List.mapM_map]
    exact mapM_ok fun x hx => hless x hx y hy
  have hranks : ((xs.map (keyRow key xs)).map rank).zip (xs.map f) =
      xs.map fun x => (keyRank key xs x, f x) := by
    rw [List.map_map, List.zip_map']
    simp only [Function.comp_def, rank_keyRow]
  unfold sort
  rw [htable]
  simp only [isConsistent_keyRow, if_true, byRank, hranks]
  congr 1
  have hsame : ∀ x ∈ xs, ∀ y ∈ xs,
      decide (key x ≤ key y) = decide (keyRank key xs x ≤ keyRank key xs y) := by
    intro x hx y hy
    rw [decide_eq_decide, ← not_lt, ← not_lt, keyRank_lt_iff hy]
  rw [← List.map_mergeSort (r := fun x y => decide (key x ≤ key y)) hsame, List.map_map]
  rfl

/-! ## What fixes the order -/

/-- Lists in the order of their keys are one if the items of each key are. -/
theorem eq_of_filter_eq : ∀ {xs ys : List α}, xs.Pairwise (key · ≤ key ·) →
    ys.Pairwise (key · ≤ key ·) →
    (∀ k, xs.filter (fun x => decide (key x = k)) = ys.filter fun y => decide (key y = k)) → xs = ys
  | [], [], _, _, _ => rfl
  | [], y :: ys, _, _, h => absurd (h (key y)) (by simp)
  | x :: xs, [], _, _, h => absurd (h (key x)) (by simp)
  | x :: xs, y :: ys, hxs, hys, h => by
    obtain ⟨hx, hxs'⟩ := List.pairwise_cons.mp hxs
    obtain ⟨hy, hys'⟩ := List.pairwise_cons.mp hys
    -- each of the two first items is somewhere in the other list, so neither key is lower
    have hxy : key y ≤ key x := by
      have hmem : x ∈ (y :: ys).filter fun y => decide (key y = key x) := by
        rw [← h (key x)]
        simp
      rcases List.mem_cons.mp (List.mem_of_mem_filter hmem) with rfl | hmem
      · exact le_refl _
      · exact hy x hmem
    have hyx : key x ≤ key y := by
      have hmem : y ∈ (x :: xs).filter fun x => decide (key x = key y) := by
        rw [h (key y)]
        simp
      rcases List.mem_cons.mp (List.mem_of_mem_filter hmem) with rfl | hmem
      · exact le_refl _
      · exact hx y hmem
    have hkey : key x = key y := le_antisymm hyx hxy
    have hhead := h (key x)
    simp only [List.filter_cons, hkey, decide_true, if_true] at hhead
    obtain ⟨rfl, _⟩ := List.cons.inj hhead
    congr 1
    refine eq_of_filter_eq hxs' hys' fun k => ?_
    have hk := h k
    simp only [List.filter_cons] at hk
    split at hk
    · exact (List.cons.inj hk).2
    · exact hk

/-- Sorting keeps the items of each key as they were. -/
theorem filter_mergeSort (k : κ) :
    (xs.mergeSort fun x y => decide (key x ≤ key y)).filter (fun x => decide (key x = k)) =
      xs.filter fun x => decide (key x = k) := by
  have hsub : (xs.filter fun x => decide (key x = k)).Sublist
      (xs.mergeSort fun x y => decide (key x ≤ key y)) := by
    refine List.sublist_mergeSort (fun a b c hab hbc => ?_) (fun a b => ?_) ?_ List.filter_sublist
    · simp only [decide_eq_true_eq] at hab hbc ⊢
      exact le_trans hab hbc
    · simpa using le_total (key a) (key b)
    · refine List.pairwise_of_forall_mem_list fun a ha b hb => ?_
      have hka : key a = k := by simpa using (List.mem_filter.mp ha).2
      have hkb : key b = k := by simpa using (List.mem_filter.mp hb).2
      simp [hka, hkb]
  have hfilter := hsub.filter fun x => decide (key x = k)
  rw [List.filter_filter] at hfilter
  simp only [Bool.and_self] at hfilter
  refine (hfilter.eq_of_length ?_).symm
  exact ((List.mergeSort_perm xs _).filter _).length_eq.symm

/-- Sorting puts keys in order. -/
theorem pairwise_mergeSort (key : α → κ) (xs : List α) :
    (xs.mergeSort fun x y => decide (key x ≤ key y)).Pairwise (key · ≤ key ·) := by
  have hsorted : (xs.mergeSort fun x y => decide (key x ≤ key y)).Pairwise fun x y =>
      decide (key x ≤ key y) := by
    refine List.pairwise_mergeSort (fun a b c hab hbc => ?_) (fun a b => ?_) xs
    · simp only [decide_eq_true_eq] at hab hbc ⊢
      exact le_trans hab hbc
    · simpa using le_total (key a) (key b)
  exact hsorted.imp of_decide_eq_true

/-- Sorting leaves any relation between items of one key as it is. -/
theorem pairwise_mergeSort_of_key {r : α → α → Prop} (h : xs.Pairwise r) :
    (xs.mergeSort fun x y => decide (key x ≤ key y)).Pairwise fun x y => key x = key y → r x y := by
  have hkey : ∀ k, (xs.mergeSort fun x y => decide (key x ≤ key y)).Pairwise fun x y =>
      decide (key x = k) = true → decide (key y = k) = true → r x y := by
    intro k
    rw [← List.pairwise_filter, filter_mergeSort]
    exact h.filter _
  rw [List.pairwise_iff_getElem]
  intro i j hi hj hij heq
  exact List.pairwise_iff_getElem.mp (hkey _) i j hi hj hij (by simpa using heq) (by simp)

/-- Lists in which the items of each key are the same, in the same order, are sorted alike. -/
theorem mergeSort_eq_of_filter
    (h : ∀ k, xs.filter (fun x => decide (key x = k)) = ys.filter fun y => decide (key y = k)) :
    (xs.mergeSort fun x y => decide (key x ≤ key y)) =
      ys.mergeSort fun x y => decide (key x ≤ key y) := by
  refine eq_of_filter_eq (pairwise_mergeSort key xs) (pairwise_mergeSort key ys) fun k => ?_
  rw [filter_mergeSort, filter_mergeSort]
  exact h k

/-- Parts of which at most one has anything can be put together in any order. -/
theorem flatMap_perm {ι β : Type} {part : ι → List β} {is js : List ι} (h : is.Perm js)
    (hone : ∀ i ∈ is, ∀ j ∈ is, i ≠ j → part i = [] ∨ part j = []) :
    is.flatMap part = js.flatMap part := by
  induction h with
  | nil => rfl
  | cons i _ ih =>
    rw [List.flatMap_cons, List.flatMap_cons, ih fun a ha b hb =>
      hone a (List.mem_cons_of_mem _ ha) b (List.mem_cons_of_mem _ hb)]
  | swap i j is =>
    rw [List.flatMap_cons, List.flatMap_cons, List.flatMap_cons, List.flatMap_cons,
      ← List.append_assoc, ← List.append_assoc]
    by_cases hij : i = j
    · rw [hij]
    · rcases hone i (by simp) j (by simp) hij with hi | hj
      · rw [hi, List.append_nil, List.nil_append]
      · rw [hj, List.append_nil, List.nil_append]
  | trans hpq _ ih ih' =>
    rw [ih hone]
    exact ih' fun a ha b hb => hone a (hpq.mem_iff.mpr ha) b (hpq.mem_iff.mpr hb)

end SheetLint.Sorting
