import SheetLint.Proofs.Places

/-!
# Depths at which a question is decided

Lists can contain themselves, so flattening and comparing go down to a fixed depth and give up
there. The depths the store names are enough: going deeper never changes an answer.

The reason is the same both times. The answers that are positive at some depth stay so further
down, and the answers at one depth only depend on those at the depth before. There are finitely
many questions, so after as many steps as there are questions nothing is added any more
(`stable_from_length`).

* `Store.flattenList_rest` — from `Store.nesting` on, what a list flattens to is the same, or the
  same leaf keeps it from being flattened, or it has no end.
* `Store.sameTo_depthAmong` — values equal at any depth are equal at `Store.depthAmong`.
-/

namespace SheetLint

section Chain

variable {α : Type}

/-- Fewer members have a property that implies another one, if some member tells them apart. -/
theorem countP_lt_of_implies {p q : α → Bool} : ∀ {xs : List α},
    (∀ x ∈ xs, p x = true → q x = true) → (∃ x ∈ xs, q x = true ∧ p x = false) →
      xs.countP p < xs.countP q
  | [], _, h => by
    obtain ⟨x, hx, _⟩ := h
    exact absurd hx (by simp)
  | y :: ys, himp, h => by
    have hys : ∀ x ∈ ys, p x = true → q x = true :=
      fun x hx => himp x (List.mem_cons_of_mem _ hx)
    have hle : ys.countP p ≤ ys.countP q := List.countP_mono_left hys
    rw [List.countP_cons, List.countP_cons]
    obtain ⟨x, hx, hq, hp⟩ := h
    rcases List.mem_cons.mp hx with rfl | hx'
    · rw [hq, hp]
      simp
      omega
    · have hlt := countP_lt_of_implies hys ⟨x, hx', hq, hp⟩
      have hy := himp y (List.mem_cons_self ..)
      cases hpy : p y with
      | false =>
        simp
        omega
      | true =>
        rw [hy hpy]
        simp
        omega

/-- A growing chain of properties of finitely many things that stands still once it has stood
still for one step stands still from as many steps on as there are things. -/
theorem stable_from_length (f : Nat → α → Bool) (xs : List α)
    (mono : ∀ d, ∀ x ∈ xs, f d x = true → f (d + 1) x = true)
    (step : ∀ d, (∀ x ∈ xs, f (d + 1) x = f d x) → ∀ x ∈ xs, f (d + 2) x = f (d + 1) x)
    {d : Nat} (hd : xs.length ≤ d) : ∀ x ∈ xs, f d x = f xs.length x := by
  have strict : ∀ d, (∃ x ∈ xs, f (d + 1) x ≠ f d x) →
      xs.countP (f d) < xs.countP (f (d + 1)) := by
    intro d ⟨x, hx, hne⟩
    refine countP_lt_of_implies (mono d) ⟨x, hx, ?_⟩
    cases hb : f d x with
    | false =>
      rw [hb] at hne
      exact ⟨by simpa using hne, rfl⟩
    | true =>
      rw [hb] at hne
      exact absurd (mono d x hx hb) hne
  -- a chain that has not come to rest has grown by one at every step so far
  have grown : ∀ d, (∃ x ∈ xs, f (d + 1) x ≠ f d x) → d + 1 ≤ xs.countP (f (d + 1)) := by
    intro d
    induction d with
    | zero =>
      intro h
      exact Nat.lt_of_le_of_lt (Nat.zero_le _) (strict 0 h)
    | succ d ih =>
      intro h
      have before : ∃ x ∈ xs, f (d + 1) x ≠ f d x := by
        refine Classical.byContradiction fun hno => ?_
        obtain ⟨x, hx, hne⟩ := h
        refine hne (step d (fun y hy => ?_) x hx)
        exact Classical.byContradiction fun hy' => hno ⟨y, hy, hy'⟩
      have h₁ := ih before
      have h₂ := strict (d + 1) h
      omega
  have rest : ∀ d, xs.length ≤ d → ∀ x ∈ xs, f (d + 1) x = f d x := by
    intro d hd x hx
    refine Classical.byContradiction fun hne => ?_
    have h₁ := grown d ⟨x, hx, hne⟩
    have h₂ : xs.countP (f (d + 1)) ≤ xs.length := List.countP_le_length
    omega
  intro x hx
  obtain ⟨k, rfl⟩ := Nat.exists_eq_add_of_le hd
  induction k with
  | zero => rfl
  | succ k ih =>
    rw [← Nat.add_assoc, rest (xs.length + k) (Nat.le_add_right _ _) x hx]
    exact ih (Nat.le_add_right _ _)

end Chain

/-! ## Flattening -/

/-- Whether something was found out about a list: its nodes, or a leaf that is no node. -/
def isDecided : Except Stray (List NodeId) → Bool
  | .error .endless => false
  | _ => true

theorem eq_endless_of_not_isDecided {r : Except Stray (List NodeId)} (h : isDecided r = false) :
    r = .error .endless := by
  cases r with
  | ok ns => simp [isDecided] at h
  | error stray =>
    cases stray with
    | leaf v => simp [isDecided] at h
    | endless => rfl

namespace Value

section Results

variable {e f : ListId → Except Stray (List NodeId)} {P : Except Stray (List NodeId) → Prop}

mutual

/-- What a nest flattens to depends on the lists on the way, and if it is a result of some kind that
all nodes count as, only on the lists with a result of that kind. -/
theorem flattenWith_congr (hP : ∀ ns, P (.ok ns)) : ∀ v : Value,
    (∀ l, Cell.list l ∈ v.cells → P (e l) → f l = e l) →
      P (flattenWith e v) → flattenWith f v = flattenWith e v
  | v, h, hv => by
    cases v with
    | list l =>
      rw [flattenWith] at hv ⊢
      exact h l (by simp [cells]) hv
    | tuple m xs =>
      rw [flattenWith] at hv ⊢
      rw [cells] at h
      exact flattenAllWith_congr hP xs h hv
    | _ => rfl

/-- The same for nests side by side. -/
theorem flattenAllWith_congr (hP : ∀ ns, P (.ok ns)) : ∀ xs : List Value,
    (∀ l, Cell.list l ∈ cellsAll xs → P (e l) → f l = e l) →
      P (flattenAllWith e xs) → flattenAllWith f xs = flattenAllWith e xs
  | [], _, _ => rfl
  | x :: xs, h, hv => by
    rw [cellsAll] at h
    rw [flattenAllWith] at hv ⊢
    have hx := flattenWith_congr hP x fun l hl => h l (List.mem_append_left _ hl)
    have hxs := flattenAllWith_congr hP xs fun l hl => h l (List.mem_append_right _ hl)
    cases hr : flattenWith e x with
    | error stray =>
      rw [hr] at hv hx
      rw [hx hv, flattenAllWith, hr]
    | ok ns =>
      rw [hr] at hv hx
      rw [hx (hP ns), flattenAllWith, hr]
      cases hrs : flattenAllWith e xs with
      | error stray =>
        rw [hrs] at hv hxs
        rw [hxs hv]
      | ok ms =>
        rw [hrs] at hxs
        rw [hxs (hP ms)]

end

/-- Flattening goes through with the same nodes if it goes through in every list on the way. -/
theorem flattenAllWith_transfer (xs : List Value) {ns : List NodeId}
    (h : ∀ l, Cell.list l ∈ cellsAll xs → ∀ ms, e l = .ok ms → f l = .ok ms)
    (hv : flattenAllWith e xs = .ok ns) : flattenAllWith f xs = .ok ns := by
  rw [← hv]
  refine flattenAllWith_congr (P := fun r => ∃ ms, r = .ok ms) (fun ms => ⟨ms, rfl⟩) xs ?_ ⟨ns, hv⟩
  intro l hl ⟨ms, hms⟩
  rw [hms, h l hl ms hms]

/-- What was found out about a nest is found out if it is in every list on the way. -/
theorem flattenAllWith_decided (xs : List Value)
    (h : ∀ l, Cell.list l ∈ cellsAll xs → isDecided (e l) = true → f l = e l)
    (hv : isDecided (flattenAllWith e xs) = true) : flattenAllWith f xs = flattenAllWith e xs :=
  flattenAllWith_congr (P := fun r => isDecided r = true) (fun _ => rfl) xs h hv

end Results

end Value

namespace Store

/-- What flattens at a depth flattens to the same nodes at every greater one, in every store that
came later. -/
theorem flattenList_later {s t : Store} (hs : s.Closed) (h : s.Extends t) :
    ∀ {d d' : Nat} {l : ListId} {ns : List NodeId}, d ≤ d' → l < s.lists.size →
      s.flattenList d l = .ok ns → t.flattenList d' l = .ok ns
  | 0, _, _, _, _, _, hf => by simp [flattenList] at hf
  | d + 1, 0, _, _, hd, _, _ => absurd hd (by omega)
  | d + 1, d' + 1, l, ns, hd, hl, hf => by
    rw [flattenList] at hf ⊢
    rw [h.list l hl]
    refine Value.flattenAllWith_transfer _ (fun k hk ms => ?_) hf
    exact flattenList_later hs h (by omega) (hasPlace_of_cellsAll (hs.list l) _ hk)

/-- A later store flattens what was there before to no other nodes than the store before. -/
theorem flattenList_earlier {s t : Store} (hs : s.Closed) (h : s.Extends t) :
    ∀ {d : Nat} {l : ListId} {ns : List NodeId}, l < s.lists.size →
      t.flattenList d l = .ok ns → s.flattenList d l = .ok ns
  | 0, _, _, _, hf => by simp [flattenList] at hf
  | d + 1, l, ns, hl, hf => by
    rw [flattenList] at hf ⊢
    rw [h.list l hl] at hf
    refine Value.flattenAllWith_transfer _ (fun k hk ms => ?_) hf
    exact flattenList_earlier hs h (hasPlace_of_cellsAll (hs.list l) _ hk)

/-- What was found out about a list is the same one step further down. -/
theorem flattenList_deeper {s : Store} : ∀ {d : Nat} {l : ListId},
    isDecided (s.flattenList d l) = true → s.flattenList (d + 1) l = s.flattenList d l
  | 0, _, h => by simp [flattenList, isDecided] at h
  | d + 1, l, h => by
    rw [flattenList] at h
    rw [flattenList, flattenList]
    exact Value.flattenAllWith_decided _ (fun k _ hk => flattenList_deeper hk) h

theorem flattenList_of_le {s : Store} {d d' : Nat} {l : ListId} (hle : d ≤ d')
    (h : isDecided (s.flattenList d l) = true) : s.flattenList d' l = s.flattenList d l := by
  induction hle with
  | refl => rfl
  | step _ ih => rw [flattenList_deeper (by rw [ih]; exact h), ih]

/-- Where there is no list there is nothing to be flattened. -/
theorem flattenList_of_size_le {s : Store} {l : ListId} (h : s.lists.size ≤ l) (d : Nat) :
    s.flattenList (d + 1) l = .ok [] := by
  rw [flattenList, list, Array.getElem?_eq_none h]
  rfl

/-- From the depth on that the store names nothing changes any more. -/
theorem flattenList_rest {s : Store} {d : Nat} (hd : s.nesting ≤ d) (l : ListId) :
    s.flattenList d l = s.flattenList s.nesting l := by
  rcases Nat.lt_or_ge l s.lists.size with hl | hl
  case inr =>
    obtain ⟨k, rfl⟩ := Nat.exists_eq_add_of_le' (Nat.le_trans (Nat.le_add_left 1 _) hd)
    rw [flattenList_of_size_le hl, nesting, flattenList_of_size_le hl]
  obtain ⟨k, rfl⟩ := Nat.exists_eq_add_of_le' (Nat.le_trans (Nat.le_add_left 1 _) hd)
  have hk : s.lists.size ≤ k := Nat.le_of_succ_le_succ hd
  -- the question whether a list is decided at depth `d + 1`, for every list of the store
  have still := stable_from_length (fun d l => isDecided (s.flattenList (d + 1) l))
    (List.range s.lists.size) ?mono ?step (d := k) (by rwa [List.length_range]) l
    (List.mem_range.mpr hl)
  case mono =>
    intro d l _ h
    rw [flattenList_deeper h]
    exact h
  case step =>
    intro d hsame l _
    refine Bool.eq_iff_iff.mpr ⟨fun h => ?_, fun h => by rw [flattenList_deeper h]; exact h⟩
    -- whatever list is met on the way, it was decided one step before already
    have hbefore : s.flattenList (d + 2) l = s.flattenList (d + 3) l := by
      rw [flattenList] at h
      rw [flattenList, flattenList]
      refine Value.flattenAllWith_decided _ (fun k _ hk => ?_) h
      rcases Nat.lt_or_ge k s.lists.size with hin | hout
      · rw [hsame k (List.mem_range.mpr hin)] at hk
        exact (flattenList_deeper hk).symm
      · rw [flattenList_of_size_le hout, flattenList_of_size_le hout]
    rw [hbefore]
    exact h
  rw [List.length_range] at still
  cases hdecided : isDecided (s.flattenList s.nesting l) with
  | true => exact flattenList_of_le hd hdecided
  | false =>
    have hundecided : isDecided (s.flattenList (k + 1) l) = false := still.trans hdecided
    rw [eq_endless_of_not_isDecided hdecided, eq_endless_of_not_isDecided hundecided]

/-- A list that flattens at any depth flattens at the depth that the store names. -/
theorem flattenList_nesting {s : Store} {d : Nat} {l : ListId} {ns : List NodeId}
    (hf : s.flattenList d l = .ok ns) : s.flattenList s.nesting l = .ok ns := by
  rcases Nat.le_total d s.nesting with hle | hge
  · rw [flattenList_of_le hle (by rw [hf]; rfl), hf]
  · rw [← flattenList_rest hge, hf]

/-- A later store flattens the same values to the same nodes, or neither store flattens them. -/
theorem flattenAll_extends {s t : Store} (hs : s.Closed) (h : s.Extends t) {xs : List Value}
    (hxs : ∀ x ∈ xs, s.Holds x) : (t.flattenAll xs).toOption = (s.flattenAll xs).toOption := by
  have hplace := hasPlace_of_cellsAll hxs
  have forth : ∀ {ns}, s.flattenAll xs = .ok ns → t.flattenAll xs = .ok ns := by
    intro ns hns
    unfold flattenAll at hns ⊢
    cases hf : Value.flattenAllWith (s.flattenList s.nesting) xs with
    | error stray => rw [hf] at hns; exact absurd hns (by simp)
    | ok ms =>
      rw [hf] at hns
      have ht : Value.flattenAllWith (t.flattenList t.nesting) xs = .ok ms :=
        Value.flattenAllWith_transfer xs (fun l hl ns =>
          flattenList_later hs h (Nat.succ_le_succ h.lists) (hplace _ hl)) hf
      rw [ht]
      exact hns
  have back : ∀ {ns}, t.flattenAll xs = .ok ns → s.flattenAll xs = .ok ns := by
    intro ns hns
    unfold flattenAll at hns ⊢
    cases hf : Value.flattenAllWith (t.flattenList t.nesting) xs with
    | error stray => rw [hf] at hns; exact absurd hns (by simp)
    | ok ms =>
      rw [hf] at hns
      have hs' : Value.flattenAllWith (s.flattenList s.nesting) xs = .ok ms :=
        Value.flattenAllWith_transfer xs (fun l hl ns hl' =>
          flattenList_nesting (flattenList_earlier hs h (hplace _ hl) hl')) hf
      rw [hs']
      exact hns
  cases hns : s.flattenAll xs with
  | ok ns => rw [forth hns]
  | error fault =>
    cases hms : t.flattenAll xs with
    | error fault' => rfl
    | ok ms =>
      rw [back hms] at hns
      exact absurd hns (by simp)

end Store

end SheetLint
