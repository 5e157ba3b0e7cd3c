import SheetLint.Entries

/-!
# Entries that are told apart by their keys

Which keys count as the same is a parameter of entries. Where this is symmetric and transitive on
what can be a key (`Entries.Keying`), writing at a key changes what is found there and nothing else
(`get?_put`). Entries written over others come first (`get?_union`): this needs the new ones to have
different keys, while the old ones may be any. In order, the keys are the old ones and after them
the new ones (`keysOver`).
-/

namespace SheetLint.Entries

variable {κ : Type u} {α : Type v} {same : κ → κ → Bool} {IsKey : κ → Prop}

/-- What a comparison of keys has to fulfil on what can be a key. -/
structure Keying (same : κ → κ → Bool) (IsKey : κ → Prop) : Prop where
  symm : ∀ {a b}, IsKey a → same a b = true → same b a = true
  trans : ∀ {a b c}, IsKey a → same a b = true → same b c = true → same a c = true

/-- Entries as they come about by writing: the keys can be keys, and no two are the same. -/
structure IsKeyed (same : κ → κ → Bool) (IsKey : κ → Prop) (es : List (κ × α)) : Prop where
  isKey : ∀ e ∈ es, IsKey e.1
  apart : es.Pairwise fun e f => same e.1 f.1 = false

theorem IsKeyed.nil : IsKeyed same IsKey ([] : List (κ × α)) :=
  ⟨fun _ he => absurd he (by simp), .nil⟩

/-- Where something is found there is an entry with the same key. -/
theorem exists_of_get? {k : κ} {v : α} {es : List (κ × α)} (h : get? same k es = some v) :
    ∃ e ∈ es, same e.1 k = true ∧ e.2 = v := by
  induction es with
  | nil => simp [get?] at h
  | cons e es ih =>
    rw [get?] at h
    split at h
    · rename_i hkey
      exact ⟨e, List.mem_cons_self .., hkey, Option.some.inj h⟩
    · obtain ⟨f, hf, hfound⟩ := ih h
      exact ⟨f, List.mem_cons_of_mem _ hf, hfound⟩

/-- Nothing is found at a key that is the same as no key of a table. -/
theorem get?_eq_none {k : κ} {es : List (κ × α)} :
    get? same k es = none ↔ ∀ e ∈ es, same e.1 k = false := by
  induction es with
  | nil => simp [get?]
  | cons e es ih =>
    rw [get?, List.forall_mem_cons]
    cases hkey : same e.1 k with
    | false => simp [ih]
    | true => simp

/-- What is put at a key leaves all keys ones that can be keys. -/
theorem isKey_put {k : κ} (hk : IsKey k) (v : α) {es : List (κ × α)} (hes : ∀ e ∈ es, IsKey e.1) :
    ∀ e ∈ put same k v es, IsKey e.1 := by
  induction es with
  | nil =>
    intro e he
    rw [List.mem_singleton.mp he]
    exact hk
  | cons e es ih =>
    obtain ⟨he, hrest⟩ := List.forall_mem_cons.mp hes
    rw [put]
    split
    · exact List.forall_mem_cons.mpr ⟨he, hrest⟩
    · exact List.forall_mem_cons.mpr ⟨he, ih hrest⟩

theorem isKey_union {old new : List (κ × α)} (hold : ∀ e ∈ old, IsKey e.1)
    (hnew : ∀ e ∈ new, IsKey e.1) : ∀ e ∈ union same old new, IsKey e.1 := by
  induction new generalizing old with
  | nil => exact hold
  | cons e new ih =>
    obtain ⟨he, hrest⟩ := List.forall_mem_cons.mp hnew
    exact ih (isKey_put he e.2 hold) hrest

namespace Keying

variable (L : Keying same IsKey) {k : κ} {v : α} {es new old : List (κ × α)}
include L

/-- The same is found at keys that are the same. -/
theorem get?_same {a b : κ} (hes : ∀ e ∈ es, IsKey e.1) (ha : IsKey a) (hab : same a b = true) :
    get? same a es = get? same b es := by
  induction es with
  | nil => rfl
  | cons e es ih =>
    obtain ⟨he, hrest⟩ := List.forall_mem_cons.mp hes
    have hiff : same e.1 a = same e.1 b := by
      rw [Bool.eq_iff_iff]
      exact ⟨fun h => L.trans he h hab, fun h => L.symm ha (L.trans ha hab (L.symm he h))⟩
    rw [get?, get?, hiff, ih hrest]

/-- What was written is found at its key, and at all other keys what was there. -/
theorem get?_put (hk : IsKey k) (hes : ∀ e ∈ es, IsKey e.1) (j : κ) :
    get? same j (put same k v es) = if same k j then some v else get? same j es := by
  induction es with
  | nil => rfl
  | cons e es ih =>
    obtain ⟨he, hrest⟩ := List.forall_mem_cons.mp hes
    rw [put]
    by_cases hek : same e.1 k = true
    · -- the entry keeps its key, which is the same as the one that was written
      have hiff : same e.1 j = same k j := by
        rw [Bool.eq_iff_iff]
        exact ⟨fun h => L.trans hk (L.symm he hek) h, fun h => L.trans he hek h⟩
      rw [if_pos hek, get?, get?, hiff]
      split <;> rfl
    · rw [if_neg hek, get?, get?, ih hrest]
      by_cases hej : same e.1 j = true
      · have hkj : ¬same k j = true := fun hkj => hek (L.trans he hej (L.symm hk hkj))
        rw [if_pos hej, if_neg hkj]
        exact (if_pos hej).symm
      · rw [if_neg hej]
        split <;> rfl

/-- What is written over others comes first. -/
theorem get?_union (hnew : IsKeyed same IsKey new) (hold : ∀ e ∈ old, IsKey e.1) (j : κ) :
    get? same j (union same old new) = (get? same j new).or (get? same j old) := by
  induction new generalizing old with
  | nil => rfl
  | cons e new ih =>
    obtain ⟨he, hrest⟩ := List.forall_mem_cons.mp hnew.isKey
    obtain ⟨hfirst, hapart⟩ := List.pairwise_cons.mp hnew.apart
    have hput := L.get?_put (v := e.2) he hold j
    rw [union, List.foldl_cons, ← union, ih ⟨hrest, hapart⟩ (isKey_put he e.2 hold), hput, get?]
    by_cases hej : same e.1 j = true
    · -- none of the later entries is written at the key of this one
      have hnone : get? same j new = none := by
        refine get?_eq_none.mpr fun f hf => ?_
        cases hfj : same f.1 j with
        | false => rfl
        | true =>
          have hef := L.trans he hej (L.symm (hrest f hf) hfj)
          rw [hfirst f hf] at hef
          exact absurd hef (by simp)
      rw [if_pos hej, if_pos hej, hnone, Option.none_or, Option.some_or]
    · rw [if_neg hej, if_neg hej]

/-- A row of keys, each written with what it stands for: whatever stands for the last counts, and
keys that are the same stand for the same. -/
theorem get?_foldl_put {f : κ → α} {names : List κ} {j : κ} (hnames : ∀ n ∈ names, IsKey n)
    (hf : ∀ n ∈ names, same n j = true → f n = f j) (hold : ∀ e ∈ old, IsKey e.1) :
    get? same j (names.foldl (fun es n => put same n (f n) es) old) =
      if names.any (same · j) then some (f j) else get? same j old := by
  induction names generalizing old with
  | nil => rfl
  | cons n names ih =>
    obtain ⟨hn, hrest⟩ := List.forall_mem_cons.mp hnames
    obtain ⟨hfn, hfrest⟩ := List.forall_mem_cons.mp hf
    rw [List.foldl_cons, ih hrest hfrest (isKey_put hn (f n) hold), L.get?_put hn hold,
      List.any_cons]
    cases hnj : same n j with
    | false => rw [Bool.false_or, if_neg (by simp : ¬false = true)]
    | true => rw [Bool.true_or, hfn hnj, if_pos rfl, ite_self]

end Keying

/-! ## The keys in order -/

/-- The keys of entries that were written over others: those that were there in their order, and
after them the new ones in theirs. -/
def keysOver (same : κ → κ → Bool) (below above : List κ) : List κ :=
  below ++ above.filter fun k => !below.any (same · k)

/-- Where something is found at a key, there is an entry with the key. -/
theorem isSome_get? (k : κ) (es : List (κ × α)) :
    (get? same k es).isSome = (es.map (·.1)).any (same · k) := by
  induction es with
  | nil => rfl
  | cons e es ih =>
    rw [get?, List.map_cons, List.any_cons]
    cases same e.1 k with
    | true => rfl
    | false => rw [← ih, Bool.false_or, if_neg (by simp)]

/-- An entry is what is found at its key. -/
theorem IsKeyed.get?_of_mem {es : List (κ × α)} (hes : IsKeyed same IsKey es) {e : κ × α}
    (he : e ∈ es) (hself : same e.1 e.1 = true) : get? same e.1 es = some e.2 := by
  have hapart := hes.apart
  clear hes
  induction es with
  | nil => exact absurd he (by simp)
  | cons f es ih =>
    obtain ⟨hfirst, hrest⟩ := List.pairwise_cons.mp hapart
    rw [get?]
    rcases List.mem_cons.mp he with rfl | he
    · rw [if_pos hself]
    · rw [hfirst e he, if_neg (by simp), ih he hrest]

/-- Putting adds a key at the end, unless there is one that counts as the same. -/
theorem keys_put (k : κ) (v : α) (es : List (κ × α)) :
    (put same k v es).map (·.1) =
      if (es.map (·.1)).any (same · k) then es.map (·.1) else es.map (·.1) ++ [k] := by
  induction es with
  | nil => rfl
  | cons e es ih =>
    rw [put, List.map_cons, List.any_cons]
    cases same e.1 k with
    | true => rfl
    | false =>
      rw [if_neg (by simp), List.map_cons, ih, Bool.false_or]
      split <;> rfl

section Rows

variable {β : Type w} {f : β → κ} {g : β → α} {xs : List β} {es : List (κ × α)}

/-- A row of different keys that are written comes after what was there, as far as it is new. -/
theorem keys_foldl_put (es : List (κ × α))
    (hapart : (xs.map f).Pairwise fun k l => same k l = false) :
    (xs.foldl (fun es x => put same (f x) (g x) es) es).map (·.1) =
      keysOver same (es.map (·.1)) (xs.map f) := by
  induction xs generalizing es with
  | nil => simp [keysOver]
  | cons x xs ih =>
    obtain ⟨hx, hxs⟩ := List.pairwise_cons.mp hapart
    rw [List.foldl_cons, ih _ hxs, keys_put, keysOver, keysOver, List.map_cons, List.filter_cons]
    cases hany : (es.map (·.1)).any (same · (f x)) with
    | true => simp
    | false =>
      -- the key that was added tells nothing about the later ones, which are all different from it
      have hlater : (xs.map f).filter (fun k => !(es.map (·.1) ++ [f x]).any (same · k)) =
          (xs.map f).filter fun k => !(es.map (·.1)).any (same · k) := by
        refine List.filter_congr fun k hk => ?_
        rw [List.any_append, List.any_cons, List.any_nil, hx k hk, Bool.or_self, Bool.or_false]
      rw [if_neg (by simp), hlater, if_pos (by simp), List.append_assoc, List.singleton_append]

/-- What holds of the old values and the new one holds of all values after putting. -/
theorem forall_put {P : α → Prop} {k : κ} {v : α} (hv : P v) (hes : ∀ e ∈ es, P e.2) :
    ∀ e ∈ put same k v es, P e.2 := by
  induction es with
  | nil =>
    intro e he
    rw [List.mem_singleton.mp he]
    exact hv
  | cons e es ih =>
    obtain ⟨he, hrest⟩ := List.forall_mem_cons.mp hes
    rw [put]
    split
    · exact List.forall_mem_cons.mpr ⟨hv, hrest⟩
    · exact List.forall_mem_cons.mpr ⟨he, ih hrest⟩

theorem forall_foldl_put {P : α → Prop} (hxs : ∀ x ∈ xs, P (g x)) (hes : ∀ e ∈ es, P e.2) :
    ∀ e ∈ xs.foldl (fun es x => put same (f x) (g x) es) es, P e.2 := by
  induction xs generalizing es with
  | nil => exact hes
  | cons x xs ih =>
    obtain ⟨hx, hrest⟩ := List.forall_mem_cons.mp hxs
    exact ih hrest (forall_put hx hes)

theorem IsKeyed.keys_apart (hes : IsKeyed same IsKey es) :
    (es.map (·.1)).Pairwise fun a b => same a b = false :=
  List.pairwise_map.mpr hes.apart

/-- Putting keeps keys apart. -/
theorem IsKeyed.put {k : κ} (hk : IsKey k) (v : α) (hes : IsKeyed same IsKey es) :
    IsKeyed same IsKey (put same k v es) := by
  refine ⟨isKey_put hk v hes.isKey, ?_⟩
  have hapart := hes.keys_apart
  have hkeys : ((Entries.put same k v es).map (·.1)).Pairwise fun a b => same a b = false := by
    rw [keys_put]
    split
    · exact hapart
    · rename_i hnew
      rw [List.any_eq_true] at hnew
      refine List.pairwise_append.mpr ⟨hapart, List.pairwise_singleton .., fun j hj l hl => ?_⟩
      rw [List.mem_singleton.mp hl]
      exact Bool.eq_false_iff.mpr fun hsame => hnew ⟨j, hj, hsame⟩
  exact List.pairwise_map.mp hkeys

theorem IsKeyed.foldl_put (hxs : ∀ x ∈ xs, IsKey (f x)) (hes : IsKeyed same IsKey es) :
    IsKeyed same IsKey (xs.foldl (fun es x => Entries.put same (f x) (g x) es) es) := by
  induction xs generalizing es with
  | nil => exact hes
  | cons x xs ih =>
    obtain ⟨hx, hrest⟩ := List.forall_mem_cons.mp hxs
    exact ih hrest (hes.put hx (g x))

end Rows

theorem IsKeyed.union {old new : List (κ × α)} (hold : IsKeyed same IsKey old)
    (hnew : ∀ e ∈ new, IsKey e.1) : IsKeyed same IsKey (union same old new) :=
  IsKeyed.foldl_put (f := Prod.fst) (g := Prod.snd) hnew hold

theorem keys_union {old new : List (κ × α)} (hnew : IsKeyed same IsKey new) :
    (union same old new).map (·.1) = keysOver same (old.map (·.1)) (new.map (·.1)) :=
  keys_foldl_put (f := Prod.fst) (g := Prod.snd) old hnew.keys_apart

/-- There are no more entries than others that have all their keys. -/
theorem Keying.length_le (L : Keying same IsKey) {es fs : List (κ × α)}
    (hes : IsKeyed same IsKey es) (hfs : ∀ f ∈ fs, IsKey f.1)
    (h : ∀ e ∈ es, ∃ f ∈ fs, same f.1 e.1 = true) : es.length ≤ fs.length := by
  induction es generalizing fs with
  | nil => exact Nat.zero_le _
  | cons e es ih =>
    obtain ⟨⟨f, hf, hfe⟩, hrest⟩ := List.forall_mem_cons.mp h
    obtain ⟨_, hkeys⟩ := List.forall_mem_cons.mp hes.isKey
    obtain ⟨hfirst, hapart⟩ := List.pairwise_cons.mp hes.apart
    obtain ⟨before, after, rfl⟩ := List.append_of_mem hf
    -- the entry with the first key has none of the other keys, which are different from it
    have hothers : ∀ d ∈ es, ∃ g ∈ before ++ after, same g.1 d.1 = true := by
      intro d hd
      obtain ⟨g, hg, hgd⟩ := hrest d hd
      rw [List.mem_append, List.mem_cons] at hg
      rcases hg with hg | rfl | hg
      · exact ⟨g, List.mem_append_left _ hg, hgd⟩
      · have hed := L.trans (hes.isKey e (List.mem_cons_self ..)) (L.symm (hfs g hf) hfe) hgd
        rw [hfirst d hd] at hed
        exact absurd hed (by simp)
      · exact ⟨g, List.mem_append_right _ hg, hgd⟩
    have hlength := ih ⟨hkeys, hapart⟩ (fun g hg => hfs g ?_) hothers
    · simp only [List.length_append, List.length_cons] at hlength ⊢
      omega
    · rcases List.mem_append.mp hg with hg | hg
      · exact List.mem_append_left _ hg
      · exact List.mem_append_right _ (List.mem_cons_of_mem _ hg)

end SheetLint.Entries
