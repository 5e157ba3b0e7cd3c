import SheetLint.Proofs.Layering

/-!
# The laws of merging

Layers of settings are merged like layers of paint: it does not matter which of three neighbours are
merged first, to put the same layer on again changes nothing, and no layer at all changes nothing
either, once the linters are settled (`merge_laws`).

This holds up to equality of tables, which does not look at the order of entries. Tables are equal
as soon as the same is found in both at every key (`Data.same_table_of_get?`), so what has to be
compared are look-ups: in whole layers (`same_layers`), in their linters (`same_linters`) and in
sections, where the last one that says something counts, in whatever way they are grouped. The order
of the keys is told on its own: those below in their order, and after them the new ones above
(`Entries.keysOver`).
-/

namespace SheetLint

namespace Data

variable {es fs : List (Data × Data)}

/-- Tables are equal if at each key equal data are found in both, or nothing is. -/
theorem same_table_of_rel (hes : Entries.IsKeyed same IsKey es)
    (hfs : Entries.IsKeyed same IsKey fs)
    (h : ∀ k, Option.Rel (fun v w => same v w = true) (Entries.get? same k es)
      (Entries.get? same k fs)) : same (.table es) (.table fs) = true := by
  have forth : ∀ e ∈ es, ∃ f ∈ fs, same f.1 e.1 = true ∧ same e.2 f.2 = true := by
    intro e he
    have hrel := h e.1
    rw [hes.get?_of_mem he (same_refl e.1)] at hrel
    cases hfound : Entries.get? same e.1 fs with
    | none =>
      rw [hfound] at hrel
      cases hrel
    | some w =>
      rw [hfound] at hrel
      cases hrel with
      | some hw =>
        obtain ⟨f, hf, hkey, rfl⟩ := Entries.exists_of_get? hfound
        exact ⟨f, hf, hkey, hw⟩
  have back : ∀ f ∈ fs, ∃ e ∈ es, same e.1 f.1 = true := by
    intro f hf
    have hrel := h f.1
    rw [hfs.get?_of_mem hf (same_refl f.1)] at hrel
    cases hfound : Entries.get? same f.1 es with
    | none =>
      rw [hfound] at hrel
      cases hrel
    | some v =>
      obtain ⟨e, he, hkey, _⟩ := Entries.exists_of_get? hfound
      exact ⟨e, he, hkey⟩
  refine same_table.mpr ⟨Nat.le_antisymm ?_ ?_, fun e he => ?_⟩
  · exact keying.length_le hes hfs.isKey fun e he =>
      (forth e he).imp fun f hf => ⟨hf.1, hf.2.1⟩
  · exact keying.length_le hfs hes.isKey back
  · obtain ⟨f, hf, hkey, hvalue⟩ := forth e he
    exact ⟨f, hf, (hfs.isKey f hf).same_symm hkey, hvalue⟩

theorem rel_same_refl (v : Option Data) : Option.Rel (fun v w => same v w = true) v v := by
  cases v with
  | none => exact .none
  | some v => exact .some (same_refl v)

/-- Tables are equal if the same is found in both. -/
theorem same_table_of_get? (hes : Entries.IsKeyed same IsKey es)
    (hfs : Entries.IsKeyed same IsKey fs)
    (h : ∀ k, Entries.get? same k es = Entries.get? same k fs) :
    same (.table es) (.table fs) = true :=
  same_table_of_rel hes hfs fun k => h k ▸ rel_same_refl _

theorem WellKeyed.inner (h : WellKeyed (.table es)) : ∀ e ∈ es, WellKeyed e.2 := by
  cases h with
  | table keyed inner => exact inner
  | other shape => exact absurd rfl (shape es)

theorem WellKeyed.union (hes : WellKeyed (.table es)) (hfs : WellKeyed (.table fs)) :
    WellKeyed (.table (Entries.union same es fs)) :=
  .table (hes.keyed.union hfs.keyed.isKey) (Entries.forall_foldl_put hfs.inner hes.inner)

theorem WellKeyed.nil : WellKeyed (.table []) :=
  .table .nil fun e he => absurd he (by simp)

end Data

namespace Layers

variable {A B C S T : List (Data × Data)} {n : Data}

/-! ## Linters -/

/-- A table of linters whose sections are nothing, empty or tables. -/
structure IsLinters (ls : List (Data × Data)) : Prop where
  keyed : (Data.table ls).WellKeyed
  sections : ∀ e ∈ ls, e.2.truthy = true → ∃ es, e.2 = .table es

/-- A table of linters whose sections are all tables. -/
def AllSections (ls : List (Data × Data)) : Prop :=
  ∀ e ∈ ls, ∃ es, e.2 = .table es

/-- What a table of linters says about one of them. -/
def sectionAt (ls : List (Data × Data)) (n : Data) : List (Data × Data) :=
  (orEmpty (Entries.get? Data.same n ls)).entries

/-- Whether a table has something for a linter. -/
def names (ls : List (Data × Data)) (n : Data) : Bool :=
  (ls.map (·.1)).any (Data.same · n)

theorem IsLinters.nil : IsLinters [] :=
  ⟨.nil, fun e he => absurd he (by simp)⟩

/-- A section of linters that are all tables is its entries. -/
theorem IsLinters.sectionAt_eq (h : IsLinters A) (n : Data) :
    orEmpty (Entries.get? Data.same n A) = .table (sectionAt A n) := by
  unfold sectionAt
  cases hfound : Entries.get? Data.same n A with
  | none => rfl
  | some d =>
    by_cases hd : d.truthy = true
    · obtain ⟨e, he, _, rfl⟩ := Entries.exists_of_get? hfound
      obtain ⟨es, hes⟩ := h.sections e he hd
      rw [hes, orEmpty_table]
      rfl
    · rw [orEmpty_some, if_neg hd]
      rfl

theorem IsLinters.sectionAt_wellKeyed (h : IsLinters A) (n : Data) :
    (Data.table (sectionAt A n)).WellKeyed :=
  h.sectionAt_eq n ▸ orEmpty_wellKeyed fun _ hd => h.keyed.get? hd

/-- A linter is found if it is named, with its section. -/
theorem get?_of_allSections (h : AllSections A) (n : Data) : Entries.get? Data.same n A =
    if names A n then some (.table (sectionAt A n)) else none := by
  unfold sectionAt names
  rw [← Entries.isSome_get?]
  cases hfound : Entries.get? Data.same n A with
  | none => rfl
  | some d =>
    obtain ⟨e, he, _, rfl⟩ := Entries.exists_of_get? hfound
    obtain ⟨es, hes⟩ := h e he
    rw [hes, orEmpty_table]
    rfl

/-- Tables of linters are equal if they are about the same linters and say the same about each. -/
theorem same_linters (hS : IsLinters S) (hT : IsLinters T) (hS' : AllSections S)
    (hT' : AllSections T) (hnames : ∀ n, names S n = names T n)
    (hsections : ∀ n k, Entries.get? Data.same k (sectionAt S n) =
      Entries.get? Data.same k (sectionAt T n)) :
    Data.same (.table S) (.table T) = true := by
  refine Data.same_table_of_rel hS.keyed.keyed hT.keyed.keyed fun n => ?_
  rw [get?_of_allSections hS', get?_of_allSections hT', hnames]
  cases names T n with
  | false => exact .none
  | true =>
    exact .some (Data.same_table_of_get? (hS.sectionAt_wellKeyed n).keyed
      (hT.sectionAt_wellKeyed n).keyed (hsections n))

section Joined

variable (hA : IsLinters A) (hB : IsLinters B)
include hA hB

theorem sectionOf_eq (n : Data) :
    sectionOf A B n = .table (Entries.union Data.same (sectionAt A n) (sectionAt B n)) := by
  rw [sectionOf, hA.sectionAt_eq, hB.sectionAt_eq]
  rfl

theorem allSections_joinLinters : AllSections (joinLinters A B) :=
  Entries.forall_foldl_put (f := id) (g := sectionOf A B) (P := fun d => ∃ es, d = Data.table es)
    (fun n _ => ⟨_, sectionOf_eq hA hB n⟩) fun _ he => absurd he List.not_mem_nil

/-- The linters below come in their order, and after them the new ones above. -/
theorem keys_joinLinters : (joinLinters A B).map (·.1) =
    Entries.keysOver Data.same (A.map (·.1)) (B.map (·.1)) := by
  have hrow {row : List Data} (es : List (Data × Data))
      (hrow : row.Pairwise fun m n => Data.same m n = false) :
      (row.foldl (fun es n => Entries.put Data.same n (sectionOf A B n) es) es).map (·.1) =
        Entries.keysOver Data.same (es.map (·.1)) row := by
    have hkeys := Entries.keys_foldl_put (f := id) (g := sectionOf A B) es
      (List.map_id row ▸ hrow)
    rw [List.map_id] at hkeys
    exact hkeys
  rw [joinLinters, List.foldl_append, hrow _ hB.keyed.keyed.keys_apart,
    hrow _ hA.keyed.keyed.keys_apart]
  simp [Entries.keysOver]

/-- The linters of both layers are told apart, and all have sections. -/
theorem isLinters_joinLinters : IsLinters (joinLinters A B) where
  keyed := by
    refine .table (Entries.IsKeyed.nil.foldl_put (f := id) ?_)
      (Entries.forall_foldl_put (fun n _ => ?_) fun e he => absurd he (by simp))
    · intro n hn
      rcases List.mem_append.mp hn with hn | hn
      · obtain ⟨e, he, rfl⟩ := List.mem_map.mp hn
        exact hA.keyed.keyed.isKey e he
      · obtain ⟨e, he, rfl⟩ := List.mem_map.mp hn
        exact hB.keyed.keyed.isKey e he
    · rw [sectionOf_eq hA hB]
      exact (hA.sectionAt_wellKeyed n).union (hB.sectionAt_wellKeyed n)
  sections e he _ := allSections_joinLinters hA hB e he

theorem names_joinLinters (n : Data) : names (joinLinters A B) n = (names A n || names B n) := by
  rw [names, ← Entries.isSome_get?,
    get?_joinLinters hA.keyed.keyed.isKey hB.keyed.keyed.isKey, List.any_append]
  change (if (names A n || names B n) = true then some (sectionOf A B n) else none).isSome = _
  cases names A n || names B n <;> rfl

/-- The joined section of a linter is its section above written over the one below. -/
theorem sectionAt_joinLinters (n : Data) : sectionAt (joinLinters A B) n =
    Entries.union Data.same (sectionAt A n) (sectionAt B n) := by
  have hjoined := sectionOf_eq hA hB n
  rw [sectionAt, get?_joinLinters hA.keyed.keyed.isKey hB.keyed.keyed.isKey]
  split
  · rw [hjoined, orEmpty_table]
    rfl
  · rename_i hany
    rw [sectionOf_of_absent (Bool.eq_false_iff.mpr hany)] at hjoined
    exact Data.table.inj hjoined

theorem get?_sectionAt_joinLinters (n k : Data) :
    Entries.get? Data.same k (sectionAt (joinLinters A B) n) =
      (Entries.get? Data.same k (sectionAt B n)).or (Entries.get? Data.same k (sectionAt A n)) := by
  rw [sectionAt_joinLinters hA hB, Data.keying.get?_union (hB.sectionAt_wellKeyed n).keyed
    (hA.sectionAt_wellKeyed n).keyed.isKey]

end Joined

/-- The linters of three layers are the same whichever two are joined first. -/
theorem joinLinters_assoc (hA : IsLinters A) (hB : IsLinters B) (hC : IsLinters C) :
    Data.same (.table (joinLinters (joinLinters A B) C))
      (.table (joinLinters A (joinLinters B C))) = true := by
  have hAB := isLinters_joinLinters hA hB
  have hBC := isLinters_joinLinters hB hC
  refine same_linters (isLinters_joinLinters hAB hC) (isLinters_joinLinters hA hBC)
    (allSections_joinLinters hAB hC) (allSections_joinLinters hA hBC) (fun n => ?_) fun n k => ?_
  · rw [names_joinLinters hAB hC, names_joinLinters hA hB, names_joinLinters hA hBC,
      names_joinLinters hB hC, Bool.or_assoc]
  · rw [get?_sectionAt_joinLinters hAB hC, get?_sectionAt_joinLinters hA hB,
      get?_sectionAt_joinLinters hA hBC, get?_sectionAt_joinLinters hB hC, Option.or_assoc]

/-- Linters that were joined already are not changed by what is above them. -/
theorem joinLinters_again (hA : IsLinters A) (hB : IsLinters B) :
    Data.same (.table (joinLinters (joinLinters A B) B)) (.table (joinLinters A B)) = true := by
  have hAB := isLinters_joinLinters hA hB
  refine same_linters (isLinters_joinLinters hAB hB) hAB (allSections_joinLinters hAB hB)
    (allSections_joinLinters hA hB) (fun n => ?_) fun n k => ?_
  · rw [names_joinLinters hAB hB, names_joinLinters hA hB, Bool.or_assoc, Bool.or_self]
  · rw [get?_sectionAt_joinLinters hAB hB, get?_sectionAt_joinLinters hA hB, ← Option.or_assoc,
      Option.or_self]

theorem joinLinters_nil (hA : IsLinters A) (hA' : AllSections A) :
    Data.same (.table (joinLinters A [])) (.table A) = true := by
  refine same_linters (isLinters_joinLinters hA .nil) hA (allSections_joinLinters hA .nil) hA'
    (fun n => ?_) fun n k => ?_
  · rw [names_joinLinters hA .nil]
    exact Bool.or_false _
  · rw [get?_sectionAt_joinLinters hA .nil]
    rfl

theorem nil_joinLinters (hA : IsLinters A) (hA' : AllSections A) :
    Data.same (.table A) (.table (joinLinters [] A)) = true := by
  refine same_linters hA (isLinters_joinLinters .nil hA) hA' (allSections_joinLinters .nil hA)
    (fun n => ?_) fun n k => ?_
  · rw [names_joinLinters .nil hA]
    exact (Bool.false_or _).symm
  · rw [get?_sectionAt_joinLinters .nil hA]
    exact (Option.or_none ..).symm

/-! ## Whole layers -/

/-- A layer whose linters are nothing, empty or a table, with sections that are so too. -/
structure IsLayer (layer : List (Data × Data)) : Prop where
  keyed : (Data.table layer).WellKeyed
  fit : LintersFit layer
  sections : ∀ e ∈ (linters layer).entries, e.2.truthy = true → ∃ es, e.2 = .table es

/-- A layer whose linters are a table, with sections that are tables too. -/
def IsSettled (layer : List (Data × Data)) : Prop :=
  ∃ ls, Data.lookup Settings.lintersKey layer = some (.table ls) ∧ AllSections ls

variable {a b c d : List (Data × Data)}

theorem IsLayer.isLinters (h : IsLayer a) : IsLinters (linters a).entries :=
  ⟨linters_eq h.fit ▸ linters_wellKeyed h.keyed, h.sections⟩

theorem IsLayer.nil : IsLayer [] where
  keyed := .nil
  fit v hv := absurd hv (by simp [Data.lookup, Entries.get?])
  sections e he := absurd he (List.not_mem_nil)

theorem linters_of_lookup {ls : List (Data × Data)}
    (h : Data.lookup Settings.lintersKey a = some (.table ls)) : linters a = .table ls := by
  rw [linters, h, orEmpty_table]

/-- A layer with a table of linters. -/
theorem IsLayer.of_lookup {ls : List (Data × Data)} (hkeyed : (Data.table a).WellKeyed)
    (hls : Data.lookup Settings.lintersKey a = some (.table ls))
    (hsections : ∀ e ∈ ls, e.2.truthy = true → ∃ es, e.2 = .table es) : IsLayer a where
  keyed := hkeyed
  fit v hv _ := ⟨ls, Option.some.inj (hv.symm.trans hls)⟩
  sections := by
    rw [linters_of_lookup hls]
    exact hsections

/-- Layers are equal if their linters are and the same is found in both at every other key. -/
theorem same_layers (ha : (Data.table a).WellKeyed) (hb : (Data.table b).WellKeyed)
    (hA : Data.lookup Settings.lintersKey a = some (.table A))
    (hB : Data.lookup Settings.lintersKey b = some (.table B))
    (hlinters : Data.same (.table A) (.table B) = true)
    (hothers : ∀ k, Data.same (.text Settings.lintersKey) k = false →
      Entries.get? Data.same k a = Entries.get? Data.same k b) :
    Data.same (.table a) (.table b) = true := by
  refine Data.same_table_of_rel ha.keyed hb.keyed fun k => ?_
  cases hk : Data.same (.text Settings.lintersKey) k with
  | true =>
    rw [Data.same_text.mp hk]
    change Option.Rel _ (Data.lookup Settings.lintersKey a) (Data.lookup Settings.lintersKey b)
    rw [hA, hB]
    exact .some hlinters
  | false => exact hothers k hk ▸ Data.rel_same_refl _

section Merged

variable (ha : IsLayer a) (hb : IsLayer b)
include ha hb

theorem lookup_linters_merge : Data.lookup Settings.lintersKey (merge a b) =
    some (.table (joinLinters (linters a).entries (linters b).entries)) :=
  (get?_merge ha.keyed hb.keyed ha.fit hb.fit _).trans (if_pos (Data.same_text.mpr rfl))

theorem linters_merge :
    linters (merge a b) = .table (joinLinters (linters a).entries (linters b).entries) :=
  linters_of_lookup (lookup_linters_merge ha hb)

theorem get?_merge_of_ne {k : Data} (hk : Data.same (.text Settings.lintersKey) k = false) :
    Entries.get? Data.same k (merge a b) =
      (Entries.get? Data.same k b).or (Entries.get? Data.same k a) :=
  (get?_merge ha.keyed hb.keyed ha.fit hb.fit k).trans (if_neg (by simp [hk]))

theorem isSettled_merge : IsSettled (merge a b) :=
  ⟨_, lookup_linters_merge ha hb, allSections_joinLinters ha.isLinters hb.isLinters⟩

/-- One layer over another is a layer. -/
theorem isLayer_merge : IsLayer (merge a b) where
  keyed := by
    have hunion := ha.keyed.union hb.keyed
    have hjoined := (isLinters_joinLinters ha.isLinters hb.isLinters).keyed
    rw [merge_eq ha.fit hb.fit]
    exact .table (hunion.keyed.put (.text _) _) (Entries.forall_put hjoined hunion.inner)
  fit v hv _ := ⟨_, Option.some.inj (hv.symm.trans (lookup_linters_merge ha hb))⟩
  sections := by
    rw [linters_merge ha hb]
    exact (isLinters_joinLinters ha.isLinters hb.isLinters).sections

/-- To put the upper one of two layers on once more changes nothing. -/
theorem merge_again : Data.same (.table (merge (merge a b) b)) (.table (merge a b)) = true := by
  have hab := isLayer_merge ha hb
  refine same_layers (isLayer_merge hab hb).keyed hab.keyed (lookup_linters_merge hab hb)
    (lookup_linters_merge ha hb) ?_ fun k hk => ?_
  · rw [linters_merge ha hb]
    exact joinLinters_again ha.isLinters hb.isLinters
  · rw [get?_merge_of_ne hab hb hk, get?_merge_of_ne ha hb hk, ← Option.or_assoc, Option.or_self]

/-- The keys of merged layers: those below in their order, the new ones above in theirs, and the
linters if neither layer has any. -/
theorem keys_merge : (merge a b).map (·.1) =
    Entries.keysOver Data.same (a.map (·.1)) (b.map (·.1)) ++
      if Data.lookup Settings.lintersKey a = none ∧ Data.lookup Settings.lintersKey b = none then
        [.text Settings.lintersKey]
      else [] := by
  have hkeys : (Entries.union Data.same a b).map (·.1) = _ := Entries.keys_union hb.keyed.keyed
  have hfound := Data.keying.get?_union (j := .text Settings.lintersKey) hb.keyed.keyed
    ha.keyed.keyed.isKey
  rw [merge_eq ha.fit hb.fit, Entries.keys_put, ← Entries.isSome_get?, hfound, hkeys]
  change (if ((Data.lookup Settings.lintersKey b).or (Data.lookup Settings.lintersKey a)).isSome
    then _ else _) = _
  cases Data.lookup Settings.lintersKey a <;> cases Data.lookup Settings.lintersKey b <;> simp

end Merged

/-- Three layers come to the same whichever two are merged first. -/
theorem merge_assoc (ha : IsLayer a) (hb : IsLayer b) (hc : IsLayer c) :
    Data.same (.table (merge (merge a b) c)) (.table (merge a (merge b c))) = true := by
  have hab := isLayer_merge ha hb
  have hbc := isLayer_merge hb hc
  refine same_layers (isLayer_merge hab hc).keyed (isLayer_merge ha hbc).keyed
    (lookup_linters_merge hab hc) (lookup_linters_merge ha hbc) ?_ fun k hk => ?_
  · rw [linters_merge ha hb, linters_merge hb hc]
    exact joinLinters_assoc ha.isLinters hb.isLinters hc.isLinters
  · rw [get?_merge_of_ne hab hc hk, get?_merge_of_ne ha hb hk, get?_merge_of_ne ha hbc hk,
      get?_merge_of_ne hb hc hk, Option.or_assoc]

/-- An empty layer above a settled one changes nothing. -/
theorem merge_nil (ha : IsLayer a) (hsettled : IsSettled a) :
    Data.same (.table (merge a [])) (.table a) = true := by
  obtain ⟨ls, hls, htables⟩ := hsettled
  have hlinters := linters_of_lookup hls
  have hfit := ha.isLinters
  rw [hlinters] at hfit
  refine same_layers (isLayer_merge ha .nil).keyed ha.keyed (lookup_linters_merge ha .nil) hls
    (hlinters ▸ joinLinters_nil hfit htables) fun k hk => ?_
  exact get?_merge_of_ne ha .nil hk

/-- Nor does an empty one below it. -/
theorem nil_merge (ha : IsLayer a) (hsettled : IsSettled a) :
    Data.same (.table a) (.table (merge [] a)) = true := by
  obtain ⟨ls, hls, htables⟩ := hsettled
  have hlinters := linters_of_lookup hls
  have hfit := ha.isLinters
  rw [hlinters] at hfit
  refine same_layers ha.keyed (isLayer_merge .nil ha).keyed hls (lookup_linters_merge .nil ha)
    (hlinters ▸ nil_joinLinters hfit htables) fun k hk => ?_
  rw [get?_merge_of_ne .nil ha hk]
  exact (Option.or_none ..).symm

open Entries in
/-- Layers can be merged in any grouping, the same layer can be put on again, what was merged is
settled, and what is settled is not changed by an empty layer above or below. The keys of merged
layers, of their linters and of every section are those below, followed by the new ones above; the
linters come last if they are in neither layer. -/
theorem merge_laws (ha : IsLayer a) (hb : IsLayer b) (hc : IsLayer c) :
    Data.same (.table (merge (merge a b) c)) (.table (merge a (merge b c))) = true ∧
    Data.same (.table (merge (merge a b) b)) (.table (merge a b)) = true ∧
    IsSettled (merge a b) ∧
    (IsSettled a → Data.same (.table (merge a [])) (.table a) = true ∧
      Data.same (.table a) (.table (merge [] a)) = true) ∧
    (merge a b).map (·.1) = keysOver Data.same (a.map (·.1)) (b.map (·.1)) ++
      (if Data.lookup Settings.lintersKey a = none ∧ Data.lookup Settings.lintersKey b = none then
        [.text Settings.lintersKey]
      else []) ∧
    ∃ ls, Data.lookup Settings.lintersKey (merge a b) = some (.table ls) ∧
      ls.map (·.1) = keysOver Data.same ((linters a).entries.map (·.1))
        ((linters b).entries.map (·.1)) ∧
      ∀ e ∈ ls, ∃ es, e.2 = .table es ∧ es.map (·.1) =
        keysOver Data.same ((sectionIn a e.1).entries.map (·.1))
          ((sectionIn b e.1).entries.map (·.1)) := by
  refine ⟨merge_assoc ha hb hc, merge_again ha hb, isSettled_merge ha hb,
    fun hsettled => ⟨merge_nil ha hsettled, nil_merge ha hsettled⟩, keys_merge ha hb, _,
    lookup_linters_merge ha hb, keys_joinLinters ha.isLinters hb.isLinters, fun e he => ?_⟩
  have hjoined := isLinters_joinLinters ha.isLinters hb.isLinters
  obtain ⟨es, hes⟩ := allSections_joinLinters ha.isLinters hb.isLinters e he
  refine ⟨es, hes, ?_⟩
  have hsection : sectionAt (joinLinters (linters a).entries (linters b).entries) e.1 = es := by
    rw [sectionAt, hjoined.keyed.keyed.get?_of_mem he (Data.same_refl e.1), hes, orEmpty_table]
    rfl
  rw [← hsection, sectionAt_joinLinters ha.isLinters hb.isLinters,
    keys_union (hb.isLinters.sectionAt_wellKeyed e.1).keyed]
  rfl

end Layers

/-- Packaged settings with a section that is nothing. -/
def packagedLayer : List (Data × Data) :=
  [(.text "parent_policy", .text "strict"),
    (.text "linters", .table
      [(.text "A", .table [(.text "enabled", .bool false)]), (.text "B", .null)])]

/-- A project that has something to say about the same linters in another order. -/
def projectLayer : List (Data × Data) :=
  [(.text "linters", .table [(.text "B", .table [(.text "severity", .text "error")]),
    (.text "A", .table [(.text "severity", .text "warning"), (.text "enabled", .bool true)])])]

/-- A layer with nothing as its linters. -/
def bareLayer : List (Data × Data) :=
  [(.text "width", .int 80), (.text "linters", .null)]

open Layers in
/-- The linters keep the order of the packaged settings, and so do the keys of their sections. -/
theorem merge_laws_packaged : IsLayer packagedLayer ∧ IsLayer projectLayer ∧ IsLayer bareLayer ∧
    Data.same (.table (merge (merge packagedLayer projectLayer) bareLayer))
      (.table (merge packagedLayer (merge projectLayer bareLayer))) = true ∧
    IsSettled (merge packagedLayer projectLayer) ∧
    (merge packagedLayer projectLayer).map (·.1) = [.text "parent_policy", .text "linters"] := by
  have hpackaged : IsLayer packagedLayer := by
    refine .of_lookup (.ofTexts [("parent_policy", .text "strict"), ("linters", .table _)]
      (by decide) ?_)
      (by simp [Data.lookup, packagedLayer, Entries.get?, Settings.lintersKey]; rfl) ?_
    · simp only [List.forall_mem_cons]
      refine ⟨.other (by simp), .ofTexts [("A", .table _), ("B", .null)] (by decide) ?_, by simp⟩
      simp only [List.forall_mem_cons]
      refine ⟨.ofTexts [("enabled", .bool false)] (by decide) ?_, .other (by simp), by simp⟩
      exact List.forall_mem_singleton.mpr (.other (by simp))
    · simp [Data.truthy]
  have hproject : IsLayer projectLayer := by
    refine .of_lookup (.ofTexts [("linters", .table _)] (by decide) ?_)
      (by simp [Data.lookup, projectLayer, Entries.get?, Settings.lintersKey]; rfl) ?_
    · refine List.forall_mem_singleton.mpr
        (.ofTexts [("B", .table _), ("A", .table _)] (by decide) ?_)
      simp only [List.forall_mem_cons]
      refine ⟨.ofTexts [("severity", .text "error")] (by decide) ?_,
        .ofTexts [("severity", .text "warning"), ("enabled", .bool true)] (by decide) ?_, by simp⟩
      · exact List.forall_mem_singleton.mpr (.other (by simp))
      · simp only [List.forall_mem_cons]
        exact ⟨.other (by simp), .other (by simp), by simp⟩
    · simp
  have hbare : IsLayer bareLayer := by
    refine ⟨.ofTexts [("width", .int 80), ("linters", .null)] (by decide) ?_,
      fun v hv htrue => ?_, ?_⟩
    · simp only [List.forall_mem_cons]
      exact ⟨.other (by simp), .other (by simp), by simp⟩
    · have hnull : Data.lookup Settings.lintersKey bareLayer = some .null := by
        simp [Data.lookup, bareLayer, Entries.get?, Settings.lintersKey]
      obtain rfl := Option.some.inj (hv.symm.trans hnull)
      simp [Data.truthy] at htrue
    · simp [linters, bareLayer, Data.lookup, Entries.get?, Settings.lintersKey, orEmpty,
        Data.truthy, Data.entries]
  obtain ⟨hassoc, -, hsettled, -, hkeys, -⟩ := merge_laws hpackaged hproject hbare
  refine ⟨hpackaged, hproject, hbare, hassoc, hsettled, hkeys.trans ?_⟩
  simp [packagedLayer, projectLayer, Entries.keysOver, Data.lookup, Entries.get?,
    Settings.lintersKey]

end SheetLint
