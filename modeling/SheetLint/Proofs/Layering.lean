import SheetLint.Proofs.DataKeys
import SheetLint.Proofs.Keyed
import SheetLint.Settings.Layers

/-!
# What layered settings say

One layer of settings over another, looked up as settings are: what a key or a linter comes to is
decided by one rule of precedence. The layer above counts where it says something, and else the one
below; sections of linters are joined key by key, unless one of the two is something else than a
table (`section_merge`). Everything that settings are asked for follows from this and from what the
joined section says (`layered_settings`).

The layers are tables of plain data, whose keys can be keys and are told apart (`Data.WellKeyed`).
-/

namespace SheetLint

namespace Data

theorem keying : Entries.Keying same IsKey where
  symm := IsKey.same_symm
  trans := IsKey.same_trans

/-- Tables within tables, all of them with keys that can be keys and are told apart. -/
inductive WellKeyed : Data → Prop
  | table {es : List (Data × Data)} (keyed : Entries.IsKeyed same IsKey es)
    (inner : ∀ e ∈ es, WellKeyed e.2) : WellKeyed (.table es)
  | other {d : Data} (shape : ∀ es, d ≠ .table es) : WellKeyed d

variable {d k : Data} {es : List (Data × Data)}

theorem WellKeyed.keyed (h : WellKeyed (.table es)) : Entries.IsKeyed same IsKey es := by
  cases h with
  | table keyed inner => exact keyed
  | other shape => exact absurd rfl (shape es)

theorem WellKeyed.get? (h : WellKeyed (.table es)) (hd : Entries.get? same k es = some d) :
    d.WellKeyed := by
  cases h with
  | table keyed inner =>
    obtain ⟨e, he, _, rfl⟩ := Entries.exists_of_get? hd
    exact inner e he
  | other shape => exact absurd rfl (shape es)

/-- Different texts make up the keys of a table. -/
theorem WellKeyed.ofTexts (es : List (String × Data)) (hkeys : (es.map (·.1)).Nodup)
    (hinner : ∀ e ∈ es, WellKeyed e.2) :
    WellKeyed (.table (es.map fun e => (.text e.1, e.2))) := by
  refine .table ⟨fun e he => ?_, ?_⟩ fun e he => ?_
  · obtain ⟨f, _, rfl⟩ := List.mem_map.mp he
    exact .text f.1
  · refine List.pairwise_map.mpr ((List.pairwise_map.mp hkeys).imp fun {e f} hne => ?_)
    rw [same_text_text]
    exact beq_false_of_ne hne
  · obtain ⟨f, hf, rfl⟩ := List.mem_map.mp he
    exact hinner f hf

/-- The word that a datum is compared as: its text in lower case. What holds a number of too many
digits has no text and is no word. -/
def word? (d : Data) : Option String :=
  if d.printable then some (Text.lower d.bare) else none

/-- Nothing else than digits is in the way of a word. -/
theorem reading_word? (d : Data) : Reading.data.word? d = .ok d.word? := by
  unfold Reading.word? word?
  cases hprint : d.printable <;> simp [Reading.data, hprint]

/-- The entries of a table, and none of anything else. -/
def entries : Data → List (Data × Data)
  | .table es => es
  | _ => []

theorem table?_getD (d : Data) : (Reading.data.table? d).getD [] = d.entries := by
  cases d <;> rfl

end Data

namespace Layers

variable {below above : List (Data × Data)} {d k : Data} {es : List (Data × Data)}

theorem orEmpty_some (d : Data) : orEmpty (some d) = if d.truthy then d else .table [] := rfl

/-- An empty table is one that counts as empty. -/
@[simp] theorem orEmpty_table (es : List (Data × Data)) :
    orEmpty (some (.table es)) = .table es := by
  cases es with
  | nil => rfl
  | cons e es => rfl

/-- What is found counts as empty or is well keyed. -/
theorem orEmpty_wellKeyed {found : Option Data} (h : ∀ d, found = some d → d.WellKeyed) :
    (orEmpty found).WellKeyed := by
  have hempty : (Data.table []).WellKeyed := .table .nil fun e he => absurd he (by simp)
  cases found with
  | none => exact hempty
  | some d =>
    rw [orEmpty_some]
    split
    · exact h d rfl
    · exact hempty

/-- What layers say under the key of the linters is nothing, empty or a table. -/
def LintersFit (layer : List (Data × Data)) : Prop :=
  ∀ v, Data.lookup Settings.lintersKey layer = some v → v.truthy = true → ∃ ls, v = .table ls

/-- The section of a linter in a layer: an empty table where nothing is said. -/
def sectionIn (layer : List (Data × Data)) (linter : Data) : Data :=
  orEmpty (Entries.get? Data.same linter (linters layer).entries)

/-- Where what is said of the linters fits, they are a table. -/
theorem linters_eq (h : LintersFit es) : linters es = .table (linters es).entries := by
  unfold linters
  cases hv : Data.lookup Settings.lintersKey es with
  | none => rfl
  | some v =>
    by_cases hfull : v.truthy = true
    · obtain ⟨ls, rfl⟩ := h v hv hfull
      rw [orEmpty_table]
      rfl
    · rw [orEmpty_some, if_neg hfull]
      rfl

theorem linters_wellKeyed (h : (Data.table es).WellKeyed) : (linters es).WellKeyed :=
  orEmpty_wellKeyed fun _ hd => h.get? hd

/-- The linters of a layer can be looked up. -/
theorem linters_keyed (h : (Data.table es).WellKeyed) :
    Entries.IsKeyed Data.same Data.IsKey (linters es).entries := by
  have hlinters := linters_wellKeyed h
  cases hls : linters es with
  | table ls => exact (hls ▸ hlinters).keyed
  | _ => exact .nil

/-- The section of a linter is well keyed, as all tables in the layer are. -/
theorem sectionIn_wellKeyed (h : (Data.table es).WellKeyed) (linter : Data) :
    (sectionIn es linter).WellKeyed := by
  refine orEmpty_wellKeyed fun d hd => ?_
  have hlinters := linters_wellKeyed h
  cases hls : linters es with
  | table ls =>
    rw [hls] at hd hlinters
    exact hlinters.get? hd
  | _ => simp [hls, Data.entries, Entries.get?] at hd

/-! ## The linters of both layers -/

/-- What is joined for a linter depends on nothing but its name as a key. -/
theorem sectionOf_same {a : Data} (hbelow : ∀ e ∈ below, Data.IsKey e.1)
    (habove : ∀ e ∈ above, Data.IsKey e.1) (ha : a.IsKey) (hak : Data.same a k = true) :
    sectionOf below above a = sectionOf below above k := by
  unfold sectionOf
  rw [Data.keying.get?_same hbelow ha hak, Data.keying.get?_same habove ha hak]

/-- What no layer has a section for has an empty one. -/
theorem sectionOf_of_absent
    (h : (below.map (·.1) ++ above.map (·.1)).any (Data.same · k) = false) :
    sectionOf below above k = .table [] := by
  rw [List.any_append, Bool.or_eq_false_iff] at h
  simp only [List.any_map, List.any_eq_false, Function.comp_apply, Bool.not_eq_true] at h
  unfold sectionOf
  rw [Entries.get?_eq_none.mpr h.1, Entries.get?_eq_none.mpr h.2]
  rfl

/-- A linter has the joined section of both layers, or none where neither has one. -/
theorem get?_joinLinters (hbelow : ∀ e ∈ below, Data.IsKey e.1)
    (habove : ∀ e ∈ above, Data.IsKey e.1) (k : Data) :
    Entries.get? Data.same k (joinLinters below above) =
      if (below.map (·.1) ++ above.map (·.1)).any (Data.same · k) then
        some (sectionOf below above k)
      else none := by
  have hkeys : ∀ n ∈ below.map (·.1) ++ above.map (·.1), Data.IsKey n := by
    intro n hn
    rcases List.mem_append.mp hn with hn | hn
    · obtain ⟨e, he, rfl⟩ := List.mem_map.mp hn
      exact hbelow e he
    · obtain ⟨e, he, rfl⟩ := List.mem_map.mp hn
      exact habove e he
  exact Data.keying.get?_foldl_put hkeys
    (fun n hn hnk => sectionOf_same hbelow habove (hkeys n hn) hnk) fun e he => absurd he (by simp)

/-! ## What is merged -/

variable {d o : List (Data × Data)}

theorem merge_eq (hd : LintersFit d) (ho : LintersFit o) : merge d o =
    Entries.put Data.same (.text Settings.lintersKey)
      (.table (joinLinters (linters d).entries (linters o).entries))
      (Entries.union Data.same d o) := by
  unfold merge
  rw [linters_eq hd, linters_eq ho]
  rfl

section

variable (hd : (Data.table d).WellKeyed) (ho : (Data.table o).WellKeyed) (hdl : LintersFit d)
  (hol : LintersFit o)
include hd ho hdl hol

/-- What is found at a key of merged layers. -/
theorem get?_merge (k : Data) : Entries.get? Data.same k (merge d o) =
    if Data.same (.text Settings.lintersKey) k then
      some (.table (joinLinters (linters d).entries (linters o).entries))
    else (Entries.get? Data.same k o).or (Entries.get? Data.same k d) := by
  have hkeys : ∀ e ∈ Entries.union Data.same d o, Data.IsKey e.1 :=
    Entries.isKey_union hd.keyed.isKey ho.keyed.isKey
  rw [merge_eq hdl hol, Data.keying.get?_put (.text _) hkeys,
    Data.keying.get?_union ho.keyed hd.keyed.isKey]

/-- A text other than the key of the linters has what the layer above says, and else the one below.
-/
theorem lookup_merge {name : String} (hname : name ≠ Settings.lintersKey) :
    Data.lookup name (merge d o) = (Data.lookup name o).or (Data.lookup name d) := by
  have hother : ¬Data.same (.text Settings.lintersKey) (.text name) = true := by
    intro hsame
    exact hname (Data.text.inj (Data.same_text.mp hsame))
  exact (get?_merge hd ho hdl hol (.text name)).trans (if_neg hother)

/-- The section of a linter in merged layers is what its sections in both come to. -/
theorem section_merge (linter : Data) :
    Settings.sectionOf Reading.data (merge d o) linter =
      (joinSections (sectionIn d linter) (sectionIn o linter)).entries := by
  have hlinters : Data.lookup Settings.lintersKey (merge d o) =
      some (.table (joinLinters (linters d).entries (linters o).entries)) :=
    (get?_merge hd ho hdl hol _).trans (if_pos (Data.same_text.mpr rfl))
  have hsections : Settings.sections? Reading.data (merge d o) =
      some (joinLinters (linters d).entries (linters o).entries) := by
    unfold Settings.sections?
    rw [show Reading.data.lookupText (merge d o) Settings.lintersKey = _ from hlinters]
    rfl
  have hfound := get?_joinLinters (linters_keyed hd).isKey (linters_keyed ho).isKey linter
  change _ = (sectionOf (linters d).entries (linters o).entries linter).entries
  unfold Settings.sectionOf
  rw [hsections, Option.getD_some,
    show Reading.data.lookup (joinLinters _ _) linter = _ from hfound]
  cases hany : ((linters d).entries.map (·.1) ++ (linters o).entries.map (·.1)).any
    (Data.same · linter) with
  | true =>
    rw [if_pos rfl, Option.bind_some]
    exact Data.table?_getD _
  | false =>
    -- no layer has the linter, so nothing is found, which reads as the empty section
    rw [sectionOf_of_absent hany]
    rfl

end

/-- A section is a table or counts as true. -/
theorem sectionIn_cases (layer : List (Data × Data)) (linter : Data) :
    (∃ es, sectionIn layer linter = .table es) ∨ (sectionIn layer linter).truthy = true := by
  unfold sectionIn
  cases Entries.get? Data.same linter (linters layer).entries with
  | none => exact .inl ⟨[], rfl⟩
  | some d =>
    by_cases hd : d.truthy = true
    · rw [orEmpty_some, if_pos hd]
      exact .inr hd
    · rw [orEmpty_some, if_neg hd]
      exact .inl ⟨[], rfl⟩

/-- Where a section is something else than a table, only that of the layer above counts. -/
theorem joinSections_of_noTable {x y : Data} (hy : (∃ es, y = .table es) ∨ y.truthy = true)
    (h : ∀ b a, ¬(x = .table b ∧ y = .table a)) : (joinSections x y).entries = y.entries := by
  have hjoin : joinSections x y = if y.truthy then y else x := by
    unfold joinSections
    split
    · exact absurd ⟨rfl, rfl⟩ (h _ _)
    · rfl
  rw [hjoin]
  rcases hy with ⟨a, rfl⟩ | hy
  · cases a with
    | cons e es => rfl
    | nil =>
      -- what is below an empty table is then no table
      cases x with
      | table b => exact absurd ⟨rfl, rfl⟩ (h b [])
      | _ => rfl
  · rw [if_pos hy]

end Layers

/-! ## What is decided -/

section

variable {V : Type} {vs : List V} {word : V → String} (hall : ∀ v, v ∈ vs)
include hall

/-- In a list of everything that has a word, what is found by a word is what has it. -/
theorem bind_find?_word (hword : Function.Injective word) {text? : Option String} {v : V} :
    (text?.bind fun text => vs.find? fun v => word v == text) = some v ↔
      text? = some (word v) := by
  rw [Option.bind_eq_some_iff]
  constructor
  · rintro ⟨text, rfl, h⟩
    have hfound := List.find?_some h
    exact congrArg some (eq_of_beq hfound).symm
  · rintro rfl
    refine ⟨word v, rfl, ?_⟩
    cases hfound : vs.find? (fun w => word w == word v) with
    | none =>
      have hnot := List.find?_eq_none.mp hfound v (hall v)
      exact absurd (beq_self_eq_true (word v)) hnot
    | some w =>
      have hw := List.find?_some hfound
      rw [hword (eq_of_beq hw)]

/-- Nothing is found by what is no word of anything. -/
theorem bind_find?_word_none {text? : Option String} :
    (text?.bind fun text => vs.find? fun v => word v == text) = none ↔
      ∀ v, text? ≠ some (word v) := by
  rw [Option.bind_eq_none_iff]
  constructor
  · rintro h v rfl
    have hnot := List.find?_eq_none.mp (h (word v) rfl) v (hall v)
    exact hnot (beq_self_eq_true (word v))
  · rintro h text rfl
    refine List.find?_eq_none.mpr fun v _ hv => h v ?_
    exact congrArg some (eq_of_beq hv).symm

end

theorem Severity.mem_all (s : Severity) : s ∈ [warning, error] := by cases s <;> simp

theorem Severity.word_injective : Function.Injective word := by
  intro a b h
  cases a <;> cases b <;> first | rfl | exact absurd h (by decide)

theorem ParentPolicy.mem_all (p : ParentPolicy) : p ∈ [refresh, strict] := by cases p <;> simp

theorem ParentPolicy.word_injective : Function.Injective word := by
  intro a b h
  cases a <;> cases b <;> first | rfl | exact absurd h (by decide)

namespace Settings

/-- Settings as they are made, depending on what their entries have as a parent policy. -/
inductive PolicyDecided (entries : List (Data × Data)) :
    Option Data → Settings Data → List (Warning Data) → Prop where
  | unset : PolicyDecided entries none ⟨entries, .refresh⟩ []
  | known {v : Data} {p : ParentPolicy} (word : v.word? = some p.word) :
    PolicyDecided entries (some v) ⟨entries, p⟩ []
  | unknown {v : Data} (word : ∀ p : ParentPolicy, v.word? ≠ some p.word) :
    PolicyDecided entries (some v) ⟨entries, .refresh⟩ [.unknownPolicy v]

/-- The severity of a linter, depending on what its section has as one. -/
inductive SeverityDecided (linter : String) (fallback : Severity) :
    Option Data → Severity → List (Warning Data) → Prop where
  | unset : SeverityDecided linter fallback none fallback []
  | null : SeverityDecided linter fallback (some .null) fallback []
  | known {v : Data} {s : Severity} (word : v.word? = some s.word) :
    SeverityDecided linter fallback (some v) s []
  | unknown {v : Data} (present : v ≠ .null) (word : ∀ s : Severity, v.word? ≠ some s.word) :
    SeverityDecided linter fallback (some v) fallback
      [.unknownSeverity v (.text linter) fallback.word]

/-- Settings can be made of any entries. -/
theorem exists_policyDecided (entries : List (Data × Data)) :
    ∃ c ws, ofEntries Reading.data entries = .ok (c, ws) ∧
      PolicyDecided entries (Data.lookup policyKey entries) c ws := by
  unfold ofEntries choosePolicy
  rw [show Reading.data.lookupText entries policyKey = Data.lookup policyKey entries from rfl]
  cases Data.lookup policyKey entries with
  | none => exact ⟨_, _, rfl, .unset⟩
  | some v =>
    simp only [Data.reading_word?]
    cases hword : v.word?.bind ParentPolicy.ofWord? with
    | some p =>
      exact ⟨_, _, rfl, .known ((bind_find?_word ParentPolicy.mem_all
        ParentPolicy.word_injective).mp hword)⟩
    | none => exact ⟨_, _, rfl, .unknown ((bind_find?_word_none ParentPolicy.mem_all).mp hword)⟩

/-- A linter has a severity, whatever its section says. -/
theorem exists_severityDecided (c : Settings Data) (linter : String) (fallback : Severity) :
    ∃ s ws, c.severity Reading.data (.text linter) fallback = .ok (s, ws) ∧
      SeverityDecided linter fallback
        (Data.lookup "severity" (sectionOf Reading.data c.entries (.text linter))) s ws := by
  unfold severity severityIn
  rw [show Reading.data.lookupText (sectionOf Reading.data c.entries (.text linter)) "severity" =
    Data.lookup "severity" (sectionOf Reading.data c.entries (.text linter)) from rfl]
  cases Data.lookup "severity" (sectionOf Reading.data c.entries (.text linter)) with
  | none => exact ⟨_, _, rfl, .unset⟩
  | some v =>
    by_cases hnull : v = .null
    · subst hnull
      exact ⟨_, _, rfl, .null⟩
    · have hpresent : Reading.data.isNull v = false := by
        cases v <;> first | rfl | exact absurd rfl hnull
      simp only [hpresent, Bool.false_eq_true, ↓reduceIte, Data.reading_word?]
      cases hword : v.word?.bind Severity.ofWord? with
      | some s =>
        exact ⟨_, _, rfl, .known ((bind_find?_word Severity.mem_all
          Severity.word_injective).mp hword)⟩
      | none =>
        exact ⟨_, _, rfl, .unknown hnull ((bind_find?_word_none Severity.mem_all).mp hword)⟩

theorem enabled_eq (c : Settings Data) (linter : Data) : c.enabled Reading.data linter =
    (Data.lookup "enabled" (sectionOf Reading.data c.entries linter)).elim true Data.truthy := by
  unfold enabled enabledIn
  rw [show Reading.data.lookupText (sectionOf Reading.data c.entries linter) "enabled" =
    Data.lookup "enabled" (sectionOf Reading.data c.entries linter) from rfl]
  cases Data.lookup "enabled" (sectionOf Reading.data c.entries linter) <;> rfl

theorem PolicyDecided.entries_eq {entries : List (Data × Data)} {said : Option Data}
    {c : Settings Data} {ws : List (Warning Data)} (h : PolicyDecided entries said c ws) :
    c.entries = entries := by
  cases h <;> rfl

end Settings

open Layers in
/-- Settings can be made of any two layers. The parent policy is what the layer above says, or else
the one below. The section of a linter has the keys of both its sections, if both are tables, with
the value above where there is one; whether the linter is enabled and how serious its lints are is
decided by what this section has. Otherwise it is the section above, as far as that is a table. -/
theorem layered_settings (d o : List (Data × Data)) (hd : (Data.table d).WellKeyed)
    (ho : (Data.table o).WellKeyed) (hdl : LintersFit d) (hol : LintersFit o) :
    ∃ c ws, Settings.ofEntries Reading.data (merge d o) = .ok (c, ws) ∧
      Settings.PolicyDecided (merge d o)
        ((Data.lookup Settings.policyKey o).or (Data.lookup Settings.policyKey d)) c ws ∧
      ∀ n : String,
        (∀ b a, sectionIn d (.text n) = .table b → sectionIn o (.text n) = .table a →
          (∀ k, Entries.get? Data.same k (Settings.sectionOf Reading.data c.entries (.text n)) =
            (Entries.get? Data.same k a).or (Entries.get? Data.same k b)) ∧
          c.enabled Reading.data (.text n) =
            ((Data.lookup "enabled" a).or (Data.lookup "enabled" b)).elim true Data.truthy ∧
          ∀ fallback, ∃ s warnings,
            c.severity Reading.data (.text n) fallback = .ok (s, warnings) ∧
            Settings.SeverityDecided n fallback
              ((Data.lookup "severity" a).or (Data.lookup "severity" b)) s warnings) ∧
        ((∀ b a, ¬(sectionIn d (.text n) = .table b ∧ sectionIn o (.text n) = .table a)) →
          Settings.sectionOf Reading.data c.entries (.text n) =
            (sectionIn o (.text n)).entries) := by
  obtain ⟨c, ws, hc, hpolicy⟩ := Settings.exists_policyDecided (merge d o)
  have hentries := hpolicy.entries_eq
  rw [lookup_merge hd ho hdl hol (by decide)] at hpolicy
  refine ⟨c, ws, hc, hpolicy, fun n => ?_⟩
  have hsection := section_merge hd ho hdl hol (.text n)
  rw [← hentries] at hsection
  constructor
  · intro b a hb ha
    have hkeyed : ∀ k, Entries.get? Data.same k
        (Settings.sectionOf Reading.data c.entries (.text n)) =
          (Entries.get? Data.same k a).or (Entries.get? Data.same k b) := by
      intro k
      have hkb := (hb ▸ sectionIn_wellKeyed hd (.text n)).keyed
      have hka := (ha ▸ sectionIn_wellKeyed ho (.text n)).keyed
      rw [hsection, hb, ha]
      exact Data.keying.get?_union hka hkb.isKey k
    refine ⟨hkeyed, ?_, fun fallback => ?_⟩
    · rw [Settings.enabled_eq]
      exact congrArg (Option.elim · true Data.truthy) (hkeyed (.text "enabled"))
    · have hseverity := Settings.exists_severityDecided c n fallback
      rwa [show Data.lookup "severity" (Settings.sectionOf Reading.data c.entries (.text n)) = _
        from hkeyed (.text "severity")] at hseverity
  · intro h
    rw [hsection]
    exact joinSections_of_noTable (sectionIn_cases o (.text n)) h

/-- Settings in which a linter is switched off and its lints are errors. -/
def strictDefaults : List (Data × Data) :=
  [(.text "parent_policy", .text "strict"),
    (.text "linters", .table [(.text "A", .table [(.text "enabled", .bool false),
      (.text "severity", .text "error")])])]

/-- A project in which the lints of the linter are warnings again. -/
def mildProject : List (Data × Data) :=
  [(.text "linters", .table [(.text "A", .table [(.text "severity", .text "Warning")])])]

open Layers in
/-- The linter stays switched off, under the policy of the defaults. -/
theorem layered_settings_mild : (Data.table strictDefaults).WellKeyed ∧
    (Data.table mildProject).WellKeyed ∧ LintersFit strictDefaults ∧ LintersFit mildProject ∧
    ∃ c ws, Settings.ofEntries Reading.data (merge strictDefaults mildProject) = .ok (c, ws) ∧
      Settings.PolicyDecided (merge strictDefaults mildProject) (some (.text "strict")) c ws ∧
      c.enabled Reading.data (.text "A") = false ∧
      ∃ s warnings, c.severity Reading.data (.text "A") .error = .ok (s, warnings) ∧
        Settings.SeverityDecided "A" .error (some (.text "Warning")) s warnings := by
  have hlower : Data.lookup Settings.lintersKey strictDefaults = some (.table [(.text "A",
      .table [(.text "enabled", .bool false), (.text "severity", .text "error")])]) := by
    simp [Data.lookup, strictDefaults, Entries.get?, Settings.lintersKey]
  have hupper : Data.lookup Settings.lintersKey mildProject = some (.table
      [(.text "A", .table [(.text "severity", .text "Warning")])]) := by
    simp [Data.lookup, mildProject, Entries.get?, Settings.lintersKey]
  have hd : (Data.table strictDefaults).WellKeyed := by
    refine .ofTexts [("parent_policy", .text "strict"), ("linters", .table _)] (by decide) ?_
    simp only [List.forall_mem_cons]
    refine ⟨.other (by simp), .ofTexts [("A", .table _)] (by decide) ?_, by simp⟩
    simp only [List.forall_mem_cons]
    refine ⟨.ofTexts [("enabled", .bool false), ("severity", .text "error")] (by decide) ?_,
      by simp⟩
    simp only [List.forall_mem_cons]
    exact ⟨.other (by simp), .other (by simp), by simp⟩
  have ho : (Data.table mildProject).WellKeyed := by
    refine .ofTexts [("linters", .table _)] (by decide) ?_
    simp only [List.forall_mem_cons]
    refine ⟨.ofTexts [("A", .table _)] (by decide) ?_, by simp⟩
    simp only [List.forall_mem_cons]
    refine ⟨.ofTexts [("severity", .text "Warning")] (by decide) ?_, by simp⟩
    simp only [List.forall_mem_cons]
    exact ⟨.other (by simp), by simp⟩
  have hdl : LintersFit strictDefaults := fun v hv _ => ⟨_, Option.some.inj (hv.symm.trans hlower)⟩
  have hol : LintersFit mildProject := fun v hv _ => ⟨_, Option.some.inj (hv.symm.trans hupper)⟩
  obtain ⟨c, ws, hc, hpolicy, hsections⟩ :=
    layered_settings strictDefaults mildProject hd ho hdl hol
  have hstrict : (Data.lookup Settings.policyKey mildProject).or
      (Data.lookup Settings.policyKey strictDefaults) = some (.text "strict") := by
    simp [Data.lookup, mildProject, strictDefaults, Entries.get?, Settings.policyKey]
  refine ⟨hd, ho, hdl, hol, c, ws, hc, hstrict ▸ hpolicy, ?_⟩
  have hb : sectionIn strictDefaults (.text "A") =
      .table [(.text "enabled", .bool false), (.text "severity", .text "error")] := by
    simp [sectionIn, linters, hlower, Data.entries, Entries.get?]
  have ha : sectionIn mildProject (.text "A") = .table [(.text "severity", .text "Warning")] := by
    simp [sectionIn, linters, hupper, Data.entries, Entries.get?]
  obtain ⟨-, henabled, hseverity⟩ := (hsections "A").1 _ _ hb ha
  constructor
  · rw [henabled]
    simp [Data.lookup, Entries.get?, Data.truthy]
  · have hchosen := hseverity .error
    rwa [show (Data.lookup "severity" [(.text "severity", .text "Warning")]).or _ =
      some (.text "Warning") by simp [Data.lookup, Entries.get?]] at hchosen

end SheetLint
