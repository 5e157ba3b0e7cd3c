import SheetLint.Proofs.Findings
import SheetLint.Proofs.Keys
import SheetLint.Proofs.Ranks

/-!
# A document is linted in any order

An `Inspection` is a document that is about to be linted in a file under settings, in the store as
it is before. What a linter finds in it (`Inspection.findings`) is a matter of that store alone.
While the linters take their turns the document settles, and `Inspection.Gathered` is what holds of
the lints that are there: each is that of a linter that had its turn, and no two have a mark in
common.

The lints are then sorted by location and name of the linter. Lints that agree in both are of one
linter and stay in its order, so the order in which the linters had their turns cannot be told from
the result (`lint_perm`).
-/

namespace SheetLint

open Store

/-- A whole number. -/
def Value.IsWhole (v : Value) : Prop := ∃ i : Int, v = .int i

/-- A whole number, as it is. -/
def Value.whole : Value → Int
  | .int i => i
  | _ => 0

theorem Value.IsWhole.eq {v : Value} (h : v.IsWhole) : v = .int v.whole := by
  obtain ⟨i, rfl⟩ := h
  rfl

/-- The mark of a lint. -/
def Value.lintMark : Value → Nat
  | .lint mark .. => mark
  | _ => 0

/-- A document to be linted in a file under settings, by linters of these names. Its lines and
columns are whole numbers, where they are there. -/
structure Inspection where
  start : Store
  root : NodeId
  settings : Value
  file : Value
  name : AgentId → String
  sound : start.Sound
  tree : start.TreeFrom root
  whole : ∀ n, start.Below root n → ∀ v,
    v = (start.node n).position.line ∨ v = (start.node n).position.column →
      v.isNull = false → v.IsWhole
  holds_settings : start.Holds settings
  holds_file : start.Holds file

namespace Inspection

variable (D : Inspection) {i : AgentId} {u : Store}

/-- A linter can take part if it is plain, and has its name. -/
structure Takes (i : AgentId) : Prop where
  plain : D.start.IsPlain Value.IsWhole i
  named : D.start.getAttribute (.agent i) "name" = .ok (.text (D.name i))

/-- What one linter has to do. -/
def job (h : D.Takes i) : Job where
  start := D.start
  root := D.root
  linter := i
  file := D.file
  Part := Value.IsWhole
  sound := D.sound
  tree := D.tree
  works := h.plain
  one := ⟨1, rfl⟩
  located := D.whole

/-- Whether a linter is enabled. -/
def enabled? (i : AgentId) : Option Bool :=
  ((Document.isEnabled D.settings (.agent i)).perform D.start).1.toOption

/-- What the lints of a linter say. -/
def lints? (i : AgentId) : Option (List (Option Report)) :=
  ((Document.runOne (.agent i) (.node D.root) D.file).perform D.start).1.toOption.map
    (·.map Value.report?)

/-- What a linter adds to the lints of a document. -/
def findings (i : AgentId) : Option (List (Option Report)) :=
  (D.enabled? i).bind fun isEnabled =>
    if isEnabled then (D.lints? i).map (keepFirst D.start.sameReport []) else some []

variable {D}

theorem Takes.holds (h : D.Takes i) : D.start.Holds (.agent i) := (D.job h).holds_linter

/-! ## One linter -/

/-- Whether a linter is enabled can be told in every store that follows. -/
theorem isEnabled_follows (h : D.Takes i) (hu : D.start.Follows u) :
    ((Document.isEnabled D.settings (.agent i)).perform u).1.toOption = D.enabled? i ∧
      ((Document.isEnabled D.settings (.agent i)).perform u).2 = u := by
  have hs := D.sound.closed
  constructor
  · refine Edit.sameResult_tryRead_bind (toOption_getAttribute hs hu D.holds_settings
      (by decide : "is_linter_enabled" ∉ changingNames)) fun _ _ => ?_
    refine Edit.sameResult_tryRead_bind (toOption_getAttribute hs hu h.holds
      (by decide : "name" ∉ changingNames)) fun name hname => ?_
    have hheld := Linter.getAttribute_agent_held hs h.holds (by decide) (by decide) hname
    refine Edit.sameResult_tryRead_bind (toOption_settingsTable hs hu D.holds_settings
      (by decide : "is_linter_enabled" ∉ changingNames)) fun _ _ => ?_
    refine Edit.sameResult_tryRead_bind (toOption_sectionOf hs hu D.holds_settings hheld)
      fun own hown => ?_
    unfold Edit.SameResult
    rw [Edit.perform_bind_ok (Edit.perform_get u), Edit.perform_bind_ok (Edit.perform_get D.start),
      hu.extends_.agrees.enabledIn (sectionOf_held hs hown)]
    rfl
  · have hR : Edit.IsLater fun s t : Store => t = s := ⟨fun _ => rfl, fun h h' => h'.trans h⟩
    refine Edit.moves_bind hR (Edit.moves_tryRead hR _) (fun _ => ?_) u
    refine Edit.moves_bind hR (Edit.moves_tryRead hR _) fun _ => ?_
    refine Edit.moves_bind hR (Edit.moves_tryRead hR _) fun _ => ?_
    refine Edit.moves_bind hR (Edit.moves_tryRead hR _) fun _ => ?_
    exact Edit.moves_bind hR (Edit.moves_read hR id) fun _ => Edit.moves_pure hR _

/-- The turn of a linter is its run, unless something hides that. -/
theorem perform_runOne (h : u.IsLinter i) (root file : Value) :
    (Document.runOne (.agent i) root file).perform u =
      match u.checkMethod (.agent i) "run" with
      | .ok _ => (Linter.run i root file).perform u
      | .error fault => (.error fault, u) := by
  obtain ⟨⟨role, notes, parent, backing⟩, l, ha, rfl, _⟩ := h
  unfold Document.runOne
  rw [Edit.perform_bind_ok (Edit.perform_get u), Edit.perform_bind, Edit.perform_tryRead]
  cases u.checkMethod (.agent i) "run" with
  | error fault => rfl
  | ok _ => simp only [ha]

/-- Whenever its turn comes, a linter fails, or its lints say the same. -/
theorem runOne_settling (h : D.Takes i) (hu : D.start.Settling D.root u) :
    match (Document.runOne (.agent i) (.node D.root) D.file).perform u with
    | (.error _, _) => D.lints? i = none
    | (.ok xs, u') => D.lints? i = some (xs.map Value.report?) ∧
        D.start.Settling D.root u' ∧ (D.job h).Made u.marks u'.marks xs := by
  have hrefl : D.start.Settling D.root D.start := .refl D.tree
  have hlinter := h.plain.isLinter
  have hcheck := toOption_checkMethod D.sound.closed hu.follows h.holds
    (by decide : "run" ∉ changingNames)
  have hsettles := Linter.run_settles D.sound.closed D.tree hu hlinter .refl D.file
  have hruns := (D.job h).run_tallies hu hrefl
  unfold lints?
  rw [perform_runOne (Linter.isLinter_follows hu.follows hlinter), perform_runOne hlinter]
  rcases fail_or_agree hcheck with ⟨_, _, hcu, hcs⟩ | ⟨_, hcu, hcs⟩
  · rw [hcu, hcs]
    rfl
  · rw [hcu, hcs]
    simp only [job] at hruns
    revert hruns hsettles
    -- Both runs tally, so one fails exactly if the other does.
    cases (Linter.run i (.node D.root) D.file).perform u with
    | mk x u' =>
      cases (Linter.run i (.node D.root) D.file).perform D.start with
      | mk y t =>
        cases x with
        | error fault =>
          cases y with
          | error fault' => exact fun _ _ => rfl
          | ok ys => exact fun _ h => h.elim
        | ok xs =>
          cases y with
          | error fault' => exact fun _ h => h.elim
          | ok ys =>
            rintro hsettles ⟨hsame, hmade, _⟩
            refine ⟨?_, hsettles, hmade⟩
            simp only [Except.toOption, Option.map_some]
            rw [hsame]

/-! ## One linter after the other -/

/-- What a lint of a linter says. -/
structure Finds (D : Inspection) (i : AgentId) (r : Report) : Prop where
  takes : D.Takes i
  linter : r.linter = .agent i
  file : r.file = D.file
  present : D.file.isMissing = false
  whole : ∀ v ∈ [r.line, r.column, r.length], v.IsWhole

/-- The lints that are there when some linters had their turns. -/
structure Gathered (D : Inspection) (done : List AgentId) (u : Store) (found : List Value) :
    Prop where
  settling : D.start.Settling D.root u
  finds : ∀ x ∈ found, ∃ i ∈ done, ∃ r mark, x = r.lint mark ∧ D.Finds i r ∧ mark + 2 ≤ u.marks
  apart : (found.map Value.lintMark).Nodup

/-- The lints that a run made are findings of the linter, with marks of their own. -/
theorem made_finds (h : D.Takes i) {first last : Nat} {xs : List Value}
    (hmade : (D.job h).Made first last xs) : ∀ x ∈ xs, ∃ r mark, x = r.lint mark ∧ D.Finds i r ∧
      (D.job h).Says r ∧ first ≤ mark + 1 ∧ mark + 2 ≤ last := by
  intro x hx
  obtain ⟨r, mark, rfl, hr, hfirst, hlast⟩ := hmade.mem x hx
  refine ⟨r, mark, rfl, ⟨h, hr.linter, hr.file, ?_, hr.parts⟩, hr, hfirst, hlast⟩
  have hfile : r.file = D.file := hr.file
  rw [← hfile]
  exact hr.present

/-- Lints that were made one after the other have growing marks. -/
theorem made_pairwise {J : Job} {first last : Nat} {xs : List Value}
    (h : J.Made first last xs) : xs.Pairwise fun x y => x.lintMark < y.lintMark := by
  induction h with
  | nil _ => exact .nil
  | cons _ _ hxs ih =>
    refine .cons (fun y hy => ?_) ih
    obtain ⟨r, mark, rfl, _, hfirst, _⟩ := hxs.mem y hy
    show _ + 1 < mark + 1
    omega

/-- Which lints of a linter are kept is a matter of what they say. -/
theorem map_keepFirst_lints (h : D.Takes i) (hu : D.start.Extends u) {first last : Nat}
    {xs vs : List Value} (hmade : (D.job h).Made first last xs) (hvs : ∀ x ∈ xs, x ∈ vs) :
    (keepFirst (u.sameMemberTo (u.depthAmong vs)) [] xs).map Value.report? =
      keepFirst D.start.sameReport [] (xs.map Value.report?) := by
  refine map_keepFirst ?_
  refine (List.Pairwise.and_mem.mp (made_pairwise hmade)).imp fun {x y} ⟨hx, hy, hlt⟩ => ?_
  have hx' := hvs x hx
  have hy' := hvs y hy
  obtain ⟨r, mark, rfl, _, hr, _⟩ := made_finds h hmade x hx
  obtain ⟨r', mark', rfl, _, hr', _⟩ := made_finds h hmade y hy
  have hparts : ∀ v, v.IsWhole → D.start.Holds v := by
    rintro _ ⟨k, rfl⟩
    exact .of_cells rfl
  have hne : mark ≠ mark' := by
    rintro rfl
    exact absurd hlt (Nat.lt_irrefl _)
  exact sameMemberTo_lint D.sound.closed hu hne (hr.holds_lint D.holds_file hparts mark)
    (hr'.holds_lint D.holds_file hparts mark') hx' hy'

/-- A linter adds its findings. -/
theorem Gathered.addNew {done : List AgentId} {found : List Value}
    (hfound : D.Gathered done u found) (h : D.Takes i) (hi : i ∉ done) {u' : Store}
    {xs : List Value} (hsettles : D.start.Settling D.root u')
    (hmade : (D.job h).Made u.marks u'.marks xs) :
    ∃ all, Document.addNew u' found xs = .ok all ∧ D.Gathered (done ++ [i]) u' all ∧
      all.map Value.report? = found.map Value.report? ++
        keepFirst D.start.sameReport [] (xs.map Value.report?) := by
  have hunbacked : u'.hasBacked = false := by
    rw [hsettles.follows.backed]
    exact D.sound.unbacked
  -- lints of two linters are never the same, so the new ones are only compared with each other
  have hother : ∀ depth, ∀ y ∈ found, ∀ x ∈ xs, u'.sameMemberTo depth y x = false := by
    intro depth y hy x hx
    obtain ⟨j, hj, r, mark, rfl, hr, hlast⟩ := hfound.finds y hy
    obtain ⟨r', mark', rfl, hr', _, hfirst, _⟩ := made_finds h hmade x hx
    exact u'.sameMemberTo_other (by omega) hr.linter hr'.linter (fun hji => hi (hji ▸ hj)) depth
  let same := u'.sameMemberTo (u'.depthAmong (found ++ xs))
  have hsub : (keepFirst same [] xs).Sublist xs := keepFirst_sublist same [] xs
  have hall : keepFirst same found xs = found ++ keepFirst same [] xs := by
    conv_lhs => rw [← List.append_nil found]
    exact keepFirst_append (hother _)
  refine ⟨_, Document.addNewTo_eq hunbacked _ found xs, ⟨hsettles, fun x hx => ?_, ?_⟩, ?_⟩
  · rw [hall] at hx
    rcases List.mem_append.mp hx with hx | hx
    · obtain ⟨j, hj, r, mark, rfl, hr, hlast⟩ := hfound.finds x hx
      exact ⟨j, List.mem_append_left _ hj, r, mark, rfl, hr, Nat.le_trans hlast hmade.le⟩
    · obtain ⟨r, mark, rfl, hr, _, _, hlast⟩ := made_finds h hmade x (hsub.subset hx)
      exact ⟨i, by simp, r, mark, rfl, hr, hlast⟩
  · -- marks grow, so the marks of the new lints are beyond those of the ones before
    rw [hall, List.map_append, List.nodup_append]
    refine ⟨hfound.apart, ?_, ?_⟩
    · have hnodup : (xs.map Value.lintMark).Nodup :=
        List.pairwise_map.mpr ((made_pairwise hmade).imp Nat.ne_of_lt)
      exact hnodup.sublist (hsub.map _)
    · rintro _ hy _ hx rfl
      obtain ⟨y, hy, hmark⟩ := List.mem_map.mp hy
      obtain ⟨x, hx, hmark'⟩ := List.mem_map.mp hx
      obtain ⟨_, _, r, mark, rfl, _, hlast⟩ := hfound.finds y hy
      obtain ⟨r', mark', rfl, _, _, hfirst, _⟩ := made_finds h hmade x (hsub.subset hx)
      have heq : mark' + 1 = mark + 1 := hmark'.trans hmark.symm
      omega
  · rw [hall, List.map_append, map_keepFirst_lints h hsettles.follows.extends_ hmade
      fun x hx => List.mem_append_right _ hx]

theorem Takes.name_follows (h : D.Takes i) (hu : D.start.Follows u) :
    u.getAttribute (.agent i) "name" = .ok (.text (D.name i)) := by
  have hname := toOption_getAttribute D.sound.closed hu h.holds
    (by decide : "name" ∉ changingNames)
  rw [h.named] at hname
  exact toOption_eq_some.mp hname

/-- A message is all that is left of a linter that is not enabled. -/
theorem Gathered.note {done : List AgentId} {found : List Value} (hfound : D.Gathered done u found)
    (i : AgentId) (m : Message) : D.Gathered (done ++ [i]) (u.note m) found where
  settling := hfound.settling.of_rest D.sound.closed D.tree
    (hfound.settling.follows.of_agents (hfound.settling.follows.extends_.of_rest rfl rfl rfl)
      rfl rfl)
    rfl
  finds x hx := by
    obtain ⟨j, hj, rest⟩ := hfound.finds x hx
    exact ⟨j, List.mem_append_left _ hj, rest⟩
  apart := hfound.apart

/-- The turn of a linter: either it fails, or its findings are added and the others go on. -/
theorem Gathered.turn {done : List AgentId} {found : List Value} (hfound : D.Gathered done u found)
    (h : D.Takes i) (hi : i ∉ done) (rest : List Value) :
    match D.findings i with
    | none => ∃ fault t, (Document.collectLints D.settings (.node D.root) D.file
        (.agent i :: rest) found).perform u = (.error fault, t)
    | some rs => ∃ u' all, (Document.collectLints D.settings (.node D.root) D.file
          (.agent i :: rest) found).perform u =
            (Document.collectLints D.settings (.node D.root) D.file rest all).perform u' ∧
        D.Gathered (done ++ [i]) u' all ∧
        all.map Value.report? = found.map Value.report? ++ rs := by
  have hfollows := hfound.settling.follows
  obtain ⟨henabled, hstore⟩ := isEnabled_follows h hfollows
  have hrun := runOne_settling h hfound.settling
  -- whether a linter is enabled is asked of the store as it is, but answered as in the beginning
  unfold findings
  rw [← henabled, Document.collectLints, Edit.perform_bind]
  revert hstore
  cases (Document.isEnabled D.settings (.agent i)).perform u with
  | mk x u₁ =>
    rintro rfl
    cases x with
    | error fault => exact ⟨fault, _, rfl⟩
    | ok isEnabled =>
      cases isEnabled with
      | false =>
        refine ⟨_, found, ?_, hfound.note i (.skipped (D.name i)), by simp⟩
        simp only [Bool.false_eq_true, if_false, Edit.perform_bind, Edit.perform_tryRead,
          h.name_follows hfollows, Edit.perform_read, bare, Edit.perform_log]
      | true =>
        revert hrun
        simp only [if_true, Edit.perform_bind]
        cases (Document.runOne (.agent i) (.node D.root) D.file).perform u₁ with
        | mk y u₂ =>
          cases y with
          | error fault =>
            intro hrun
            simp only [Except.toOption, Option.bind_some, hrun]
            exact ⟨fault, _, rfl⟩
          | ok xs =>
            rintro ⟨hlints, hsettles, hmade⟩
            obtain ⟨all, hadd, hall, hreports⟩ := hfound.addNew h hi hsettles hmade
            simp only [Except.toOption, Option.bind_some, hlints, if_true, Option.map_some]
            refine ⟨u₂, all, ?_, hall, hreports⟩
            simp only [Edit.perform_tryRead, hadd]

/-- All turns: either a linter fails, or what was found is the findings of all, one linter after the
other. -/
theorem Gathered.collectLints : ∀ {is done : List AgentId} {u : Store} {found : List Value},
    (∀ i ∈ is, D.Takes i) → (done ++ is).Nodup → D.Gathered done u found →
    match (Document.collectLints D.settings (.node D.root) D.file (is.map .agent) found).perform u
    with
    | (.error _, _) => ∃ i ∈ is, D.findings i = none
    | (.ok all, u') => (∀ i ∈ is, (D.findings i).isSome) ∧ D.Gathered (done ++ is) u' all ∧
        all.map Value.report? =
          found.map Value.report? ++ is.flatMap fun i => (D.findings i).getD []
  | [], done, u, found, _, _, hfound => by
    simpa [Document.collectLints] using hfound
  | i :: is, done, u, found, htakes, hnodup, hfound => by
    have hi : i ∉ done := fun hi =>
      (List.nodup_append.mp hnodup).2.2 i hi i (List.mem_cons_self ..) rfl
    have hturn := hfound.turn (htakes i (List.mem_cons_self ..)) hi (is.map .agent)
    rw [List.map_cons]
    cases hfindings : D.findings i with
    | none =>
      rw [hfindings] at hturn
      obtain ⟨fault, t, hperform⟩ := hturn
      rw [hperform]
      exact ⟨i, List.mem_cons_self .., hfindings⟩
    | some rs =>
      rw [hfindings] at hturn
      obtain ⟨u', all, hperform, hall, hreports⟩ := hturn
      rw [hperform]
      have htakes' : ∀ j ∈ is, D.Takes j := fun j hj => htakes j (List.mem_cons_of_mem _ hj)
      have hrest := Gathered.collectLints htakes' (by simpa using hnodup) hall
      revert hrest
      cases (Document.collectLints D.settings (.node D.root) D.file (is.map .agent) all).perform
          u' with
      | mk x t =>
        cases x with
        | error fault =>
          rintro ⟨j, hj, hnone⟩
          exact ⟨j, List.mem_cons_of_mem _ hj, hnone⟩
        | ok every =>
          rintro ⟨hsome, hevery, hmap⟩
          refine ⟨?_, by simpa using hevery, ?_⟩
          · rintro j (_ | ⟨_, hj⟩)
            · rw [hfindings]
              rfl
            · exact hsome j hj
          · rw [hmap, hreports, List.flatMap_cons, hfindings, Option.getD_some, List.append_assoc]

/-! ## The order of the lints -/

variable (D)

/-- The name of a linter. -/
def nameOf : Value → String
  | .agent i => D.name i
  | _ => ""

/-- What a lint is sorted by. -/
def row : Value → List Value
  | .lint _ linter file place .. => [file, place, .text (D.nameOf linter)]
  | _ => []

/-- What a lint is sorted by, as far as it sets it apart from another lint of the same file. -/
def key : Option Report → (Int ×ₗ Int ×ₗ Int) ×ₗ List Nat
  | some r => toLex (placeKey r.line.whole r.column.whole r.length.whole,
      Text.Half.points (D.nameOf r.linter))
  | none => toLex (placeKey 0 0 0, [])

variable {D} {done : List AgentId} {all : List Value}

/-- Every lint that was found is sorted by what its finding says. -/
theorem Gathered.sortKey (h : D.Gathered done u all) : ∀ x ∈ all, u.sortKey x = .ok (D.row x) := by
  intro x hx
  obtain ⟨i, _, r, mark, rfl, hr, _⟩ := h.finds x hx
  have hfile : u.getAttribute (r.lint mark) "filename" = .ok r.file := by
    refine u.orMissing_of_present _ _ ?_
    rw [hr.file]
    exact hr.present
  have hplace : u.getAttribute (r.lint mark) "location" =
      .ok (.location mark r.line r.column r.length) := rfl
  have hlinter : u.getAttribute (r.lint mark) "linter" = .ok (.agent i) := by
    rw [← hr.linter]
    refine u.orMissing_of_present _ _ ?_
    rw [hr.linter]
    rfl
  rw [Store.sortKey, hfile, hplace, hlinter]
  simp only [hr.takes.name_follows h.settling.follows, Except.map, row, Report.lint, hr.linter,
    nameOf]

/-- And two of them are compared as their findings are. -/
theorem Gathered.compareRow (h : D.Gathered done u all) : ∀ x ∈ all, ∀ y ∈ all,
    u.compareRow (u.depthAmong all) .lt (D.row x) (D.row y) =
      .ok (decide (D.key x.report? < D.key y.report?)) := by
  intro x hx y hy
  have hunbacked : u.hasBacked = false := by
    rw [h.settling.follows.backed]
    exact D.sound.unbacked
  obtain ⟨d, hd⟩ := u.exists_depthAmong hx
  obtain ⟨i, _, r, mark, hxr, hr, _⟩ := h.finds x hx
  obtain ⟨j, _, r', mark', hyr, hr', _⟩ := h.finds y hy
  have hwhole : ∀ {i r}, D.Finds i r →
      r.line = .int r.line.whole ∧ r.column = .int r.column.whole ∧
        r.length = .int r.length.whole :=
    fun h => ⟨(h.whole _ (by simp)).eq, (h.whole _ (by simp)).eq, (h.whole _ (by simp)).eq⟩
  obtain ⟨hline, hcolumn, hlength⟩ := hwhole hr
  obtain ⟨hline', hcolumn', hlength'⟩ := hwhole hr'
  -- a mark stands for one lint, so locations with one mark are one
  have hmark : mark = mark' → placeKey r.line.whole r.column.whole r.length.whole =
      placeKey r'.line.whole r'.column.whole r'.length.whole := by
    rintro rfl
    have hone : x = y := List.inj_on_of_nodup_map h.apart hx hy (by rw [hxr, hyr]; rfl)
    have hsame : (r.lint mark).report? = (r'.lint mark).report? := by rw [← hxr, ← hyr, hone]
    simp only [Report.report?_lint, Option.some.injEq] at hsame
    rw [hsame]
  have hrow := compareRow_key (d := d) hunbacked hr.present hmark (D.name i) (D.name j)
  rw [← hline, ← hcolumn, ← hlength, ← hline', ← hcolumn', ← hlength', ← hd] at hrow
  rw [hxr, hyr]
  simp only [row, key, Report.lint, hr.file, hr'.file, hr.linter, hr'.linter,
    nameOf]
  exact hrow

/-- The lints are put in order, by location and name of the linter. -/
theorem Gathered.sorted (h : D.Gathered done u all) : Document.sorted u all =
    .ok (all.mergeSort fun x y => decide (D.key x.report? ≤ D.key y.report?)) := by
  have hcompare : ∀ x ∈ all, ∀ y ∈ all,
      u.compareRow (u.depthAmong (all.map id)) .lt (D.row x) (D.row y) =
        .ok (decide (D.key x.report? < D.key y.report?)) := by
    rw [List.map_id]
    exact h.compareRow
  have hsorted := Document.sorted_eq_mergeSort (f := id) h.sortKey hcompare
  rwa [List.map_id, List.map_id] at hsorted

/-- Either a linter fails, or the lints say what the linters find, in order. -/
theorem lint_findings {is : List AgentId} (htakes : ∀ i ∈ is, D.Takes i) (hnodup : is.Nodup) :
    match (Document.lint (is.map .agent) D.settings (.node D.root) D.file).perform D.start with
    | (.error _, _) => ∃ i ∈ is, D.findings i = none
    | (.ok all, _) => (∀ i ∈ is, (D.findings i).isSome) ∧ (∀ x ∈ all, ∃ r, x.report? = some r) ∧
        all.map Value.report? = (is.flatMap fun i => (D.findings i).getD []).mergeSort
          fun x y => decide (D.key x ≤ D.key y) := by
  have hnone : D.Gathered [] D.start [] := ⟨.refl D.tree, by simp, .nil⟩
  have hcollect := Gathered.collectLints htakes (by simpa using hnodup) hnone
  unfold Document.lint
  rw [Edit.perform_bind]
  revert hcollect
  cases (Document.collectLints D.settings (.node D.root) D.file (is.map .agent) []).perform
      D.start with
  | mk x u =>
    cases x with
    | error fault => exact id
    | ok found =>
      rintro ⟨hsome, hfound, hmap⟩
      have hmem : ∀ x ∈ found.mergeSort fun x y => decide (D.key x.report? ≤ D.key y.report?),
          ∃ r : Report, ∃ mark, x = r.lint mark := by
        intro x hx
        obtain ⟨_, _, r, mark, hxr, _⟩ := hfound.finds x (List.mem_mergeSort.mp hx)
        exact ⟨r, mark, hxr⟩
      obtain ⟨n, hn⟩ := u.countErrors_lints hmem
      simp only [Edit.perform_bind, Edit.perform_tryRead, hfound.sorted, hn, Edit.perform_read,
        Edit.perform_log, Edit.perform_pure]
      refine ⟨hsome, fun x hx => ?_, ?_⟩
      · obtain ⟨r, mark, rfl⟩ := hmem x hx
        exact ⟨r, r.report?_lint mark⟩
      · rw [List.map_mergeSort (f := Value.report?) (s := fun x y => decide (D.key x ≤ D.key y))
          fun _ _ _ _ => rfl, hmap]
        rfl

/-- What a linter finds is its own. -/
theorem Takes.findings_linter (h : D.Takes i) : ∀ x ∈ (D.findings i).getD [],
    ∃ r, x = some r ∧ r.linter = .agent i := by
  intro x hx
  have hrun := runOne_settling h (.refl D.tree)
  unfold findings at hx
  cases henabled : D.enabled? i with
  | none => simp [henabled] at hx
  | some isEnabled =>
    cases isEnabled with
    | false => simp [henabled] at hx
    | true =>
      revert hrun
      cases (Document.runOne (.agent i) (.node D.root) D.file).perform D.start with
      | mk y u =>
        cases y with
        | error fault =>
          intro hlints
          simp [henabled, hlints] at hx
        | ok xs =>
          rintro ⟨hlints, _, hmade⟩
          simp only [henabled, hlints, Option.bind_some, if_true, Option.map_some,
            Option.getD_some] at hx
          have hsub := keepFirst_sublist D.start.sameReport [] (xs.map Value.report?)
          obtain ⟨y, hy, rfl⟩ := List.mem_map.mp (hsub.subset hx)
          obtain ⟨r, mark, rfl, hr, _⟩ := made_finds h hmade y hy
          exact ⟨r, r.report?_lint mark, hr.linter⟩

/-- The order of findings does not depend on that of the linters: what has one key is of one
linter. -/
theorem mergeSort_findings {is js : List AgentId} (htakes : ∀ i ∈ is, D.Takes i)
    (hnames : (is.map D.name).Nodup) (hperm : is.Perm js) :
    ((is.flatMap fun i => (D.findings i).getD []).mergeSort fun x y =>
        decide (D.key x ≤ D.key y)) =
      (js.flatMap fun i => (D.findings i).getD []).mergeSort fun x y =>
        decide (D.key x ≤ D.key y) := by
  refine Sorting.mergeSort_eq_of_filter fun k => ?_
  rw [List.filter_flatMap, List.filter_flatMap]
  refine Sorting.flatMap_perm hperm fun i hi j hj hij => ?_
  by_contra! hboth
  obtain ⟨x, hx⟩ := List.exists_mem_of_ne_nil _ hboth.1
  obtain ⟨y, hy⟩ := List.exists_mem_of_ne_nil _ hboth.2
  obtain ⟨hx, hxk⟩ := List.mem_filter.mp hx
  obtain ⟨hy, hyk⟩ := List.mem_filter.mp hy
  obtain ⟨r, rfl, hr⟩ := (htakes i hi).findings_linter x hx
  obtain ⟨r', rfl, hr'⟩ := (htakes j hj).findings_linter y hy
  simp only [decide_eq_true_eq] at hxk hyk
  have hkey : D.key (some r) = D.key (some r') := hxk.trans hyk.symm
  have hpoints : Text.Half.points (D.nameOf r.linter) = Text.Half.points (D.nameOf r'.linter) :=
    congrArg (fun p => (ofLex p).2) hkey
  rw [hr, hr'] at hpoints
  have hname : D.name i = D.name j := Text.Half.points_injective hpoints
  exact hij (List.inj_on_of_nodup_map hnames hi hj hname)

/-- Linting a document gives the same in whichever order the linters take their turns: it fails in
both, or gives lints that agree one by one in linter, file, location, description and severity. -/
theorem lint_perm (D : Inspection) {is js : List AgentId} (htakes : ∀ i ∈ is, D.Takes i)
    (hnames : (is.map D.name).Nodup) (hperm : is.Perm js) :
    SameLints ((Document.lint (is.map .agent) D.settings (.node D.root) D.file).perform D.start).1
      ((Document.lint (js.map .agent) D.settings (.node D.root) D.file).perform D.start).1 := by
  have hnodup : is.Nodup := List.Nodup.of_map _ hnames
  have his := lint_findings htakes hnodup
  have hjs := lint_findings (fun j hj => htakes j (hperm.mem_iff.mpr hj))
    (hperm.nodup_iff.mp hnodup)
  revert his hjs
  cases (Document.lint (is.map .agent) D.settings (.node D.root) D.file).perform D.start with
  | mk x s =>
    cases (Document.lint (js.map .agent) D.settings (.node D.root) D.file).perform D.start with
    | mk y t =>
      cases x with
      | error fault =>
        cases y with
        | error fault' => exact fun _ _ => .failed fault fault'
        | ok ys =>
          rintro ⟨i, hi, hnone⟩ ⟨hsome, _⟩
          have hi := hsome i (hperm.mem_iff.mp hi)
          rw [hnone] at hi
          exact absurd hi (by simp)
      | ok xs =>
        cases y with
        | error fault =>
          rintro ⟨hsome, _⟩ ⟨j, hj, hnone⟩
          have hj := hsome j (hperm.mem_iff.mpr hj)
          rw [hnone] at hj
          exact absurd hj (by simp)
        | ok ys =>
          rintro ⟨_, hreports, hxs⟩ ⟨_, _, hys⟩
          refine .found (forall₂_saysSame ?_ hreports)
          rw [hxs, hys]
          exact mergeSort_findings htakes hnames hperm

end Inspection

/-- Two properties of which one has a value without a location, and three linters under settings.
The first has three lints in one place, two of them equal; the settings make them errors. The second
has a lint in the same place, and the third is not enabled. -/
def crowdedSheet : Store where
  nodes := #[
    some { position := { line := .int 1 }, form := .statement (.list 0) (.root (.text "")) },
    some { position := { line := .int 2, column := .int 3 }
           form := .statement (.list 1) (.prop (.list 1) (.node 3)) },
    some { position := { line := .int 4 }
           form := .statement (.list 1) (.prop (.list 1) (.node 4)), parent := .gone },
    some { form := .expression (.variable (.text "color")) },
    some { position := { line := .int 4, column := .int 9 }
           form := .expression (.variable (.text "size")) }]
  lists := #[[.node 1, .node 2], [], [.text "left"]]
  tables := #[[(.text "linters", .table 1)],
    [(.text "Silent", .table 2), (.text "Naming", .table 3)],
    [(.text "enabled", .bool false)], [(.text "severity", .text "error")]]
  agents := #[
    { role := .settings (.table 0) (.policy .refresh) },
    { role := .linter {
        behaviour := LinterClass.base.derive "Naming" none none
          [("script_variable", [.lint (.text "name") none false, .lint (.text "case") none false,
            .lint (.text "name") none false])]
        settings := .agent 0
        lints := .list 2 } },
    { role := .linter {
        behaviour := LinterClass.base.derive "Layout" none none
          [("script_variable",
              [.whenAttribute "line" (.ok (.int 2)) [.lint (.text "line") none false]]),
           ("root", [.duplicates .prop, .descend])]
        settings := .null
        lints := .list 2 } },
    { role := .linter {
        behaviour := LinterClass.base.derive "Silent" none none [("root", [.fail .tooDeep])]
        settings := .agent 0
        lints := .list 2 } }]

/-- The sheet is linted under its settings. -/
def crowdedInspection : Inspection where
  start := crowdedSheet
  root := 0
  settings := .agent 0
  file := .text "a.scss"
  name i := ["", "Naming", "Layout", "Silent"][i]?.getD ""
  sound := sound_of_nodes (by decide) rfl (by decide) (by decide)
  tree := treeFrom_of_offspring (by decide) (by decide) (by decide) (by decide) (by decide)
    (by decide) (by decide)
  whole n _ v hv hnull := by
    match n with
    | 0 | 1 | 2 | 3 | 4 => rcases hv with rfl | rfl <;> first | exact ⟨_, rfl⟩ | cases hnull
    | n + 5 => rcases hv with rfl | rfl <;> cases hnull
  holds_settings := by decide
  holds_file := by decide

/-- The linter that is not enabled, and would fail, takes its turn first instead of last. -/
theorem lint_perm_crowded : (∀ i ∈ [1, 2, 3], crowdedInspection.Takes i) ∧
    ([1, 2, 3].map crowdedInspection.name).Nodup ∧ List.Perm [1, 2, 3] [3, 2, 1] ∧
    SameLints ((Document.lint ([1, 2, 3].map .agent) crowdedInspection.settings
        (.node crowdedInspection.root) crowdedInspection.file).perform crowdedInspection.start).1
      ((Document.lint ([3, 2, 1].map .agent) crowdedInspection.settings
        (.node crowdedInspection.root) crowdedInspection.file).perform
          crowdedInspection.start).1 := by
  have htakes : ∀ i ∈ [1, 2, 3], crowdedInspection.Takes i := by
    simp only [List.mem_cons, List.not_mem_nil, or_false]
    rintro i (rfl | rfl | rfl)
    all_goals
      refine ⟨⟨⟨_, _, rfl, rfl, rfl⟩, fun l hl => ?_⟩, rfl⟩
      obtain rfl := Option.some.inj hl
      simp [LinterClass.derive, LinterClass.base, Action.AllPlain, Action.Plain,
        Action.foreignNames, parentNames, Holds, Value.cells]
  have hnames : ([1, 2, 3].map crowdedInspection.name).Nodup := by decide
  have hperm : List.Perm [1, 2, 3] [3, 2, 1] := by decide
  exact ⟨htakes, hnames, hperm, crowdedInspection.lint_perm htakes hnames hperm⟩

end SheetLint
