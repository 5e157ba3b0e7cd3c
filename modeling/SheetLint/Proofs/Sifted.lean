import Mathlib.Data.List.Find
import Mathlib.Data.List.Induction
import SheetLint.Proofs.Keys
import SheetLint.Proofs.Ranks
import SheetLint.Proofs.Turns

/-!
# What remains of the lints of a document

Of the lints that the linters emit the first of each class of equal ones is kept, and what is kept
is sorted. `Store.Sifted` tells what that amounts to without saying how it is done: no two of the
lints that remain are equal, each that was emitted equals exactly one of them, which is the first of
its class, they are in order, and those that are not set apart by the order stand as their classes
were first met.

To keep the first and to sort do not get into each other's way. What is kept stands in the order in
which it was met (`pairwise_keepNew`), and sorting leaves that order as it is among lints with one
key (`Sorting.pairwise_mergeSort_of_key`).
-/

namespace SheetLint

open Store

/-! ## Keeping the first -/

section KeepNew

variable {α κ : Type} [DecidableEq κ] {gist : α → κ} {kept xs : List α} {x y : α}

/-- Adds those items whose gist is not that of one that is there. -/
def keepNew (gist : α → κ) (kept xs : List α) : List α :=
  keepFirst (fun x y => decide (gist x = gist y)) kept xs

/-- What comes later is added to what is kept of the rest. -/
theorem keepNew_append (gist : α → κ) (ys : List α) : ∀ kept xs : List α,
    keepNew gist kept (xs ++ ys) = keepNew gist (keepNew gist kept xs) ys
  | _, [] => rfl
  | _, _ :: xs => keepNew_append gist ys _ xs

/-- The last item is kept unless its gist is there. -/
theorem keepNew_concat (gist : α → κ) (x : α) (kept xs : List α) :
    keepNew gist kept (xs ++ [x]) =
      if (keepNew gist kept xs).any (fun y => decide (gist y = gist x)) then keepNew gist kept xs
      else keepNew gist kept xs ++ [x] := by
  rw [keepNew_append]
  rfl

/-- No gist is lost. -/
theorem any_keepNew (gist : α → κ) (y : α) : ∀ kept xs : List α,
    (keepNew gist kept xs).any (fun x => decide (gist x = gist y)) =
      (kept ++ xs).any fun x => decide (gist x = gist y)
  | kept, [] => by rw [keepNew, keepFirst, List.append_nil]
  | kept, x :: xs => by
    rw [keepNew, keepFirst, ← keepNew, any_keepNew gist y _ xs, List.any_append, List.any_append,
      List.any_cons]
    split
    · rename_i hthere
      by_cases hxy : gist x = gist y
      · rw [hxy] at hthere
        rw [hthere, Bool.true_or, Bool.true_or]
      · rw [decide_eq_false hxy, Bool.false_or]
    · rw [List.any_append, List.any_cons, List.any_nil, Bool.or_false, Bool.or_assoc]

/-- What is kept is the first with its gist. -/
theorem mem_keepNew : ∀ {y : α},
    y ∈ keepNew gist [] xs ↔ xs.find? (fun x => decide (gist x = gist y)) = some y := by
  induction xs using List.reverseRecOn with
  | nil => simp [keepNew, keepFirst]
  | append_singleton xs x ih =>
    intro y
    rw [keepNew_concat, any_keepNew, List.nil_append, List.find?_append]
    cases hthere : xs.any fun z => decide (gist z = gist x) with
    | true =>
      -- the last item is no first one, whatever it is compared with
      rw [if_pos rfl, ih]
      cases hfind : xs.find? (fun z => decide (gist z = gist y)) with
      | some z => rfl
      | none =>
        have hxy : gist x ≠ gist y := by
          intro hxy
          rw [hxy] at hthere
          obtain ⟨z, hz, hsame⟩ := List.any_eq_true.mp hthere
          exact absurd hsame (by simpa using List.find?_eq_none.mp hfind z hz)
        simp [hxy]
    | false =>
      have hnew : ∀ z ∈ xs, gist z ≠ gist x := by simpa using hthere
      rw [if_neg (by simp), List.mem_append, ih, List.mem_singleton]
      constructor
      · rintro (hfind | rfl)
        · rw [hfind, Option.some_or]
        · have hnone : xs.find? (fun z => decide (gist z = gist y)) = none := by
            rw [List.find?_eq_none]
            simpa using hnew
          simp [hnone]
      · intro hfind
        cases hfound : xs.find? (fun z => decide (gist z = gist y)) with
        | some z =>
          rw [hfound] at hfind
          exact Or.inl hfind
        | none =>
          rw [hfound, Option.none_or] at hfind
          exact Or.inr (List.mem_singleton.mp (List.mem_of_find?_eq_some hfind))

/-- Of one gist one item is kept. -/
theorem eq_of_mem_keepNew (hx : x ∈ keepNew gist [] xs) (hy : y ∈ keepNew gist [] xs)
    (hxy : gist x = gist y) : x = y := by
  rw [mem_keepNew, hxy] at hx
  exact Option.some.inj (hx.symm.trans (mem_keepNew.mp hy))

/-- Of each gist an item is kept. -/
theorem exists_mem_keepNew (gist : α → κ) (hx : x ∈ xs) :
    ∃ y ∈ keepNew gist [] xs, gist y = gist x := by
  have hthere : xs.any (fun z => decide (gist z = gist x)) = true :=
    List.any_eq_true.mpr ⟨x, hx, by simp⟩
  rw [← List.nil_append xs, ← any_keepNew, List.any_eq_true] at hthere
  simpa using hthere

/-- What is kept stands in the order in which it was met. -/
theorem pairwise_keepNew [DecidableEq α] (gist : α → κ) (xs : List α) :
    (keepNew gist [] xs).Pairwise fun x y => xs.idxOf x < xs.idxOf y := by
  induction xs using List.reverseRecOn with
  | nil => exact .nil
  | append_singleton xs x ih =>
    have hold : ∀ y ∈ keepNew gist [] xs,
        (xs ++ [x]).idxOf y = xs.idxOf y ∧ xs.idxOf y < xs.length := by
      intro y hy
      have hmem := List.mem_of_find?_eq_some (mem_keepNew.mp hy)
      exact ⟨List.idxOf_append_of_mem hmem, List.idxOf_lt_length_of_mem hmem⟩
    have hbefore := (List.Pairwise.and_mem.mp ih).imp fun {y z} ⟨hy, hz, hlt⟩ => by
      rwa [← (hold y hy).1, ← (hold z hz).1] at hlt
    -- the last item is left out, or comes after everything that was kept
    rw [keepNew_concat]
    split
    · exact hbefore
    · rename_i hnew
      refine List.pairwise_append.mpr ⟨hbefore, List.pairwise_singleton _ _, ?_⟩
      intro y hy z hz
      obtain rfl := List.mem_singleton.mp hz
      have hz : z ∉ xs := by
        intro hz
        rw [any_keepNew, List.nil_append, List.any_eq_true] at hnew
        exact hnew ⟨z, hz, by simp⟩
      rw [(hold y hy).1, List.idxOf_append_of_notMem hz]
      exact Nat.lt_of_lt_of_le (hold y hy).2 (Nat.le_add_right ..)

/-- No two items with one gist are kept. -/
theorem pairwise_gist_keepNew [DecidableEq α] (gist : α → κ) (xs : List α) :
    (keepNew gist [] xs).Pairwise (gist · ≠ gist ·) := by
  refine (List.Pairwise.and_mem.mp (pairwise_keepNew gist xs)).imp fun {x y} ⟨hx, hy, hlt⟩ hxy => ?_
  rw [eq_of_mem_keepNew hx hy hxy] at hlt
  exact absurd hlt (Nat.lt_irrefl _)

end KeepNew

/-! ## Emissions -/

namespace Emission

/-- Where an emission is. -/
def spot (x : Emission) : Int × Int × Int := (x.line, x.column, x.length)

/-- What emissions are compared by when it is asked whether they are equal. -/
def gist (x : Emission) : AgentId × String × (Int × Int × Int) × String × Severity :=
  (x.linter, x.file, x.spot, x.description, x.severity)

/-- What emissions are sorted by: file, location, name of the linter. -/
def key (x : Emission) : List Nat ×ₗ (Int ×ₗ Int ×ₗ Int) ×ₗ List Nat :=
  toLex (Text.Half.points x.file,
    toLex (placeKey x.line x.column x.length, Text.Half.points x.name))

/-- What an emission is sorted by, as it is read. -/
def row (x : Emission) : List Value :=
  [.text x.file, .location x.place (.int x.line) (.int x.column) (.int x.length), .text x.name]

/-- Lints with one mark are one, and so are locations. -/
structure Marked (xs : List Emission) : Prop where
  lints : ∀ x ∈ xs, ∀ y ∈ xs, x.mark = y.mark → x = y
  places : ∀ x ∈ xs, ∀ y ∈ xs, x.place = y.place → x.spot = y.spot

theorem Marked.subset {xs ys : List Emission} (h : Marked xs) (hys : ys ⊆ xs) : Marked ys where
  lints x hx y hy := h.lints x (hys hx) y (hys hy)
  places x hx y hy := h.places x (hys hx) y (hys hy)

variable {s : Store} {d : Nat} {x y : Emission} {xs found : List Emission}

/-- Emissions are equal if their gists are. -/
theorem sameTo_value (hplace : x.place = y.place → x.spot = y.spot) :
    s.sameTo (d + 3) x.value y.value = decide (x.gist = y.gist) := by
  -- three steps down: a lint, its parts, and the parts of its location
  have hlinter : ((Value.agent x.linter).identical (.agent y.linter) ||
      s.sameTo (d + 2) (.agent x.linter) (.agent y.linter)) = decide (x.linter = y.linter) := by
    by_cases hone : x.linter = y.linter <;> simp [Value.identical, Value.cell?, sameTo, hone]
  have htext : ∀ a b : String, ((Value.text a).identical (.text b) ||
      s.sameTo (d + 2) (.text a) (.text b)) = decide (a = b) := by
    intro a b
    exact beq_eq_decide a b
  have hspot : ((Value.location x.place (.int x.line) (.int x.column) (.int x.length)).identical
      (.location y.place (.int y.line) (.int y.column) (.int y.length)) ||
      s.sameTo (d + 2) (.location x.place (.int x.line) (.int x.column) (.int x.length))
        (.location y.place (.int y.line) (.int y.column) (.int y.length))) =
      decide (x.spot = y.spot) := by
    have hkey : placeKey x.line x.column x.length = placeKey y.line y.column y.length ↔
        x.spot = y.spot := Iff.rfl
    rw [sameTo_location]
    by_cases hone : x.place = y.place
    · simp [hkey, hplace hone]
    · have hother : (Cell.location x.place == Cell.location y.place) = false := by simpa using hone
      simp [hkey, Value.identical, Value.cell?, hother]
  have hseverity : ((Value.severity x.severity).identical (.severity y.severity) ||
      s.sameTo (d + 2) (.severity x.severity) (.severity y.severity)) =
      decide (x.severity = y.severity) := beq_eq_decide x.severity y.severity
  rw [value, value, sameTo]
  simp only [Value.pairwise, hlinter, htext, hspot, hseverity, gist]
  simp

/-- One and the same lint is no exception. -/
theorem sameMemberTo_value (h : Marked xs) (hx : x ∈ xs) (hy : y ∈ xs) :
    s.sameMemberTo (d + 3) x.value y.value = decide (x.gist = y.gist) := by
  rw [sameMemberTo, sameTo_value (h.places x hx y hy)]
  by_cases hone : x.mark = y.mark
  · rw [h.lints x hx y hy hone]
    simp
  · have hother : (Cell.lint x.mark == Cell.lint y.mark) = false := by simpa using hone
    simp [value, Value.identical, Value.cell?, hother]

theorem same_value (h : Marked xs) (hx : x ∈ xs) (hy : y ∈ xs) :
    s.same x.value y.value = decide (x.gist = y.gist) := by
  have hfour : 4 ≤ s.depthAmong [x.value, y.value] := s.four_le_depthAmong (List.mem_cons_self ..)
  rw [same, show s.depthAmong [x.value, y.value] = s.depthAmong [x.value, y.value] - 3 + 3 by omega,
    sameTo_value (h.places x hx y hy)]

/-- Of emissions those are added that equal none that is there. -/
theorem addNew_values (hs : s.hasBacked = false) (h : Marked (found ++ xs)) :
    Document.addNew s (found.map value) (xs.map value) =
      .ok ((keepNew gist found xs).map value) := by
  rw [Document.addNew, Document.addNewTo_eq hs, keepNew, map_keepFirst]
  refine List.pairwise_of_forall_mem_list fun x hx y hy => ?_
  -- lists are compared as deep as what they hold goes, which is deep enough for each lint
  have hmem : x.value ∈ found.map value ++ xs.map value := by
    rw [← List.map_append]
    exact List.mem_map_of_mem hx
  have hfour := s.four_le_depthAmong hmem
  rw [show s.depthAmong (found.map value ++ xs.map value) =
    s.depthAmong (found.map value ++ xs.map value) - 3 + 3 by omega, sameMemberTo_value h hx hy]

/-- An emission is sorted by its row. -/
theorem sortKey_value (hname : s.getAttribute (.agent x.linter) "name" = .ok (.text x.name)) :
    s.sortKey x.value = .ok x.row := by
  have hfile : s.getAttribute x.value "filename" = .ok (.text x.file) := rfl
  have hplace : s.getAttribute x.value "location" =
      .ok (.location x.place (.int x.line) (.int x.column) (.int x.length)) := rfl
  have hlinter : s.getAttribute x.value "linter" = .ok (.agent x.linter) := rfl
  rw [sortKey, hfile, hplace, hlinter]
  simp only [hname, Except.map, row]

/-- Emissions are put in the order of their keys. -/
theorem sorted_values (hs : s.hasBacked = false) (h : Marked xs)
    (hnamed : ∀ x ∈ xs, s.getAttribute (.agent x.linter) "name" = .ok (.text x.name)) :
    Document.sorted s (xs.map value) =
      .ok ((xs.mergeSort fun x y => decide (x.key ≤ y.key)).map value) := by
  refine Document.sorted_eq_mergeSort (fun x hx => sortKey_value (hnamed x hx)) fun x hx y hy => ?_
  obtain ⟨d, hd⟩ := s.exists_depthAmong (List.mem_map_of_mem (f := value) hx)
  rw [hd]
  exact compareRow_files hs (h.places x hx y hy) x.file y.file x.name y.name

/-- Those emissions are counted whose severity is that of errors. -/
theorem countErrors_values (s : Store) : ∀ xs : List Emission,
    s.countErrors (xs.map value) = .ok (xs.countP fun x => x.severity == .error)
  | [] => rfl
  | x :: xs => by
    have herror : s.isError x.value = .ok (x.severity == .error) := by
      unfold value isError
      cases x.severity <;> rfl
    rw [List.map_cons, countErrors, herror, countErrors_values s xs, List.countP_cons]
    cases x.severity == .error <;> rfl

end Emission

namespace Store

open Emission

/-- What remains of emissions, compared in a store: no two that are equal, the first of each
class, in the order of the keys and then of the places where they were emitted. -/
structure Sifted (s : Store) (xs ys : List Emission) : Prop where
  distinct : ys.Pairwise fun x y => s.same x.value y.value = false
  covered : ∀ x ∈ xs, ∃! y, y ∈ ys ∧ s.same x.value y.value = true
  first : ∀ y ∈ ys, xs.find? (fun x => s.same x.value y.value) = some y
  ordered : ys.Pairwise fun x y => x.key ≤ y.key
  steady : ys.Pairwise fun x y => x.key = y.key → xs.idxOf x < xs.idxOf y

/-- To keep the first and to sort leaves what is to remain. -/
theorem sifted {s : Store} {xs : List Emission} (h : Marked xs) :
    s.Sifted xs ((keepNew gist [] xs).mergeSort fun x y => decide (x.key ≤ y.key)) := by
  have hmem : ∀ {y}, y ∈ (keepNew gist [] xs).mergeSort (fun x y => decide (x.key ≤ y.key)) ↔
      y ∈ keepNew gist [] xs := List.mem_mergeSort
  have hsub : ∀ {y}, y ∈ keepNew gist [] xs → y ∈ xs := fun hy =>
    List.mem_of_find?_eq_some (mem_keepNew.mp hy)
  refine ⟨?_, fun x hx => ?_, fun y hy => ?_, Sorting.pairwise_mergeSort _ _,
    Sorting.pairwise_mergeSort_of_key (pairwise_keepNew gist xs)⟩
  · have hdistinct := (pairwise_gist_keepNew gist xs).perm
      (List.mergeSort_perm _ fun x y => decide (x.key ≤ y.key)).symm fun h => h.symm
    refine (List.Pairwise.and_mem.mp hdistinct).imp fun {x y} ⟨hx, hy, hxy⟩ => ?_
    rw [same_value h (hsub (hmem.mp hx)) (hsub (hmem.mp hy)), decide_eq_false hxy]
  · obtain ⟨y, hy, hxy⟩ := exists_mem_keepNew gist hx
    refine ⟨y, ⟨hmem.mpr hy, ?_⟩, ?_⟩
    · rw [same_value h hx (hsub hy), hxy, decide_eq_true rfl]
    · rintro z ⟨hz, hxz⟩
      rw [hmem] at hz
      rw [same_value h hx (hsub hz)] at hxz
      exact eq_of_mem_keepNew hz hy ((of_decide_eq_true hxz).symm.trans hxy.symm)
  · rw [hmem] at hy
    rw [← mem_keepNew.mp hy]
    exact List.find?_congr fun x hx => same_value h hx (hsub hy)

end Store

namespace Document

open Emission

variable {s u : Store} {settings : AgentId} {entries : TableId} {linters : List Value}
  {root file : Value} {xs found : List Emission}

/-- Linters that take their turns leave the first of the equal lints that they emit. -/
theorem Turns.collectLints (h : Turns entries root file linters s xs u) :
    ∀ {found : List Emission}, s.Configured settings entries → Marked (found ++ xs) →
      (collectLints (.agent settings) root file linters (found.map value)).perform s =
        (.ok ((keepNew gist found xs).map value), u) := by
  induction h with
  | done s => exact fun _ _ => rfl
  | @off linter rest s u name xs hname hoff _ ih =>
    intro found hs hmarked
    rw [Document.collectLints, Edit.perform_bind_ok (hs.perform_isEnabled hname), hoff]
    simp only [Bool.false_eq_true, if_false, Edit.perform_bind, Edit.perform_tryRead, hname,
      Edit.perform_read, bare, Edit.perform_log]
    exact ih (hs.of_agents rfl rfl) hmarked
  | @on linter rest s t u name xs ys hname hon hrun _ ih =>
    intro found hs hmarked
    have ht := runOne_configured hs linter root file
    rw [hrun] at ht
    -- the turns that follow add to what is kept of this one
    have hfirst : Marked (found ++ xs) := hmarked.subset fun x hx => by
      rw [← List.append_assoc]
      exact List.mem_append_left _ hx
    have hrest : Marked (keepNew gist found xs ++ ys) := hmarked.subset fun x hx => by
      rw [← List.append_assoc]
      rcases List.mem_append.mp hx with hx | hx
      · exact List.mem_append_left _ ((keepFirst_sublist _ found xs).subset hx)
      · exact List.mem_append_right _ hx
    rw [Document.collectLints, Edit.perform_bind_ok (hs.perform_isEnabled hname), hon]
    simp only [if_true, Edit.perform_bind, hrun, Edit.perform_tryRead,
      addNew_values ht.unbacked hfirst]
    rw [ih ht hrest, keepNew_append]

end Document

/-- When the linters of a document took their turns, its lints are what remains of those they
emitted. A summary is logged, which gives their number and that of the errors among them. -/
theorem lint_sifted {s u : Store} {settings : AgentId} {entries : TableId} {linters : List Value}
    {root file : Value} {xs : List Emission} (hs : s.Configured settings entries)
    (hturns : Document.Turns entries root file linters s xs u) (hmarked : Emission.Marked xs)
    (hnamed : ∀ x ∈ xs, u.getAttribute (.agent x.linter) "name" = .ok (.text x.name)) :
    ∃ ys, (Document.lint linters (.agent settings) root file).perform s =
        (.ok (ys.map Emission.value), u.note (.summary (u.bare file) ys.length
          (ys.countP fun y => y.severity == .error))) ∧
      u.Sifted xs ys := by
  refine ⟨_, ?_, sifted hmarked⟩
  have hcollect : (Document.collectLints (.agent settings) root file linters []).perform s =
      (.ok ((keepNew Emission.gist [] xs).map Emission.value), u) :=
    hturns.collectLints hs (show Emission.Marked ([] ++ xs) from hmarked)
  have hkept : keepNew Emission.gist [] xs ⊆ xs := (keepFirst_sublist _ [] xs).subset
  have hsorted := Emission.sorted_values (hturns.configured hs).unbacked (hmarked.subset hkept)
    fun x hx => hnamed x (hkept hx)
  rw [Document.lint, Edit.perform_bind_ok hcollect]
  simp only [Edit.perform_bind, Edit.perform_tryRead, hsorted, Emission.countErrors_values,
    Edit.perform_read, Edit.perform_log, Edit.perform_pure, List.length_map]

/-- What two stand-ins hand out. The first has a lint that can be fixed, another one that equals it
and one in the same place, all of them in the name of the second, which has the first again, and one
in the name of the first. -/
def handedEmissions : List Emission × List Emission :=
  ([⟨1, 2, 2, "B", "b.scss", 5, 1, 1, "late", .warning, true⟩,
    ⟨3, 4, 2, "B", "b.scss", 5, 1, 1, "late", .warning, false⟩,
    ⟨5, 2, 2, "B", "b.scss", 5, 1, 1, "later", .error, false⟩],
   [⟨6, 7, 2, "B", "b.scss", 5, 1, 1, "late", .warning, false⟩,
    ⟨8, 9, 1, "A", "a.scss", 7, 1, 1, "late", .warning, false⟩])

/-- The stand-ins, and between them a linter that would fail, but is switched off. -/
def handedSheet : Store where
  nodes := #[
    some { position := { line := .int 1 }, form := .statement (.list 0) (.root (.text "")) }]
  lists := #[[], handedEmissions.1.map Emission.value, handedEmissions.2.map Emission.value]
  tables := #[[(.text "linters", .table 1)], [(.text "Silent", .table 2)],
    [(.text "enabled", .bool false)]]
  agents := #[
    { role := .settings (.table 0) (.policy .refresh) },
    { role := .standIn { name := .text "A", prepared := .list 1 } },
    { role := .standIn { name := .text "B", prepared := .list 2 } },
    { role := .linter {
        behaviour := LinterClass.base.derive "Silent" none none [("root", [.fail .tooDeep])]
        settings := .agent 0
        lints := .list 0 } }]
  marks := 10

/-- One and the same lint comes from both, and the linter that is switched off has no turn. -/
theorem lint_sifted_overlapping :
    handedSheet.Configured 0 0 ∧
      Document.Turns 0 (.node 0) (.text "a.scss") [.agent 1, .agent 3, .agent 2] handedSheet
        (handedEmissions.1 ++ handedEmissions.2) (handedSheet.note (.skipped "Silent")) ∧
      Emission.Marked (handedEmissions.1 ++ handedEmissions.2) ∧
      (∀ x ∈ handedEmissions.1 ++ handedEmissions.2,
        (handedSheet.note (.skipped "Silent")).getAttribute (.agent x.linter) "name" =
          .ok (.text x.name)) ∧
      ∃ ys, (Document.lint [.agent 1, .agent 3, .agent 2] (.agent 0) (.node 0)
          (.text "a.scss")).perform handedSheet = (.ok (ys.map Emission.value),
            (handedSheet.note (.skipped "Silent")).note (.summary "a.scss" ys.length
              (ys.countP fun y => y.severity == .error))) ∧
        (handedSheet.note (.skipped "Silent")).Sifted
          (handedEmissions.1 ++ handedEmissions.2) ys := by
  have hconfigured : handedSheet.Configured 0 0 := by
    refine ⟨rfl, fun i a ha => ?_, ⟨_, _, rfl, rfl, by decide⟩⟩
    match i with
    | 0 | 1 | 2 | 3 =>
      cases ha
      rfl
    | i + 4 => cases ha
  have hturns : Document.Turns 0 (.node 0) (.text "a.scss") [.agent 1, .agent 3, .agent 2]
      handedSheet (handedEmissions.1 ++ (handedEmissions.2 ++ []))
      (handedSheet.note (.skipped "Silent")) :=
    .on rfl rfl rfl (.off rfl rfl (.on rfl rfl rfl (.done _)))
  have hmarked : Emission.Marked (handedEmissions.1 ++ handedEmissions.2) := ⟨by decide, by decide⟩
  have hnamed : ∀ x ∈ handedEmissions.1 ++ handedEmissions.2,
      (handedSheet.note (.skipped "Silent")).getAttribute (.agent x.linter) "name" =
        .ok (.text x.name) := by
    intro x hx
    simp only [handedEmissions, List.cons_append, List.nil_append, List.mem_cons, List.not_mem_nil,
      or_false] at hx
    rcases hx with rfl | rfl | rfl | rfl | rfl <;> rfl
  rw [List.append_nil] at hturns
  exact ⟨hconfigured, hturns, hmarked, hnamed, lint_sifted hconfigured hturns hmarked hnamed⟩

end SheetLint
