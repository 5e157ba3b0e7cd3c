import Mathlib.Data.List.Lex
import Mathlib.Data.Prod.Lex
import SheetLint.Proofs.Recording

/-!
# What lints are sorted by

Lints are compared by file, location and name of the linter, which may fail for values of different
sorts. Among lints of one file, with locations of whole numbers and names that are texts, it never
does: the comparison is that of a key from a linear order (`compareRow_key`), since rows are
compared as in a dictionary, and texts by their code points, which tell them apart.
-/

namespace SheetLint

namespace Text.Half

/-- A character stands for a half only if it is the stand-in of that half. -/
theorem half?_eq_some {c : Char} {n : Nat} (h : half? c = some n) :
    c.toNat = n + shift ∧ isHalf n = true := by
  unfold half? at h
  simp only at h
  split at h
  · rename_i hhalf
    obtain rfl := Option.some.inj h
    refine ⟨?_, hhalf⟩
    simp only [isHalf, Bool.and_eq_true, decide_eq_true_eq] at hhalf
    omega
  · simp at h

/-- No character is at the code point of a half. -/
theorem not_isHalf_toNat (c : Char) : isHalf c.toNat = false := by
  rw [Bool.eq_false_iff]
  intro hhalf
  simp only [isHalf, Bool.and_eq_true, decide_eq_true_eq] at hhalf
  have hvalid : c.toNat.isValidChar := c.valid
  simp only [Nat.isValidChar] at hvalid
  omega

/-- Different characters stand for different code points: no character is at the code point of a
half. -/
theorem point_injective : Function.Injective point := by
  intro c d h
  apply Char.toNat_inj.mp
  unfold point at h
  cases hc : half? c with
  | none =>
    cases hd : half? d with
    | none => simpa [hc, hd] using h
    | some n =>
      obtain ⟨_, hhalf⟩ := half?_eq_some hd
      have hn : c.toNat = n := by simpa [hc, hd] using h
      rw [← hn, not_isHalf_toNat] at hhalf
      exact absurd hhalf (by simp)
  | some n =>
    obtain ⟨hcn, hhalf⟩ := half?_eq_some hc
    cases hd : half? d with
    | none =>
      have hn : n = d.toNat := by simpa [hc, hd] using h
      rw [hn, not_isHalf_toNat] at hhalf
      exact absurd hhalf (by simp)
    | some m =>
      obtain ⟨hdm, _⟩ := half?_eq_some hd
      have hnm : n = m := by simpa [hc, hd] using h
      rw [hcn, hdm, hnm]

theorem points_injective : Function.Injective points := by
  intro t u h
  exact String.toList_inj.mp (List.map_injective_iff.mpr point_injective h)

end Text.Half

namespace Store

variable {s : Store}

/-! ## Rows -/

section Rows

variable {α β : Type} [LinearOrder α] [LinearOrder β] {x y : Value} {xs ys : List Value}
  {member compare : Value → Value → Except Fault Bool} {a a' : α} {b b' : β}

/-- Rows are compared as words in a dictionary are. -/
theorem compareRows_cons (hmember : member x y = .ok (decide (a = a')))
    (hcompare : compare x y = .ok (decide (a < a')))
    (hrest : compareRows member compare .lt xs ys = .ok (decide (b < b'))) :
    compareRows member compare .lt (x :: xs) (y :: ys) =
      .ok (decide (toLex (a, b) < toLex (a', b'))) := by
  rw [compareRows, hmember]
  by_cases heq : a = a'
  · simp [heq, hrest, Prod.Lex.toLex_lt_toLex]
  · simp [heq, hcompare, Prod.Lex.toLex_lt_toLex]

theorem compareRows_last (hmember : member x y = .ok (decide (a = a')))
    (hcompare : compare x y = .ok (decide (a < a'))) :
    compareRows member compare .lt [x] [y] = .ok (decide (a < a')) := by
  rw [compareRows, hmember]
  by_cases heq : a = a'
  · simp [heq, compareRows, Comparison.holds, Ord.compare]
  · simp [heq, hcompare]

end Rows

theorem trySameMember_of_unbacked (hs : s.hasBacked = false) (depth : Nat) (a b : Value) :
    s.trySameMember depth a b = .ok (s.sameMemberTo depth a b) := by
  rw [trySameMember, equalityFault?_of_unbacked hs]
  split
  · rename_i hone
    rw [sameMemberTo, hone, Bool.true_or]
  · rfl

/-! ## Whole numbers, texts and locations -/

variable {depth inner d : Nat}

theorem sameMemberTo_int (i j : Int) :
    s.sameMemberTo (d + 1) (.int i) (.int j) = decide (i = j) := by
  simp [sameMemberTo, Value.identical, Value.cell?, sameTo, Value.number?, Magnitude.same]

theorem compareTo_int (i j : Int) :
    s.compareTo .lt inner (d + 1) (.int i) (.int j) = .ok (decide (i < j)) := by
  simp only [compareTo, Value.number?, Magnitude.order, Option.elim, Rat.intCast_lt_intCast]
  congr 1
  by_cases hij : i < j
  · simp [hij, Comparison.holds]
  · by_cases hji : j < i <;> simp [hij, hji, Comparison.holds]

theorem sameMemberTo_text (t u : String) :
    s.sameMemberTo (d + 1) (.text t) (.text u) =
      decide (Text.Half.points t = Text.Half.points u) := by
  simp only [sameMemberTo, Value.identical, Value.cell?, sameTo, Bool.false_or,
    Text.Half.points_injective.eq_iff]
  exact beq_eq_decide t u

theorem compareTo_text (t u : String) :
    s.compareTo .lt inner (d + 1) (.text t) (.text u) =
      .ok (decide (Text.Half.points t < Text.Half.points u)) := by
  simp only [compareTo, textOrder]
  congr 1
  by_cases htu : Text.Half.points t < Text.Half.points u
  · simp [htu, Comparison.holds]
  · by_cases heq : t = u <;> simp [htu, heq, Comparison.holds]

/-- What the key of a location of whole numbers is. -/
def placeKey (line column length : Int) : Int ×ₗ Int ×ₗ Int :=
  toLex (line, toLex (column, length))

variable {mark mark' : Nat} {l c n l' c' n' : Int}

theorem sameTo_location : s.sameTo (d + 2) (.location mark (.int l) (.int c) (.int n))
    (.location mark' (.int l') (.int c') (.int n')) =
      decide (placeKey l c n = placeKey l' c' n') := by
  have hint : ∀ i j : Int, ((Value.int i).identical (.int j) ||
      s.sameTo (d + 1) (.int i) (.int j)) = decide (i = j) := fun i j => sameMemberTo_int i j
  simp only [sameTo, Value.pairwise] at hint ⊢
  simp only [hint, placeKey]
  simp

/-- Locations of whole numbers are compared by line, then column, then length. -/
theorem compareTo_location (hs : s.hasBacked = false) :
    s.compareTo .lt (inner + 1) (d + 2) (.location mark (.int l) (.int c) (.int n))
      (.location mark' (.int l') (.int c') (.int n')) =
        .ok (decide (placeKey l c n < placeKey l' c' n')) := by
  have hmember : ∀ i j : Int,
      s.trySameMember (inner + 1) (.int i) (.int j) = .ok (decide (i = j)) := fun i j => by
    rw [trySameMember_of_unbacked hs, sameMemberTo_int]
  rw [compareTo]
  refine compareRows_cons (hmember l l') (compareTo_int l l') ?_
  refine compareRows_cons (hmember c c') (compareTo_int c c') ?_
  exact compareRows_last (hmember n n') (compareTo_int n n')

/-- What is there is one with itself. -/
theorem sameMemberTo_self {v : Value} (hv : v.isMissing = false) :
    s.sameMemberTo (d + 1) v v = true := by
  cases v with
  | missing owner name => simp [Value.isMissing] at hv
  | bool b => simp [sameMemberTo, sameTo, Value.number?, Magnitude.same]
  | float x m =>
    cases x with
    | nan => simp [sameMemberTo, Value.identical, Value.cell?]
    | infinite negative =>
      cases negative <;>
        simp [sameMemberTo, sameTo, Value.number?, Binary64.magnitude, Magnitude.same]
    | finite negative m e =>
      simp [sameMemberTo, sameTo, Value.number?, Binary64.magnitude, Magnitude.same]
  | int i => simp [sameMemberTo_int]
  | null | text _ | severity _ | policy _ | foreign _ => simp [sameMemberTo, sameTo]
  | _ => simp [sameMemberTo, Value.identical, Value.cell?]

theorem four_le_depthAmong (s : Store) {v : Value} {vs : List Value} (hv : v ∈ vs) :
    4 ≤ s.depthAmong vs := by
  have hparts : 0 < Value.weightAll vs := by
    rw [← Value.length_partsAll]
    exact List.length_pos_of_mem (Value.mem_partsAll.mpr ⟨v, hv, v.self_mem_parts⟩)
  have hsquare : 2 * 2 ≤ s.depthAmong vs := Nat.mul_le_mul (by omega) (by omega)
  exact hsquare

theorem exists_depthAmong (s : Store) {v : Value} {vs : List Value} (hv : v ∈ vs) :
    ∃ d, s.depthAmong vs = d + 2 := by
  have hfour := s.four_le_depthAmong hv
  exact ⟨s.depthAmong vs - 2, by omega⟩

/-- Where files agree, lints are compared by their locations and the names of their linters. -/
theorem compareRows_place (hs : s.hasBacked = false)
    (hmark : mark = mark' → placeKey l c n = placeKey l' c' n') (t u : String) :
    compareRows (s.trySameMember (d + 2)) (s.compareTo .lt (d + 2) (d + 2)) .lt
      [.location mark (.int l) (.int c) (.int n), .text t]
      [.location mark' (.int l') (.int c') (.int n'), .text u] =
        .ok (decide (toLex (placeKey l c n, Text.Half.points t) <
          toLex (placeKey l' c' n', Text.Half.points u))) := by
  have hplace : s.trySameMember (d + 2) (.location mark (.int l) (.int c) (.int n))
      (.location mark' (.int l') (.int c') (.int n')) =
        .ok (decide (placeKey l c n = placeKey l' c' n')) := by
    rw [trySameMember_of_unbacked hs, sameMemberTo, sameTo_location]
    by_cases hone : mark = mark'
    · simp [Value.identical, Value.cell?, hone, hmark hone]
    · simp [Value.identical, Value.cell?, hone]
  refine compareRows_cons hplace (compareTo_location hs) ?_
  refine compareRows_last ?_ ?_
  · rw [trySameMember_of_unbacked hs, sameMemberTo_text]
    congr
  · rw [compareTo_text]
    congr

/-- Lints of one file are compared by their locations and the names of their linters. -/
theorem compareRow_key (hs : s.hasBacked = false) {file : Value} (hfile : file.isMissing = false)
    (hmark : mark = mark' → placeKey l c n = placeKey l' c' n') (t u : String) :
    s.compareRow (d + 2) .lt [file, .location mark (.int l) (.int c) (.int n), .text t]
      [file, .location mark' (.int l') (.int c') (.int n'), .text u] =
        .ok (decide (toLex (placeKey l c n, Text.Half.points t) <
          toLex (placeKey l' c' n', Text.Half.points u))) := by
  rw [compareRow, compareRows, trySameMember_of_unbacked hs, sameMemberTo_self hfile]
  exact compareRows_place hs hmark t u

/-- Lints are compared by their files, their locations and the names of their linters. -/
theorem compareRow_files (hs : s.hasBacked = false)
    (hmark : mark = mark' → placeKey l c n = placeKey l' c' n') (f f' t u : String) :
    s.compareRow (d + 2) .lt [.text f, .location mark (.int l) (.int c) (.int n), .text t]
      [.text f', .location mark' (.int l') (.int c') (.int n'), .text u] =
        .ok (decide (toLex (Text.Half.points f, toLex (placeKey l c n, Text.Half.points t)) <
          toLex (Text.Half.points f', toLex (placeKey l' c' n', Text.Half.points u)))) := by
  have hrest := compareRows_place (d := d) hs hmark t u
  refine compareRows_cons ?_ ?_ hrest
  · rw [trySameMember_of_unbacked hs, sameMemberTo_text]
    congr
  · rw [compareTo_text]
    congr

end Store

end SheetLint
