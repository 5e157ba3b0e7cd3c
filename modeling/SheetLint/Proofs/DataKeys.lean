import Mathlib.Data.List.Forall2
import SheetLint.Data

/-!
# Keys of plain data

What plain data can be a key of a table: what cannot change, made of what cannot change. On keys
`Data.same` is an equivalence; on all data it is reflexive (`Data.same_refl`). Each shape of key has
one lemma that says what equals it (`Data.same_text`, `Data.same_number`, ...).
-/

namespace SheetLint

namespace Magnitude

/-- A point of the line is the same as itself alone. -/
theorem same_point_iff {x y : Magnitude} (hx : x ≠ .undefined) : x.same y = true ↔ y = x := by
  simp [same, hx, eq_comm]

end Magnitude

namespace Moment

/-- What a moment is told from others by: a point in time where one is known, and else its parts. -/
def face (m : Moment) : (Int × Nat) ⊕ Moment :=
  match m with
  | .both d c (some n) => .inl (instant d c n)
  | _ => .inr m

/-- Moments are the same if what they are told from others by is. -/
theorem same_iff_face {m k : Moment} : m.same k = true ↔ m.face = k.face := by
  cases m with
  | both d c offset =>
    cases offset with
    | some n =>
      cases k with
      | both d' c' offset' => cases offset' <;> simp [same, face]
      | _ => simp [same, face]
    | none =>
      cases k with
      | both d' c' offset' => cases offset' <;> simp [same, face]
      | _ => simp [same, face]
  | _ =>
    cases k with
    | both d' c' offset' => cases offset' <;> simp [same, face]
    | _ => simp [same, face]

end Moment

namespace Data

variable {a b : Data}

/-- What may be a key of a table. -/
inductive IsKey : Data → Prop
  | null : IsKey .null
  | number {d : Data} {x : Magnitude} : d.number? = some x → x ≠ .undefined → IsKey d
  | noNumber (mark : Nat) : IsKey (.float .nan mark)
  | text (s : String) : IsKey (.text s)
  | tuple {items : List Data} : (∀ d ∈ items, IsKey d) → IsKey (.tuple items)
  | record (name : String) {fields : List (String × Data)} : (∀ f ∈ fields, IsKey f.2) →
    IsKey (.record name fields)
  | moment (m : Moment) : IsKey (.moment m)
  | bytes (bs : List UInt8) : IsKey (.bytes bs)
  | word (s : String) : IsKey (.word s)
  | thing (id : Nat) (type : String) : IsKey (.thing id type)

/-! ## What equals a key -/

theorem same_null : same .null b = true ↔ b = .null := by
  cases b <;> simp [same, number?]

theorem same_text {s : String} : same (.text s) b = true ↔ b = .text s := by
  cases b with
  | text t =>
    rw [same, beq_iff_eq, text.injEq]
    exact eq_comm
  | _ => simp [same, number?]

@[simp] theorem same_text_text (s t : String) : same (.text s) (.text t) = (s == t) := by
  rw [same]

theorem same_bytes {bs : List UInt8} : same (.bytes bs) b = true ↔ b = .bytes bs := by
  cases b with
  | bytes cs =>
    rw [same, beq_iff_eq, bytes.injEq]
    exact eq_comm
  | _ => simp [same, number?]

theorem same_word {s : String} : same (.word s) b = true ↔ b = .word s := by
  cases b with
  | word t =>
    rw [same, beq_iff_eq, word.injEq]
    exact eq_comm
  | _ => simp [same, number?]

/-- The type of a thing is known from the thing. -/
theorem same_thing {id : Nat} {type : String} :
    same (.thing id type) b = true ↔ ∃ type', b = .thing id type' := by
  cases b with
  | thing id' type' =>
    rw [same, beq_iff_eq]
    constructor
    · rintro rfl
      exact ⟨type', rfl⟩
    · rintro ⟨_, h⟩
      exact (thing.inj h).1.symm
  | _ => simp [same, number?]

/-- What is the same as a moment is a moment with the same face. -/
theorem same_moment {m : Moment} :
    same (.moment m) b = true ↔ ∃ k, b = .moment k ∧ m.face = k.face := by
  cases b with
  | moment k =>
    rw [same, Moment.same_iff_face]
    constructor
    · exact fun h => ⟨k, rfl, h⟩
    · rintro ⟨_, hk, h⟩
      exact moment.inj hk ▸ h
  | _ => simp [same, number?]

/-- A number that is no number is the same as itself alone. -/
theorem same_noNumber {m : Nat} : same (.float .nan m) b = true ↔ b = .float .nan m := by
  cases b with
  | float y k =>
    cases y with
    | nan =>
      rw [same, beq_iff_eq, float.injEq]
      exact ⟨fun h => ⟨rfl, h.symm⟩, fun h => h.2.symm⟩
    | _ => simp [same, number?, Magnitude.same, Binary64.magnitude]
  | _ => simp [same, number?, Magnitude.same, Binary64.magnitude]

/-- Numbers are told apart by their points on the line. -/
theorem same_number {x : Magnitude} (ha : a.number? = some x) (hx : x ≠ .undefined) :
    same a b = true ↔ b.number? = some x := by
  have hpoint (y : Magnitude) := Magnitude.same_point_iff (y := y) hx
  cases a with
  | bool p =>
    obtain rfl := Option.some.inj ha
    cases b with
    | bool q => simp [same, number?, hpoint]
    | int j => simp [same, number?, hpoint]
    | float y m => simp [same, number?, hpoint]
    | _ => simp [same, number?]
  | int i =>
    obtain rfl := Option.some.inj ha
    cases b with
    | bool q => simp [same, number?, hpoint]
    | int j => simp [same, number?, hpoint]
    | float y m => simp [same, number?, hpoint]
    | _ => simp [same, number?]
  | float z k =>
    obtain rfl := Option.some.inj ha
    have hz : z ≠ .nan := by
      rintro rfl
      exact hx rfl
    cases b with
    | bool q => simp [same, number?, hpoint]
    | int j => simp [same, number?, hpoint]
    | float y m => simp [same, number?, hpoint, hz]
    | _ => simp [same, number?]
  | _ => simp [number?] at ha

theorem sameItems_iff : ∀ {xs ys : List Data},
    sameItems xs ys = true ↔ List.Forall₂ (fun x y => same x y = true) xs ys
  | [], [] => by simp [sameItems]
  | [], _ :: _ => by simp [sameItems]
  | _ :: _, [] => by simp [sameItems]
  | x :: xs, y :: ys => by
    rw [sameItems, Bool.and_eq_true, List.forall₂_cons, sameItems_iff]

theorem sameFields_iff : ∀ {fs gs : List (String × Data)}, sameFields fs gs = true ↔
    List.Forall₂ (fun f g => f.1 = g.1 ∧ same f.2 g.2 = true) fs gs
  | [], [] => by simp [sameFields]
  | [], _ :: _ => by simp [sameFields]
  | _ :: _, [] => by simp [sameFields]
  | (f, v) :: fs, (g, w) :: gs => by
    rw [sameFields, Bool.and_eq_true, Bool.and_eq_true, beq_iff_eq, List.forall₂_cons,
      sameFields_iff]

theorem same_tuple {xs : List Data} : same (.tuple xs) b = true ↔
    ∃ ys, b = .tuple ys ∧ List.Forall₂ (fun x y => same x y = true) xs ys := by
  cases b <;> simp [same, number?, sameItems_iff]

/-- What is the same as a record is a record of the same name with the same fields, in this
order. -/
theorem same_record {name : String} {fs : List (String × Data)} :
    same (.record name fs) b = true ↔ ∃ gs, b = .record name gs ∧
      List.Forall₂ (fun f g => f.1 = g.1 ∧ same f.2 g.2 = true) fs gs := by
  cases b with
  | record name' gs =>
    rw [same, Bool.and_eq_true, beq_iff_eq, sameFields_iff]
    constructor
    · rintro ⟨rfl, h⟩
      exact ⟨gs, rfl, h⟩
    · rintro ⟨_, h, hfields⟩
      obtain ⟨rfl, rfl⟩ := record.inj h
      exact ⟨rfl, hfields⟩
  | _ => simp [same, number?]

/-! ## An equivalence -/

theorem forall₂_symm {α : Type} {r : α → α → Prop} {xs ys : List α}
    (h : List.Forall₂ r xs ys) (hr : ∀ x ∈ xs, ∀ y, r x y → r y x) : List.Forall₂ r ys xs := by
  induction h with
  | nil => exact .nil
  | cons hxy _ ih =>
    exact .cons (hr _ (List.mem_cons_self ..) _ hxy)
      (ih fun x hx => hr x (List.mem_cons_of_mem _ hx))

/-- Relations of rows of equal length are transitive if those of their members are. -/
theorem forall₂_trans {α : Type} {r : α → α → Prop} {xs ys zs : List α}
    (h : List.Forall₂ r xs ys) (h' : List.Forall₂ r ys zs)
    (hr : ∀ x ∈ xs, ∀ y z, r x y → r y z → r x z) : List.Forall₂ r xs zs := by
  induction h generalizing zs with
  | nil =>
    cases h'
    exact .nil
  | cons hxy _ ih =>
    cases h' with
    | cons hyz hrest =>
      exact .cons (hr _ (List.mem_cons_self ..) _ _ hxy hyz)
        (ih hrest fun x hx => hr x (List.mem_cons_of_mem _ hx))

/-- Sameness is reflexive on what may be a key. -/
theorem IsKey.same_self (h : a.IsKey) : same a a = true := by
  induction h with
  | null => exact same_null.mpr rfl
  | number ha hx => exact (same_number ha hx).mpr ha
  | noNumber m => exact same_noNumber.mpr rfl
  | text s => exact same_text.mpr rfl
  | tuple _ ih => exact same_tuple.mpr ⟨_, rfl, List.forall₂_same.mpr ih⟩
  | record name _ ih =>
    exact same_record.mpr ⟨_, rfl, List.forall₂_same.mpr fun f hf => ⟨rfl, ih f hf⟩⟩
  | moment m => exact same_moment.mpr ⟨m, rfl, rfl⟩
  | bytes bs => exact same_bytes.mpr rfl
  | word s => exact same_word.mpr rfl
  | thing id type => exact same_thing.mpr ⟨type, rfl⟩

/-- Sameness is symmetric on what may be a key. -/
theorem IsKey.same_symm (h : a.IsKey) (hab : same a b = true) : same b a = true := by
  induction h generalizing b with
  | null => exact same_null.mp hab ▸ hab
  | number ha hx =>
    have hb := (same_number ha hx).mp hab
    exact (same_number hb hx).mpr ha
  | noNumber m => exact same_noNumber.mp hab ▸ same_noNumber.mpr rfl
  | text s => exact same_text.mp hab ▸ same_text.mpr rfl
  | tuple _ ih =>
    obtain ⟨ys, rfl, hitems⟩ := same_tuple.mp hab
    exact same_tuple.mpr ⟨_, rfl, forall₂_symm hitems fun x hx y => ih x hx⟩
  | record name _ ih =>
    obtain ⟨gs, rfl, hfields⟩ := same_record.mp hab
    exact same_record.mpr
      ⟨_, rfl, forall₂_symm hfields fun f hf g h => ⟨h.1.symm, ih f hf h.2⟩⟩
  | moment m =>
    obtain ⟨k, rfl, hface⟩ := same_moment.mp hab
    exact same_moment.mpr ⟨m, rfl, hface.symm⟩
  | bytes bs => exact same_bytes.mp hab ▸ same_bytes.mpr rfl
  | word s => exact same_word.mp hab ▸ same_word.mpr rfl
  | thing id type =>
    obtain ⟨type', rfl⟩ := same_thing.mp hab
    exact same_thing.mpr ⟨type, rfl⟩

/-- Sameness is transitive on what may be a key. -/
theorem IsKey.same_trans {c : Data} (h : a.IsKey) (hab : same a b = true)
    (hbc : same b c = true) : same a c = true := by
  -- the shape of the first key settles those of the other two, so none of them need be keys
  induction h generalizing b c with
  | null => exact same_null.mp hab ▸ hbc
  | number ha hx =>
    have hb := (same_number ha hx).mp hab
    exact (same_number ha hx).mpr ((same_number hb hx).mp hbc)
  | noNumber m => exact same_noNumber.mp hab ▸ hbc
  | text s => exact same_text.mp hab ▸ hbc
  | tuple _ ih =>
    obtain ⟨ys, rfl, hitems⟩ := same_tuple.mp hab
    obtain ⟨zs, rfl, hitems'⟩ := same_tuple.mp hbc
    exact same_tuple.mpr ⟨zs, rfl, forall₂_trans hitems hitems' fun x hx y z => ih x hx⟩
  | record name _ ih =>
    obtain ⟨gs, rfl, hfields⟩ := same_record.mp hab
    obtain ⟨hs, rfl, hfields'⟩ := same_record.mp hbc
    exact same_record.mpr ⟨hs, rfl, forall₂_trans hfields hfields' fun f hf g h hfg hgh =>
      ⟨hfg.1.trans hgh.1, ih f hf hfg.2 hgh.2⟩⟩
  | moment m =>
    obtain ⟨k, rfl, hface⟩ := same_moment.mp hab
    obtain ⟨l, rfl, hface'⟩ := same_moment.mp hbc
    exact same_moment.mpr ⟨l, rfl, hface.trans hface'⟩
  | bytes bs => exact same_bytes.mp hab ▸ hbc
  | word s => exact same_word.mp hab ▸ hbc
  | thing id type =>
    obtain ⟨type', rfl⟩ := same_thing.mp hab
    obtain ⟨type'', rfl⟩ := same_thing.mp hbc
    exact same_thing.mpr ⟨type'', rfl⟩

/-! ## All data -/

theorem sameEntries_iff {ys : List (Data × Data)} : ∀ {xs : List (Data × Data)},
    sameEntries xs ys = true ↔
      ∀ e ∈ xs, ∃ f ∈ ys, same e.1 f.1 = true ∧ same e.2 f.2 = true
  | [] => by simp [sameEntries]
  | (k, v) :: xs => by
    rw [sameEntries, Bool.and_eq_true, sameEntries_iff, List.forall_mem_cons, List.any_eq_true]
    simp only [Bool.and_eq_true]

theorem sameMembers_iff {ys : List Data} : ∀ {xs : List Data},
    sameMembers xs ys = true ↔ ∀ x ∈ xs, ∃ y ∈ ys, same x y = true
  | [] => by simp [sameMembers]
  | x :: xs => by
    rw [sameMembers, Bool.and_eq_true, sameMembers_iff, List.forall_mem_cons, List.any_eq_true]

theorem same_table {xs ys : List (Data × Data)} : same (.table xs) (.table ys) = true ↔
    xs.length = ys.length ∧ ∀ e ∈ xs, ∃ f ∈ ys, same e.1 f.1 = true ∧ same e.2 f.2 = true := by
  rw [same, Bool.and_eq_true, beq_iff_eq, sameEntries_iff]

mutual

/-- Data equal themselves. -/
theorem same_refl : ∀ d : Data, same d d = true
  | .null => IsKey.null.same_self
  | .bool b => (IsKey.number rfl (by simp)).same_self
  | .int i => (IsKey.number rfl (by simp)).same_self
  | .float .nan m => (IsKey.noNumber m).same_self
  | .float (.infinite below) m =>
    (IsKey.number rfl (by cases below <;> simp [Binary64.magnitude])).same_self
  | .float (.finite ..) m => (IsKey.number rfl (by simp [Binary64.magnitude])).same_self
  | .text s => (IsKey.text s).same_self
  | .list xs => by
    rw [same, sameItems_iff]
    exact List.forall₂_same.mpr (sameItems_refl xs)
  | .tuple xs => same_tuple.mpr ⟨xs, rfl, List.forall₂_same.mpr (sameItems_refl xs)⟩
  | .table es => same_table.mpr ⟨rfl, fun e he => ⟨e, he, sameEntries_refl es e he⟩⟩
  | .record name fs =>
    same_record.mpr ⟨fs, rfl, List.forall₂_same.mpr fun f hf => ⟨rfl, sameFields_refl fs f hf⟩⟩
  | .moment m => (IsKey.moment m).same_self
  | .bytes bs => (IsKey.bytes bs).same_self
  | .set xs => by
    rw [same, Bool.and_eq_true, beq_iff_eq, sameMembers_iff]
    exact ⟨rfl, fun x hx => ⟨x, hx, sameItems_refl xs x hx⟩⟩
  | .word s => (IsKey.word s).same_self
  | .thing id type => (IsKey.thing id type).same_self

theorem sameItems_refl : ∀ (xs : List Data), ∀ x ∈ xs, same x x = true
  | [] => by simp
  | x :: xs => List.forall_mem_cons.mpr ⟨same_refl x, sameItems_refl xs⟩

theorem sameEntries_refl : ∀ (es : List (Data × Data)),
    ∀ e ∈ es, same e.1 e.1 = true ∧ same e.2 e.2 = true
  | [] => by simp
  | (k, v) :: es => List.forall_mem_cons.mpr ⟨⟨same_refl k, same_refl v⟩, sameEntries_refl es⟩

theorem sameFields_refl : ∀ (fs : List (String × Data)), ∀ f ∈ fs, same f.2 f.2 = true
  | [] => by simp
  | (_, v) :: fs => List.forall_mem_cons.mpr ⟨same_refl v, sameFields_refl fs⟩

end

end Data

end SheetLint
