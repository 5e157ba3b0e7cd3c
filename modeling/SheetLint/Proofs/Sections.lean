import SheetLint.Settings
import SheetLint.Proofs.Keyed

/-!
# Where sections are read from

The section of a linter is a table in a table in a table. If a kind of values passes from tables to
what is kept in them (`Reading.Passes`), then all that settings read from entries of the kind is of
the kind as well, so two readings that agree about such values find the same sections
(`Agrees.sectionOf`) and have the same linters enabled (`Agrees.enabledIn`).
-/

namespace SheetLint.Reading

variable {V : Type} {r r' : Reading V} {P : V → Prop} {es : List (V × V)} {k v : V}

/-- Of tables of a kind, the values in them are of the kind too. -/
def Passes (r : Reading V) (P : V → Prop) : Prop :=
  ∀ v es, P v → r.table? v = some es → ∀ e ∈ es, P e.2

/-- What is found is one of the values. -/
theorem of_lookup (hes : ∀ e ∈ es, P e.2) (h : r.lookup es k = some v) : P v := by
  obtain ⟨e, he, -, rfl⟩ := Entries.exists_of_get? h
  exact hes e he

namespace Passes

variable (hr : r.Passes P)
include hr

/-- What holds of all that settings lead to holds of all sections. -/
theorem sections (hes : ∀ e ∈ es, P e.2) :
    ∀ e ∈ (Settings.sections? r es).getD [], P e.2 := by
  unfold Settings.sections?
  cases hv : r.lookupText es Settings.lintersKey with
  | none => simp
  | some v =>
    cases hsections : r.table? v with
    | none => simp [hsections]
    | some sections =>
      simp only [hsections, Option.getD_some]
      exact hr v sections (of_lookup hes hv) hsections

/-- And of all that is in the section of a linter. -/
theorem sectionOf (hes : ∀ e ∈ es, P e.2) (linter : V) :
    ∀ e ∈ Settings.sectionOf r es linter, P e.2 := by
  unfold Settings.sectionOf
  cases hv : r.lookup ((Settings.sections? r es).getD []) linter with
  | none => simp
  | some v =>
    cases hown : r.table? v with
    | none => simp [hown]
    | some own =>
      simp only [Option.bind_some, hown, Option.getD_some]
      exact hr v own (of_lookup (hr.sections hes) hv) hown

end Passes

/-- Readings that know the same keys, and the same tables and truths of a kind of values. -/
structure Agrees (P : V → Prop) (r r' : Reading V) : Prop where
  same : r'.same = r.same
  ofText : r'.ofText = r.ofText
  table? : ∀ v, P v → r'.table? v = r.table? v
  truthy : ∀ v, P v → r'.truthy v = r.truthy v

namespace Agrees

variable (h : Agrees P r r')
include h

theorem lookup (es : List (V × V)) (k : V) : r'.lookup es k = r.lookup es k := by
  unfold Reading.lookup
  rw [h.same]

theorem lookupText (es : List (V × V)) (name : String) :
    r'.lookupText es name = r.lookupText es name := by
  unfold Reading.lookupText
  rw [h.lookup, h.ofText]

theorem sections? (hes : ∀ e ∈ es, P e.2) :
    Settings.sections? r' es = Settings.sections? r es := by
  unfold Settings.sections?
  rw [h.lookupText]
  cases hv : r.lookupText es Settings.lintersKey with
  | none => rfl
  | some v => exact h.table? v (of_lookup hes hv)

theorem sectionOf (hr : r.Passes P) (hes : ∀ e ∈ es, P e.2) (linter : V) :
    Settings.sectionOf r' es linter = Settings.sectionOf r es linter := by
  unfold Settings.sectionOf
  rw [h.sections? hes, h.lookup]
  cases hv : r.lookup ((Settings.sections? r es).getD []) linter with
  | none => rfl
  | some v =>
    exact congrArg (Option.getD · []) (h.table? v (of_lookup (hr.sections hes) hv))

theorem enabledIn (hes : ∀ e ∈ es, P e.2) :
    Settings.enabledIn r' es = Settings.enabledIn r es := by
  unfold Settings.enabledIn
  rw [h.lookupText]
  cases hv : r.lookupText es "enabled" with
  | none => rfl
  | some v => exact h.truthy v (of_lookup hes hv)

end Agrees

end SheetLint.Reading
