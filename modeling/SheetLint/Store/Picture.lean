import SheetLint.Data
import SheetLint.Store

/-!
# Pictures of values

The picture of a value is the plain data that is printed for it. Nodes, lists and tables are looked
up in the store; a thing that is inside itself is drawn as an ellipsis, so every picture is finite.
Printing stops at a part that has lost an attribute, and at a whole number of too many digits:
`Store.printFault?` finds the first of these.
-/

namespace SheetLint

namespace Severity

/-- A severity as it is printed within a lint. -/
def printed (s : Severity) : String :=
  match s with
  | .warning => "<Severity.WARNING: 'warning'>"
  | .error => "<Severity.ERROR: 'error'>"

end Severity

namespace ParentPolicy

/-- A policy as it is printed. -/
def printed (p : ParentPolicy) : String :=
  match p with
  | .refresh => "<ParentPolicy.REFRESH: 'refresh'>"
  | .strict => "<ParentPolicy.STRICT: 'strict'>"

end ParentPolicy

namespace Role

/-- An agent as it is printed, given the bare and the printed form of its name. -/
def printed (r : Role) (bare quoted : String) : String :=
  match r with
  | .linter l => l.behaviour.className ++ "(name=" ++ bare ++ ")"
  | .standIn _ => r.className ++ "(" ++ quoted ++ ")"
  | .settings .. => "<" ++ r.className ++ ">"

end Role

namespace Store

/-- The picture of a value to a depth of `depth`, inside the cells `within`. -/
def pictureTo (s : Store) : (depth : Nat) → (within : List Cell) → Value → Data
  | 0, _, _ => .word "..."
  | d + 1, within, v =>
    let isWithin := v.cell?.elim false within.contains
    let inner := s.pictureTo d (v.cell?.toList ++ within)
    match v with
    | .null => .null
    | .bool b => .bool b
    | .int i => .int i
    | .float x m => .float x m
    | .text t => .text t
    | .list l => if isWithin then .word "[...]" else .list ((s.list l).map inner)
    | .tuple _ xs => if isWithin then .word "(...)" else .tuple (xs.map inner)
    | .table t =>
      if isWithin then .word "\x7b...\x7d"
      else .table ((s.table t).map fun e => (inner e.1, inner e.2))
    | .node n =>
      if isWithin then .word "..."
      else
        let x := s.node n
        .record x.nodeClass.name (x.fields.map fun f => (f.1, inner f.2))
    | .location _ l c n =>
      if isWithin then .word "..."
      else .record "Location" [("line", inner l), ("column", inner c), ("length", inner n)]
    | .lint _ source file loc description severity _ =>
      if isWithin then .word "..."
      else .record "Lint" [("linter", inner source), ("filename", inner file),
        ("location", inner loc), ("description", inner description), ("severity", inner severity)]
    | .agent i =>
      match s.agent? i with
      | some a =>
        let name := inner ((a.own? "name").getD .null)
        .word (a.role.printed name.bare name.quoted)
      | none => .word "..."
    | .severity x => .word x.printed
    | .policy p => .word p.printed
    | .foreign type => .word ("<" ++ type ++ ">")
    | .missing .. => .word "..."

/-- The picture of a value. A chain of parts that enters nothing twice is no longer than the
weight of the store and the value together. -/
def picture (s : Store) (v : Value) : Data :=
  s.pictureTo (s.weight + v.weight + 1) [] v

/-- The printed form of a value. -/
def quoted (s : Store) (v : Value) : String := (s.picture v).quoted

/-- The first thing that stops the printing of a value to a depth of `depth`, inside the cells
`within`: an attribute that was lost, or a whole number of too many digits. -/
def printFaultTo (s : Store) : (depth : Nat) → (within : List Cell) → Value → Option Fault
  | 0, _, _ => none
  | d + 1, within, v =>
    let inner (vs : List Value) : Option Fault :=
      if v.cell?.elim false within.contains then none
      else vs.findSome? (s.printFaultTo d (v.cell?.toList ++ within))
    match v with
    | .missing owner name => if s.hasMissing then some (.missingAttribute owner name) else none
    | .int i => Fault.ofInt? i
    | .list l => inner (s.list l)
    | .tuple _ xs => inner xs
    | .table t => inner ((s.table t).flatMap fun e => [e.1, e.2])
    | .node n => inner ((s.node n).fields.map (·.2))
    | .location _ l c n => inner [l, c, n]
    | .lint _ source file loc description severity _ =>
      inner [source, file, loc, description, severity]
    | .agent i =>
      match s.agent? i with
      | some { role := .settings .., .. } => none
      | found => inner (found.bind (·.own? "name")).toList
    | _ => none

/-- What keeps a value from being printed, if anything does. -/
def printFault? (s : Store) (v : Value) : Option Fault :=
  s.printFaultTo (s.weight + v.weight + 1) [] v

/-- Nothing but an attribute that was lost and a number of too many digits stops the printing. -/
theorem printFaultTo_cases {s : Store} :
    ∀ {d : Nat} {within : List Cell} {v : Value} {fault : Fault},
    s.printFaultTo d within v = some fault →
      fault = .unprintable ∨
        s.hasMissing = true ∧ ∃ owner name, fault = .missingAttribute owner name
  | 0, _, _, _, h => by simp [printFaultTo] at h
  | d + 1, within, v, fault, h => by
    have inner : ∀ (isWithin : Bool) (within' : List Cell) (vs : List Value),
        (if isWithin then none else vs.findSome? (s.printFaultTo d within')) = some fault →
          fault = .unprintable ∨
            s.hasMissing = true ∧ ∃ owner name, fault = .missingAttribute owner name := by
      intro isWithin within' vs hfound
      cases isWithin with
      | true => cases hfound
      | false =>
        obtain ⟨w, _, hw⟩ := List.exists_of_findSome?_eq_some hfound
        exact printFaultTo_cases hw
    cases v with
    | missing owner name =>
      rw [printFaultTo, Option.ite_none_right_eq_some] at h
      exact .inr ⟨h.1, owner, name, (Option.some.inj h.2).symm⟩
    | int i =>
      exact .inl (Fault.ofInt?_eq_some h)
    | list l => exact inner _ _ _ h
    | tuple m xs => exact inner _ _ _ h
    | table t => exact inner _ _ _ h
    | node n => exact inner _ _ _ h
    | location m l c n => exact inner _ _ _ h
    | lint m source file loc description severity fixable => exact inner _ _ _ h
    | agent i =>
      rw [printFaultTo] at h
      split at h
      · cases h
      · exact inner _ _ _ h
    | _ => simp [printFaultTo] at h

/-- Where nothing was lost, everything can be printed but for numbers of too many digits. -/
theorem printFault?_of_unbacked {s : Store} (h : s.hasBacked = false) {v : Value} {fault : Fault}
    (hfault : s.printFault? v = some fault) : fault = .unprintable := by
  rcases printFaultTo_cases hfault with hlong | ⟨hlost, _⟩
  · exact hlong
  · simp [hasMissing, h] at hlost

/-- The printed form of a value, if it has one. -/
def tryQuoted (s : Store) (v : Value) : Except Fault String :=
  match s.printFault? v with
  | some fault => .error fault
  | none => .ok (s.quoted v)

/-- The bare form of a value: a text is itself, anything else is in its printed form. -/
def bare (s : Store) : Value → String
  | .text t => t
  | v => s.quoted v

/-- The bare form of a value, if nothing in it was lost. A number of many digits is written out all
the same: how many digits are too many can be set, and is looked at where values of any kind are
printed. -/
def tryBare (s : Store) (v : Value) : Except Fault String :=
  match s.printFault? v with
  | none | some .unprintable => .ok (s.bare v)
  | some fault => .error fault

/-- Where nothing was lost, every value has a bare form. -/
theorem tryBare_of_unbacked {s : Store} (h : s.hasBacked = false) (v : Value) :
    s.tryBare v = .ok (s.bare v) := by
  unfold tryBare
  split
  · rfl
  · rfl
  · rename_i fault hlong hfault
    exact absurd (printFault?_of_unbacked h hfault) hlong

end Store

end SheetLint
