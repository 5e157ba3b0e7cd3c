import SheetLint.Linter

/-!
# Classes along a chain

The visit methods that most linters have are of one shape: they record lints at the node that is
visited and then, as the last thing, go on to its children or do not. A `Level` is what a class adds
to those it is derived from, and `LinterClass.chain` the class at the end of a chain of them. What
it does at the nodes of a kind is what the first class does that has a method for it, from the most
derived class on (`LinterClass.visit?_chain`).
-/

namespace SheetLint

/-- A lint that a visit method records at the node it is called with. -/
structure Finding where
  description : Value
  fixable : Bool := false

/-- A visit method that records lints and then goes on to the children, or does not. -/
structure VisitMethod where
  findings : List Finding
  descends : Bool

/-- What a class adds to those it is derived from. -/
structure Level where
  className : String
  name : Option Value := none
  severity : Option Severity := none
  methods : List (String × VisitMethod) := []

namespace Finding

/-- The lint is recorded. -/
def action (f : Finding) : Action := .lint f.description none f.fixable

end Finding

namespace VisitMethod

/-- What a visit method does. -/
def actions (m : VisitMethod) : List Action :=
  m.findings.map Finding.action ++ if m.descends then [.descend] else []

end VisitMethod

/-- The method for a kind along a chain, the most derived class first. Of several in one class the
last counts. -/
def methodFor : List Level → String → Option VisitMethod
  | [], _ => none
  | l :: ls, kind => (l.methods.reverse.lookup kind).or (methodFor ls kind)

/-- A method is one of those that the classes have. -/
theorem mem_of_methodFor {kind : String} {m : VisitMethod} : ∀ {ls : List Level},
    methodFor ls kind = some m → ∃ l ∈ ls, (kind, m) ∈ l.methods
  | l :: ls, h => by
    rcases Option.or_eq_some_iff.mp h with hown | ⟨_, hbefore⟩
    · obtain ⟨xs, ys, hmethods, _⟩ := List.lookup_eq_some_iff.mp hown
      refine ⟨l, List.mem_cons_self .., List.mem_reverse.mp ?_⟩
      simp [hmethods]
    · obtain ⟨l', hl', hm⟩ := mem_of_methodFor hbefore
      exact ⟨l', List.mem_cons_of_mem _ hl', hm⟩

theorem lookup_map {α β : Type} (f : α → β) (key : String) : ∀ es : List (String × α),
    (es.map fun e => (e.1, f e.2)).lookup key = (es.lookup key).map f
  | [] => rfl
  | (k, a) :: es => by
    rw [List.map_cons, List.lookup_cons, List.lookup_cons, lookup_map f key es]
    cases key == k <;> rfl

namespace LinterClass

/-- The class at the end of a chain, the most derived class first. -/
def chain : List Level → LinterClass
  | [] => base
  | l :: ls => (chain ls).derive l.className l.name l.severity
      (l.methods.map fun e => (e.1, e.2.actions))

/-- A class does at a kind what the method along its chain does. -/
theorem visit?_chain (kind : String) : ∀ ls : List Level,
    (chain ls).visit? kind = (methodFor ls kind).map VisitMethod.actions
  | [] => rfl
  | l :: ls => by
    have ih := visit?_chain kind ls
    unfold visit? at ih ⊢
    rw [chain, derive, List.lookup_append, ih, ← List.map_reverse, lookup_map, methodFor,
      Option.map_or]

/-- Where no class along the chain says otherwise, to go on is to visit the children. -/
theorem descent?_chain {ls : List Level} (h : methodFor ls "children" = none) :
    (chain ls).descent? = none := by
  rw [descent?, visit?_chain, h]
  rfl

end LinterClass

end SheetLint
