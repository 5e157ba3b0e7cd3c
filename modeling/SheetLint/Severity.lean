/-!
# Severities and parent policies

The two small vocabularies that settings choose from.
-/

namespace SheetLint

/-- How serious a lint is. -/
inductive Severity where
  | warning
  | error
  deriving DecidableEq, Repr, Inhabited

namespace Severity

/-- The word for a severity in settings and messages. -/
def word : Severity → String
  | .warning => "warning"
  | .error => "error"

/-- The severity a word names. -/
def ofWord? (s : String) : Option Severity :=
  [warning, error].find? fun v => v.word == s

end Severity

/-- What happens when a node that already has a live parent is attached to another one. -/
inductive ParentPolicy where
  /-- The most recent parent wins, which suits trees that are walked in several passes. -/
  | refresh
  /-- The first parent wins; a second one means that the tree is malformed. -/
  | strict
  deriving DecidableEq, Repr, Inhabited

namespace ParentPolicy

/-- The word for a policy in settings and messages. -/
def word : ParentPolicy → String
  | .refresh => "refresh"
  | .strict => "strict"

/-- The policy a word names. -/
def ofWord? (s : String) : Option ParentPolicy :=
  [refresh, strict].find? fun v => v.word == s

end ParentPolicy

end SheetLint
