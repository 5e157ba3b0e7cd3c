/-!
# Log messages

What is logged, by occasion. `Message.text` is the only place that words a log message.
-/

namespace SheetLint

/-- How important a log message is. -/
inductive LogLevel where
  | debug
  | warning
  deriving DecidableEq, Repr

/-- A log message. Kinds, lines and values are given by their printed form. -/
inductive Message where
  /-- A node moved from one live parent to another. -/
  | reparented (kind line fromKind toKind : String)
  /-- Settings name a severity that does not exist. -/
  | unknownSeverity (value linter fallback : String)
  /-- Settings name a parent policy that does not exist. -/
  | unknownPolicy (value fallback : String)
  /-- A linter is switched off. -/
  | skipped (linter : String)
  /-- What a document's linters found. -/
  | summary (file : String) (lints errors : Nat)
  /-- The packaged settings cannot be read. -/
  | badDefaults (path : String)
  /-- The project's settings cannot be read. -/
  | badProject (path : String)
  deriving DecidableEq, Repr

namespace Message

/-- The level a message is logged at. -/
def level : Message → LogLevel
  | reparented .. => .debug
  | unknownSeverity .. => .warning
  | unknownPolicy .. => .warning
  | skipped .. => .debug
  | summary .. => .debug
  | badDefaults .. => .warning
  | badProject .. => .warning

/-- The wording of a message. -/
def text : Message → String
  | reparented kind line fromKind toKind =>
    "Re-parenting " ++ kind ++ " node at line " ++ line ++ " from " ++ fromKind ++ " to " ++ toKind
  | unknownSeverity value linter fallback =>
    "Configuration Warning: unknown severity " ++ value ++ " for linter " ++ linter ++
      ", using " ++ fallback ++ "."
  | unknownPolicy value fallback =>
    "Configuration Warning: unknown parent_policy " ++ value ++ ", using " ++ fallback ++ "."
  | skipped linter => "Skipping disabled linter " ++ linter
  | summary file lints errors =>
    file ++ ": " ++ toString lints ++ " lint(s), " ++ toString errors ++ " error(s)"
  | badDefaults path => "Failed to load default configuration " ++ path
  | badProject path => "Failed to read " ++ path

end Message

end SheetLint
