import SheetLint.Fault

/-!
# Flaws of written data

Why a text cannot be read as data. A text that is not well formed only counts as unreadable; what is
well formed and still stands for nothing, such as a number that is too long, is a fault of its own.
-/

namespace SheetLint

/-- Why a text is not read. -/
inductive Flaw where
  | malformed
  | fault (f : Fault)
  deriving DecidableEq, Repr

end SheetLint
