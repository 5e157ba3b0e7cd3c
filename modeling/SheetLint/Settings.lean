import SheetLint.Message
import SheetLint.Severity
import SheetLint.Store.Fresh
import SheetLint.Text.Lower

/-!
# Settings

Settings are a table: the parent policy under one key and, under another, a section for each
linter that says whether it is enabled and how serious its lints are. What is missing or of the
wrong shape counts as not said; a policy or severity that does not exist is logged and replaced.

The same rules apply to plain data read from files and to values in the store, so they are stated
over any `Reading` of tables, texts and truth. A warning is given with the values that it is about.
Putting it into words is left to whoever receives it, so that a value without a text is replaced
like any other.
-/

namespace SheetLint

/-- How values of a type are read as settings. -/
structure Reading (V : Type) where
  /-- The entries of a table. -/
  table? : V → Option (List (V × V))
  /-- Whether two values count as one key. -/
  same : V → V → Bool
  /-- A text as a value. -/
  ofText : String → V
  isNull : V → Bool
  truthy : V → Bool
  /-- The text of a value, where a text is itself. -/
  bare : V → String
  /-- The text of a value in messages. -/
  quoted : V → String
  /-- What keeps a value from having a text, if anything does. -/
  printFault? : V → Option Fault

namespace Reading

/-- Plain data. -/
def data : Reading Data where
  table?
    | .table entries => some entries
    | _ => none
  same := Data.same
  ofText := .text
  isNull
    | .null => true
    | _ => false
  truthy := Data.truthy
  bare := Data.bare
  quoted := Data.quoted
  printFault? d := if d.printable then none else some .unprintable

/-- Values in a store. -/
def store (s : Store) : Reading Value where
  table? := s.table?
  same := Value.sameKey
  ofText := .text
  isNull := Value.isNull
  truthy := s.truthy
  bare := s.bare
  quoted := s.quoted
  printFault? := s.printFault?

variable {V : Type}

/-- The value at a key. -/
def lookup (r : Reading V) (entries : List (V × V)) (key : V) : Option V :=
  Entries.get? r.same key entries

/-- The value at a key that is a text. -/
def lookupText (r : Reading V) (entries : List (V × V)) (name : String) : Option V :=
  r.lookup entries (r.ofText name)

/-- The word that a value is compared as: its text in lower case. A number of too many digits has no
text, nor has what holds one, and so it is no word. -/
def word? (r : Reading V) (v : V) : Except Fault (Option String) :=
  match r.printFault? v with
  | none => .ok (some (Text.lower (r.bare v)))
  | some .unprintable => .ok none
  | some fault => .error fault

/-- In a store where nothing was lost, every value is a word or none. -/
theorem word?_of_unbacked {s : Store} (h : s.hasBacked = false) (v : Value) :
    (store s).word? v =
      .ok (if (s.printFault? v).isNone then some (Text.lower (s.bare v)) else none) := by
  have hstore : (store s).printFault? v = s.printFault? v := rfl
  unfold word?
  rw [hstore]
  cases hfault : s.printFault? v with
  | none => rfl
  | some fault =>
    rw [Store.printFault?_of_unbacked h hfault]
    rfl

end Reading

/-- Settings: the entries they were made from and the parent policy these name. -/
structure Settings (V : Type) where
  entries : List (V × V)
  policy : ParentPolicy

/-- A warning about settings, with what is to be told. -/
inductive Settings.Warning (V : Type) where
  /-- A severity that does not exist. -/
  | unknownSeverity (raw linter : V) (fallback : String)
  /-- A parent policy that does not exist. -/
  | unknownPolicy (raw : V)

namespace Settings.Warning

variable {V : Type}

/-- A warning in words. -/
def message (r : Reading V) : Warning V → Message
  | unknownSeverity raw linter fallback =>
    .unknownSeverity (r.quoted raw) (r.bare linter) fallback
  | unknownPolicy raw => .unknownPolicy (r.quoted raw) ParentPolicy.refresh.word

/-- What keeps a warning from being put into words, if anything does. -/
def fault? (r : Reading V) : Warning V → Option Fault
  | unknownSeverity raw linter _ => (r.printFault? raw).or (r.printFault? linter)
  | unknownPolicy raw => r.printFault? raw

end Settings.Warning

/-- What a linter's section says about the severity of its lints. -/
inductive SeverityChoice (V : Type) where
  | unset
  | known (s : Severity)
  /-- Something that names no severity. -/
  | unknown (raw : V)

namespace Settings

variable {V : Type}

/-- The key of the linters' sections. -/
def lintersKey : String := "linters"

/-- The key of the parent policy. -/
def policyKey : String := "parent_policy"

/-- The policy that entries name, and the warning if there is no such policy. -/
def choosePolicy (r : Reading V) (entries : List (V × V)) :
    Except Fault (ParentPolicy × List (Warning V)) :=
  match r.lookupText entries policyKey with
  | none => .ok (.refresh, [])
  | some raw =>
    match r.word? raw with
    | .error fault => .error fault
    | .ok word =>
      match word.bind ParentPolicy.ofWord? with
      | some p => .ok (p, [])
      | none => .ok (.refresh, [.unknownPolicy raw])

/-- The sections of the linters: none if nothing is said, nothing at all if something else than a
table is there. -/
def sections? (r : Reading V) (entries : List (V × V)) : Option (List (V × V)) :=
  match r.lookupText entries lintersKey with
  | none => some []
  | some v => r.table? v

/-- The section of a linter; empty if there is none. -/
def sectionOf (r : Reading V) (entries : List (V × V)) (linter : V) : List (V × V) :=
  ((r.lookup ((sections? r entries).getD []) linter).bind r.table?).getD []

/-- Whether the linter of a section is to run. It is unless its section says otherwise. -/
def enabledIn (r : Reading V) (own : List (V × V)) : Bool :=
  match r.lookupText own "enabled" with
  | none => true
  | some v => r.truthy v

/-- The severity that a section names. -/
def severityIn (r : Reading V) (own : List (V × V)) : Except Fault (SeverityChoice V) :=
  match r.lookupText own "severity" with
  | none => .ok .unset
  | some raw =>
    if r.isNull raw then .ok .unset
    else
      match r.word? raw with
      | .error fault => .error fault
      | .ok word =>
        match word.bind Severity.ofWord? with
        | some v => .ok (.known v)
        | none => .ok (.unknown raw)

/-- Settings from entries, and the warnings about them. -/
def ofEntries (r : Reading V) (entries : List (V × V)) :
    Except Fault (Settings V × List (Warning V)) :=
  match choosePolicy r entries with
  | .error fault => .error fault
  | .ok (policy, warnings) => .ok ({ entries, policy }, warnings)

/-- Whether a linter is to run. -/
def enabled (r : Reading V) (c : Settings V) (linter : V) : Bool :=
  enabledIn r (sectionOf r c.entries linter)

/-- The severity of a linter's lints, and the warning if its section names none that exists. -/
def severity (r : Reading V) (c : Settings V) (linter : V) (fallback : Severity) :
    Except Fault (Severity × List (Warning V)) :=
  match severityIn r (sectionOf r c.entries linter) with
  | .error fault => .error fault
  | .ok .unset => .ok (fallback, [])
  | .ok (.known v) => .ok (v, [])
  | .ok (.unknown raw) => .ok (fallback, [.unknownSeverity raw linter fallback.word])

end Settings

namespace Store

/-- The entries of what is given as settings: what counts as false gives none. -/
def settingsEntries (s : Store) (v : Value) : Except Fault Table :=
  if s.truthy v then s.copiedEntries v else .ok []

/-- The table of settings that a method is called on. -/
def settingsTable (s : Store) (v : Value) (method : String) : Except Fault Value :=
  match s.checkMethod v method, v with
  | .error fault, _ => .error fault
  | .ok _, .agent i =>
    match s.agent? i with
    | some { role := .settings table _, .. } => .ok table
    | _ => .error (s.methodFault v method)
  | .ok _, _ => .error (s.methodFault v method)

/-- The section of a linter, whose name has to be one that can be a key if it is looked up. -/
def sectionOf (s : Store) (settings linter : Value) : Except Fault Table :=
  match s.settingsTable settings "linter_config" with
  | .error fault => .error fault
  | .ok (.table t) =>
    let r := Reading.store s
    match Settings.sections? r (s.table t), s.keyFault? linter with
    | some _, some fault => .error fault
    | _, _ => .ok (Settings.sectionOf r (s.table t) linter)
  | .ok v => .error (s.methodFault v "get")

end Store

namespace Edit

/-- Logs several messages. -/
def logAll (ms : List Message) : Edit Unit :=
  ms.forM log

/-- Logs warnings about settings. -/
def warn (ws : List (Settings.Warning Value)) : Edit Unit := do
  logAll (← read fun s => ws.map (·.message (Reading.store s)))

/-- Makes settings of a value. -/
def newSettings (v : Value) : Edit AgentId := do
  let entries ← tryRead (·.settingsEntries v)
  let table ← newTable entries
  let (policy, ws) ← tryRead fun s => Settings.choosePolicy (Reading.store s) entries
  warn ws
  newAgent (.settings (.table table) (.policy policy))

/-- A copy of the section of a linter. -/
def sectionCopy (settings linter : Value) : Edit Value := do
  return .table (← newTable (← tryRead (·.sectionOf settings linter)))

/-- Whether a linter is to run under settings. -/
def enabled (settings linter : Value) : Edit Bool := do
  let _ ← tryRead (·.settingsTable settings "is_linter_enabled")
  let own ← tryRead (·.sectionOf settings linter)
  return Settings.enabledIn (Reading.store (← get)) own

/-- The severity of a linter's lints under settings. The fallback is what the linter has as its
severity; a warning about a bad choice names it by its word. -/
def severity (settings linter fallback : Value) : Edit Value := do
  let _ ← tryRead (·.settingsTable settings "linter_severity")
  let own ← tryRead (·.sectionOf settings linter)
  match ← tryRead fun s => Settings.severityIn (Reading.store s) own with
  | .unset => return fallback
  | .known v => return .severity v
  | .unknown raw =>
    let word ← tryRead (·.getAttribute fallback "value")
    warn [.unknownSeverity raw linter (← read (·.bare word))]
    return fallback

end Edit

end SheetLint
