import SheetLint.Document

/-!
# Sessions

A session holds a store, the linter classes that were defined, and the names that values are known
by. A name keeps what it stands for; once it is dropped, everything that no other name leads to is
cleared at the next collection.
-/

namespace SheetLint

/-- A session. -/
structure Session where
  store : Store := {}
  classes : List LinterClass := [LinterClass.base]
  names : List (String × Value) := []

namespace Session

/-- What a name stands for. -/
def lookup? (x : Session) (name : String) : Option Value :=
  x.names.lookup name

/-- Gives a name to a value; the name no longer stands for anything else. -/
def bind (x : Session) (name : String) (v : Value) : Session :=
  { x with names := Entries.put (· == ·) name v x.names }

/-- Drops a name, which has to stand for something. -/
def drop (x : Session) (name : String) : Except Fault Session :=
  match x.lookup? name with
  | some _ => .ok { x with names := x.names.filter fun e => e.1 != name }
  | none => .error (.missingKey (Text.quoted name))

/-- Brings the tables that back something and the order of attributes up to date, and clears every
node that no name leads to. -/
def collect (x : Session) : Session :=
  { x with store := x.store.keepTables.placeReferences.collect (x.names.map (·.2)) }

/-- The class of a name. -/
def class? (x : Session) (name : String) : Option LinterClass :=
  x.classes.find? fun c => c.className == name

/-- Defines a class, in place of an earlier one of that name. No name has a null character. -/
def define (x : Session) (c : LinterClass) : Except Fault Session :=
  if c.className.contains '\x00' then .error .badClassName
  else .ok { x with classes := c :: x.classes }

/-- Changes the store: the outcome and the session afterwards. -/
def perform (x : Session) (e : Edit α) : Except Fault α × Session :=
  let (outcome, store) := e.perform x.store
  (outcome, { x with store })

/-- Takes the messages logged so far out of the log. -/
def takeLog (x : Session) : List Message × Session :=
  (x.store.log, { x with store := { x.store with log := [] } })

end Session

end SheetLint
