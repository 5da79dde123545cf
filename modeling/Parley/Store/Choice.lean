import Parley.Number.Reading
import Parley.Settings
import Parley.Store.Basic

/-!
# The choice of a store

A store is opened as the settings say, in memory or with a file in a directory, and then is the one
that everybody uses until it is closed.
-/

namespace Parley.Store

/-- The kind of a store. -/
inductive Choice where
  | memory
  | file (directory : String) (interval : Binary64)
  deriving DecidableEq, Repr

/-- A value as a number; nothing counts as zero. -/
def numberOf (v : Value) : Except Fault Binary64 :=
  if !v.isTruthy then .ok Binary64.zero
  else match v with
    | .float x => .ok x
    | .text s => match Number.readLoose? s with
      | some x => .ok x
      | none => .error (.notNumber s)
    | v => match v.asWhole? with
      | some n => match Binary64.ofInt? n with
        | some x => .ok x
        | none => .error .beyondFloat
      | none => .error (.notNumeric v.kindWord)

/-- The store that settings ask for. -/
def Choice.ofConfig (config : Fields) : Except Fault Choice :=
  match config.get? "store_backend" with
  | some (.text "file") => do
    let interval ← numberOf ((config.get? "store_flush_interval_s").getD (.int 0))
    match (config.get? "store_file_dir").getD (.text "./data/sessions") with
    | .text directory => return .file directory interval
    | v => throw (.notPath v.kindWord)
  | _ => .ok .memory

/-- The directories that lead to one, the outermost first. -/
def directoriesTo (path : String) : List String :=
  let parts := Settings.steps path
  (List.range parts.length).map fun i => "/".intercalate (parts.take (i + 1))

/-- The store in use, and what was opened so far. -/
structure Shelf where
  /-- The number and the kind of the store in use. -/
  inUse : Option (Nat × Choice) := none
  opened : Nat := 0
  directories : List String := []

namespace Shelf

/-- Open a store, unless one is in use: the number and the kind of the store in use then. -/
def create (s : Shelf) (config : Fields) : Except Fault (Shelf × Nat × Choice) :=
  match s.inUse with
  | some store => .ok (s, store)
  | none => do
    let choice ← Choice.ofConfig config
    let made := match choice with
      | .memory => []
      | .file directory _ => directoriesTo directory
    let store := (s.opened, choice)
    return (⟨some store, s.opened + 1, (s.directories ++ made).eraseDups⟩, store)

/-- Close the store in use. -/
def reset (s : Shelf) : Shelf := { s with inUse := none }

/-- The store in use stays whatever is asked for. -/
theorem create_inUse {s : Shelf} {store : Nat × Choice} (h : s.inUse = some store)
    (config : Fields) :
    s.create config = .ok (s, store) := by
  simp [create, h]

end Shelf
end Parley.Store
