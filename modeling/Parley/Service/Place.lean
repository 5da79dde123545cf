import Parley.Text.Split

/-!
# Places of the service

The paths under which the service answers, and the methods that each of them takes. A path that is
no place, but would be one with a slash more or without those at its end, leads there.

Main statement: `find_methods`, what is found under a path takes the method.
-/

namespace Parley.Service

/-- A place. -/
inductive Place where
  | health
  | flows
  | flow (id : String)
  | messages
  | sessions
  | session (id : String)
  | release (id : String)
  deriving DecidableEq, Repr

namespace Place

/-- The place of a path; ids are not empty. -/
def ofPath? (path : String) : Option Place :=
  match (Text.splitAt '/' path.toList).map String.ofList with
  | ["", "health"] => some .health
  | ["", "flows"] => some .flows
  | ["", "flows", id] => if id = "" then none else some (.flow id)
  | ["", "messages"] => some .messages
  | ["", "sessions"] => some .sessions
  | ["", "sessions", id] => if id = "" then none else some (.session id)
  | ["", "sessions", id, "release"] => if id = "" then none else some (.release id)
  | _ => none

/-- The methods that a place takes. -/
def methods : Place → List String
  | .health | .sessions => ["GET"]
  | .flows => ["GET", "POST"]
  | .flow _ | .session _ => ["GET", "DELETE"]
  | .messages | .release _ => ["POST"]

/-- The path with a slash more, or without those at its end. -/
def otherPath (path : String) : String :=
  let cs := path.toList
  if cs.getLast? = some '/' then String.ofList ((cs.reverse.dropWhile (· = '/')).reverse)
  else String.ofList (cs ++ ['/'])

/-- What a request finds. -/
inductive Found where
  | here (place : Place)
  /-- The place does not take the method. -/
  | methodRefused
  | elsewhere
  | nothing
  deriving DecidableEq, Repr

/-- What is found under a path. -/
def find (method path : String) : Found :=
  match ofPath? path with
  | some place => if place.methods.contains method then .here place else .methodRefused
  | none => if path != "/" && (ofPath? (otherPath path)).isSome then .elsewhere else .nothing

/-- A place that is found allows the method. -/
theorem find_methods {method path : String} {place : Place} (h : find method path = .here place) :
    method ∈ place.methods := by
  unfold find at h
  split at h
  · split at h
    · rename_i taken
      cases h
      simpa using taken
    · exact nomatch h
  · split at h <;> exact nomatch h

end Place
end Parley.Service
