import Parley.Policy
import Parley.Template
import Parley.Text.Split
import Parley.Value.Access

/-!
# Settings

Settings are read from a document. Its texts may name variables of the environment (`${NAME}`),
which give way to their values where they are set. Sections keep their known fields and take the
standard for those that are not given; values are taken as they are.

A directory of flows that is not absolute is one beside the document.
-/

namespace Parley

/-- The settings of a service. -/
structure Settings where
  appName : Value := .text "FlowEngine"
  debug : Value := .bool false
  model : Fields
  engine : Fields
  backend : Fields
  webhook : Fields
  media : Fields
  database : Fields
  flowsDirectory : Value := .text ""
  flows : Value := .list []

namespace Settings

/-- The standard model. -/
def standardModel : Fields :=
  [("provider", .text "anthropic"), ("model", .text "claude-sonnet-4-20250514"),
    ("temperature", .float (Binary64.round false 7 10)), ("max_tokens", .int 1024),
    ("api_key", .text "")]

/-- The standard bounds of turns. -/
def standardEngine : Fields :=
  let p : Policy := {}
  [("max_steps", .int p.maxSteps), ("history_limit", .int p.historyLimit),
    ("turn_timeout_seconds", .float p.turnTimeout),
    ("collaborator_timeout_seconds", .float p.collaboratorTimeout),
    ("max_delay_seconds", .float p.maxDelay), ("strict_routing", .bool p.strictRouting),
    ("error_message", .text p.errorMessage)]

/-- The standard back office, which is none. -/
def standardBackend : Fields :=
  [("type", .text "rest"), ("base_url", .text ""), ("auth_type", .text "bearer"),
    ("auth_credentials", .object []), ("endpoints", .object [])]

/-- The standard of webhook calls. -/
def standardWebhook : Fields :=
  [("default_timeout_seconds", .float (Binary64.round false 10 1)), ("max_retries", .int 3)]

/-- The standard processor of media, which is none. -/
def standardMedia :
    Fields := [("type", .text "mock"), ("base_url", .text ""), ("api_key", .text "")]

/-- The standard store, which is in memory. -/
def standardDatabase : Fields :=
  [("store_backend", .text "memory"), ("store_file_dir", .text "./data/sessions"),
    ("store_flush_interval_s", .int 0)]

/-- The settings without a document. -/
def standard : Settings :=
  { model := standardModel, engine := standardEngine, backend := standardBackend,
    webhook := standardWebhook, media := standardMedia, database := standardDatabase }

/-- The settings as a document. -/
def toValue (s : Settings) : Value :=
  .object [("app_name", s.appName), ("debug", s.debug), ("llm", .object s.model),
    ("engine", .object s.engine), ("backend", .object s.backend), ("webhook", .object s.webhook),
    ("media", .object s.media), ("database", .object s.database), ("flows_dir", s.flowsDirectory),
    ("flows", s.flows)]

/-- A text with the variables of the environment that it names; those that are not set stay as they
are written. -/
def expandChars (env : Entries String) : List Char → List Char
  | [] => []
  | c :: rest =>
    match _h : (match c, rest with
      | '$', '{' :: more => Template.slot? more
      | _, _ => none) with
    | some (name, after) =>
      (match env.get? (String.ofList name) with
        | some value => value.toList
        | none => '$' :: (Template.Piece.slot name).written) ++ expandChars env after
    | none => c :: expandChars env rest
  termination_by cs => cs.length
  decreasing_by
    · split at _h
      · have := congrArg List.length (Template.eq_of_slot? _h)
        simp only [List.length_append, List.length_cons] at this ⊢
        omega
      · exact absurd _h (by simp)
    · simp

/-- A text with the variables of the environment that it names. -/
def expandText (env : Entries String) (text : String) : String :=
  String.ofList (expandChars env text.toList)

mutual

/-- A value with the variables that its texts name; names of entries stay. -/
def expand (env : Entries String) : Value → Value
  | .text s => .text (expandText env s)
  | .list items => .list (expandItems env items)
  | .object fields => .object (expandFields env fields)
  | v => v

/-- The items of a list with the variables that they name. -/
def expandItems (env : Entries String) : List Value → List Value
  | [] => []
  | v :: rest => expand env v :: expandItems env rest

/-- Entries with the variables that their values name. -/
def expandFields (env : Entries String) : List (String × Value) → List (String × Value)
  | [] => []
  | (k, v) :: rest => (k, expand env v) :: expandFields env rest

end

/-- A section with the fields that are given for it; unknown ones are passed over. -/
def merge (current given : Fields) :
    Fields := current.update (given.filter fun e => current.has e.1)

/-- A section of a document over the current one. -/
def sectionOf (raw : Fields) (name : String) (current : Fields) : Except Fault Fields :=
  match raw.get? name with
  | none => .ok current
  | some v => return merge current (← v.entriesFor "items")

/-- The parts of a path that lead on: neither empty nor a single point. -/
def steps (path : String) : List String :=
  ((Text.splitAt '/' path.toList).filter fun p => p != [] && p != ['.']).map String.ofList

/-- A path below a directory; an absolute one stays as it is. -/
def below (directory path : String) : String :=
  if path.toList.head? = some '/' then path else "/".intercalate (directory :: steps path)

/-- The directory of flows that a document beside `directory` states. -/
def flowsDirectoryOf (directory : String) (v : Value) : Except Fault Value :=
  if !v.isTruthy then .ok v
  else match v with
    | .text path => .ok (.text (below directory path))
    | v => .error (.notPath v.kindWord)

/-- The settings of a document that stands in a directory. -/
def ofValue (env : Entries String) (directory : String) (document : Value) :
    Except Fault Settings := do
  let raw ← if document.isTruthy then (expand env document).entriesFor "get" else pure []
  let s := standard
  return {
    appName := (raw.get? "app_name").getD s.appName
    debug := (raw.get? "debug").getD s.debug
    model := ← sectionOf raw "llm" s.model
    engine := ← sectionOf raw "engine" s.engine
    backend := ← sectionOf raw "backend" s.backend
    webhook := ← sectionOf raw "webhook" s.webhook
    media := ← sectionOf raw "media" s.media
    database := ← sectionOf raw "database" s.database
    flowsDirectory := ← flowsDirectoryOf directory ((raw.get? "flows_dir").getD (.text ""))
    flows := (raw.get? "flows").getD (.list []) }

/-- An address of the web. -/
def isWebAddress (address : String) : Bool :=
  let cs := address.toList
  "http://".toList.isPrefixOf cs || "https://".toList.isPrefixOf cs

/-- A back office or a processor of media is reached over the web. -/
def isRemote (config : Fields) : Except Fault Bool :=
  match config.get? "type" with
  | some (.text "rest") =>
    match (config.get? "base_url").getD .null with
    | .text address => .ok (isWebAddress address)
    | v => .error (.noAttribute v.kindWord "startswith")
  | _ => .ok false

end Settings
end Parley
