/-
# Configuration

The settings of compilation and execution, their defaults, and how environment variables change
them.
-/
import DocQuery.Dictionary
import DocQuery.Error
import DocQuery.Number.Literal
import DocQuery.Text.Blank

namespace DocQuery

/-- How materialized entities relate to the session. -/
inductive Tracking where
  /-- Entities are held by the session's identity map. -/
  | trackAll
  /-- Every row produces a fresh instance. -/
  | noTracking
  /-- Untracked, but repeated keys within one result share an instance. -/
  | identityResolution
deriving DecidableEq

namespace Tracking

def name : Tracking → String
  | .trackAll => "track_all"
  | .noTracking => "no_tracking"
  | .identityResolution => "no_tracking_with_identity_resolution"

/-- A spelling without blanks around it, in lower case and without `-` and `_`. -/
def normalize (s : String) : String :=
  String.ofList (((Text.trim s.toList).map Char.toLower).filter fun c => c != '-' && c != '_')

/-- Reads a loose spelling of a tracking behavior. -/
def parse (s : String) : Except QueryError Tracking :=
  match normalize s with
  | "trackall" | "tracking" => .ok .trackAll
  | "notracking" => .ok .noTracking
  | "notrackingwithidentityresolution" | "identityresolution" => .ok .identityResolution
  | other => .error (.config (.unknownTracking other))

end Tracking

/-- Whether rows are documents, read by path, or lists of values, read by position. -/
inductive RowLayout where
  | document
  | ordinal
deriving DecidableEq

namespace RowLayout

def name : RowLayout → String
  | .document => "document"
  | .ordinal => "ordinal"

def ofName? : String → Option RowLayout
  | "document" => some .document
  | "ordinal" => some .ordinal
  | _ => none

end RowLayout

structure Config where
  /-- Refuse overlapping operations on one session. -/
  threadSafetyChecks : Bool
  tracking : Tracking
  partitionKey : Option String
  rowLayout : RowLayout
  /-- The number of plans the cache keeps. -/
  planCacheCapacity : Nat
  /-- Allow parameter values in logs. -/
  sensitiveDataLogging : Bool
deriving DecidableEq

/-- The settings that a query definition may replace. -/
structure Overrides where
  /-- The type of the context that runs the query. -/
  context : Option String
  tracking : Option String
  partitionKey : Option String
  threadSafetyChecks : Option Bool
  rowLayout : Option RowLayout
deriving DecidableEq

def Overrides.none : Overrides := ⟨.none, .none, .none, .none, .none⟩

namespace Config

def default : Config where
  threadSafetyChecks := true
  tracking := .trackAll
  partitionKey := none
  rowLayout := .document
  planCacheCapacity := 128
  sensitiveDataLogging := false

instance : Inhabited Config := ⟨default⟩

def boolOfText? : String → Option Bool
  | "true" => some true
  | "false" => some false
  | _ => none

/-- An unsigned 64-bit number: digits after an optional plus sign. -/
def natOfText? (s : String) : Option Nat :=
  let digits := match s.toList with
    | '+' :: rest => rest
    | cs => cs
  (natural? 10 digits).bind fun n => if n < 0x10000000000000000 then some n else none

/-- One environment variable; a value that cannot be read changes nothing. -/
def setVariable (c : Config) (name value : String) : Config :=
  match name with
  | "QSHAPE_THREAD_SAFETY_CHECKS" =>
    { c with threadSafetyChecks := (boolOfText? value).getD c.threadSafetyChecks }
  | "QSHAPE_TRACKING" => { c with tracking := (Tracking.parse value).toOption.getD c.tracking }
  | "QSHAPE_PARTITION_KEY" =>
    { c with partitionKey := if value.isEmpty then c.partitionKey else some value }
  | "QSHAPE_ROW_LAYOUT" => { c with rowLayout := (RowLayout.ofName? value).getD c.rowLayout }
  | "QSHAPE_PLAN_CACHE_CAPACITY" =>
    { c with planCacheCapacity := (natOfText? value).getD c.planCacheCapacity }
  | "QSHAPE_SENSITIVE_DATA_LOGGING" =>
    { c with sensitiveDataLogging := (boolOfText? value).getD c.sensitiveDataLogging }
  | _ => c

/-- The names of the variables with a setting. -/
def variableNames : List String :=
  ["QSHAPE_THREAD_SAFETY_CHECKS", "QSHAPE_TRACKING", "QSHAPE_PARTITION_KEY", "QSHAPE_ROW_LAYOUT",
    "QSHAPE_PLAN_CACHE_CAPACITY", "QSHAPE_SENSITIVE_DATA_LOGGING"]

/-- The defaults changed by an environment.  Each variable has a setting of its own, so their order
does not matter. -/
def ofEnvironment (environment : Dictionary String) : Config :=
  environment.entries.foldl (fun c e => c.setVariable e.1 e.2) default

/-- Whether repeated keys are merged inside one result only. -/
def standaloneIdentityResolution (c : Config) : Bool := c.tracking == .identityResolution

/-- Replaces the settings that the overrides name. -/
def override (c : Config) (o : Overrides) : Except QueryError Config := do
  let tracking ← match o.tracking with
    | none => .ok c.tracking
    | some text => Tracking.parse text
  return { c with
    tracking
    partitionKey := o.partitionKey <|> c.partitionKey
    threadSafetyChecks := o.threadSafetyChecks.getD c.threadSafetyChecks
    rowLayout := o.rowLayout.getD c.rowLayout }

def validate (c : Config) : Except QueryError Unit :=
  if c.planCacheCapacity = 0 then .error (.config .zeroCapacity) else .ok ()

end Config

end DocQuery
