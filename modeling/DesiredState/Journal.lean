import DesiredState.Api.Method
import DesiredState.Json.Basic
import DesiredState.Lineage
import DesiredState.Observer
import DesiredState.Report

/-!
# The journal of a run

Everything that a run tells is a notice: a moment told to the observer, a report of a dry
run, or a log event. A log event is kept as data; its level, its words and its details are
given by `LogEvent.level`, `LogEvent.message` and `LogEvent.details`. The journal also keeps,
for its own record, which entities were handled under which ancestors.
-/

set_option autoImplicit false

namespace DesiredState

/-- Something worth logging. -/
inductive LogEvent
  | engineCreated (concurrency timeoutSeconds : Nat) (run : String)
  | modelStarted (run model type : String)
  | blueprintFetched (type uri : String)
  | documentRead (type : String) (count : Nat)
  | nodeSkipped (className node : String)
  | uuidUnknown (uri : String)
  | parentFieldUnnamed (type : String)
  | existing (run type uri : String)
  | existingUpdated (run type label : String)
  | creating (run type label : String) (method : Method) (uri : String)
  | updating (run type label : String) (method : Method) (uri : String)
  | notCreating (label : String)
  | notUpdating (label : String)
  | conflictSkipped (run type label error : String)
  | conflictExisting (run type uri : String)
  | recoveryFailed (run type uri error : String)
  | wouldCreate (blueprint label : String)
  | wouldCompare (blueprint label : String) (differences : Nat)
  | batchStarted (run type : String) (total permits : Nat)
  | childFailed (type label error : String)
  | childBroken (type error : String)
  | batchTimedOut (run type : String) (timeoutSeconds : Nat)
  | requestSent (method : Method) (url : String)
  | responseReceived (method : Method) (url : String) (status : Nat)
  deriving DecidableEq, Repr

namespace LogEvent

/-- How serious an event is. -/
inductive Level
  | debug
  | info
  | warn
  | error
  deriving DecidableEq, Repr

/-- The name of a level. -/
def Level.text : Level → String
  | .debug => "DEBUG"
  | .info => "INFO"
  | .warn => "WARN"
  | .error => "ERROR"

/-- The level of an event. -/
def level : LogEvent → Level
  | .engineCreated .. | .modelStarted .. | .existing .. | .existingUpdated .. | .creating ..
  | .updating .. | .notCreating .. | .notUpdating .. | .conflictExisting .. | .wouldCreate ..
  | .wouldCompare .. => .info
  | .blueprintFetched .. | .documentRead .. | .uuidUnknown .. | .parentFieldUnnamed ..
  | .batchStarted .. | .requestSent .. | .responseReceived .. => .debug
  | .conflictSkipped .. | .childFailed .. => .warn
  | .nodeSkipped .. | .recoveryFailed .. | .childBroken .. | .batchTimedOut .. => .error

/-- The words of an event. -/
def message : LogEvent → String
  | .engineCreated .. => "Model setup engine created"
  | .modelStarted .. => "Setting up model"
  | .blueprintFetched .. => "Fetching entity config"
  | .documentRead .. => "Parsed model entities"
  | .nodeSkipped .. => "Not a JSON object, skipping"
  | .uuidUnknown .. => "Could not replace \x7buuid\x7d in URI, no lookup possible"
  | .parentFieldUnnamed .. => "No parent field name, not setting"
  | .existing .. => "Already exists"
  | .existingUpdated .. => "Already exists, updating"
  | .creating .. => "Creating"
  | .updating .. => "Updating"
  | .notCreating .. => "Verify mode, not creating"
  | .notUpdating .. => "Verify mode, not updating"
  | .conflictSkipped .. =>
      "Error creating and cannot check for existence, no children, skipping"
  | .conflictExisting .. => "Create conflicted, entity already exists"
  | .recoveryFailed .. => "Recovery lookup after conflicting create failed"
  | .wouldCreate .. => "Verify: would create"
  | .wouldCompare .. => "Verify: already exists"
  | .batchStarted .. => "Starting child batch"
  | .childFailed .. => "Child job failed"
  | .childBroken .. => "Child job panicked"
  | .batchTimedOut .. => "Child batch timed out"
  | .requestSent .. => "API request"
  | .responseReceived .. => "API response"

/-- A detail with a text. -/
def detail (name value : String) : String × Json := (name, .string value)

/-- A detail with a number. -/
def amount (name : String) (value : Nat) : String × Json := (name, .ofNat value)

/-- The details of an event. -/
def details : LogEvent → List (String × Json)
  | .engineCreated concurrency timeoutSeconds run =>
      [amount "max_concurrency" concurrency, amount "child_timeout_secs" timeoutSeconds,
        detail "run" run]
  | .modelStarted run model type =>
      [detail "run" run, detail "model" model, detail "entity_type" type]
  | .blueprintFetched type uri => [detail "entity_type" type, detail "uri" uri]
  | .documentRead type count => [detail "entity_type" type, amount "count" count]
  | .nodeSkipped className node => [detail "class_name" className, detail "node" node]
  | .uuidUnknown uri => [detail "uri" uri]
  | .parentFieldUnnamed type => [detail "entity_type" type]
  | .existing run type uri => [detail "run" run, detail "entity_type" type, detail "uri" uri]
  | .existingUpdated run type label =>
      [detail "run" run, detail "entity_type" type, detail "entity" label]
  | .creating run type label method uri | .updating run type label method uri =>
      [detail "run" run, detail "entity_type" type, detail "entity" label,
        detail "method" method.text, detail "uri" uri]
  | .notCreating label | .notUpdating label => [detail "entity" label]
  | .conflictSkipped run type label error =>
      [detail "run" run, detail "entity_type" type, detail "entity" label, detail "error" error]
  | .conflictExisting run type uri =>
      [detail "run" run, detail "entity_type" type, detail "uri" uri]
  | .recoveryFailed run type uri error =>
      [detail "run" run, detail "entity_type" type, detail "uri" uri, detail "error" error]
  | .wouldCreate blueprint label =>
      [detail "entity_type" blueprint, detail "entity" label]
  | .wouldCompare blueprint label differences =>
      [detail "entity_type" blueprint, detail "entity" label, amount "differences" differences]
  | .batchStarted run type total permits =>
      [detail "run" run, detail "entity_type" type, amount "total" total,
        amount "permits" permits]
  | .childFailed type label error =>
      [detail "entity_type" type, detail "entity" label, detail "error" error]
  | .childBroken type error => [detail "entity_type" type, detail "error" error]
  | .batchTimedOut run type timeoutSeconds =>
      [detail "run" run, detail "entity_type" type, amount "timeout_secs" timeoutSeconds]
  | .requestSent method url => [detail "method" method.text, detail "url" url]
  | .responseReceived method url status =>
      [detail "method" method.text, detail "url" url, amount "status" status]

/-- Whether an event is about the children of a batch, which finish in no fixed order. -/
def isAboutChild (event : LogEvent) : Bool :=
  match event with
  | .childFailed .. | .childBroken .. | .batchTimedOut .. => true
  | _ => false

end LogEvent

/-- What the handling of an entity starts from. -/
structure Visit where
  blueprint : Blueprint
  lineage : Lineage
  desired : Entity

/-- Something that a run tells. -/
inductive Notice
  | moment (moment : Moment)
  | report (report : Report)
  | event (event : LogEvent)
  /-- The handling of an entity begins; nobody but the journal is told. -/
  | begun (visit : Visit)

end DesiredState
