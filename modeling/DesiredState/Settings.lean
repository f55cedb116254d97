import DesiredState.Text.Blank
import DesiredState.Text.Duration
import DesiredState.Text.Quoted
import DesiredState.Variables

/-!
# Settings of a run

A run is told where blueprints are found, how many children of a batch may be handled at
once, how long a batch may take, and by which label its messages name it.
-/

set_option autoImplicit false

namespace DesiredState

/-- The settings of a run. -/
structure Settings where
  /-- The path under which the blueprint of each type is found. -/
  blueprintPath : String
  /-- The most children of a batch that are handled at once. -/
  concurrency : Nat
  /-- How long a batch may take, in milliseconds. -/
  batchTimeout : Nat
  /-- The name of the run in messages. -/
  label : String
  deriving DecidableEq, Repr

namespace Settings

/-- The largest concurrency that is chosen by default. -/
def greatestDefaultConcurrency : Nat := 50

/-- The default concurrency on a machine: twice its processors, within bounds. -/
def defaultConcurrency (processors : Nat) : Nat :=
  max 1 (min (2 * processors) greatestDefaultConcurrency)

/-- The settings without any variable set, on a machine with the given processors. -/
def standard (processors : Nat) : Settings where
  blueprintPath := "entityConfigs"
  concurrency := defaultConcurrency processors
  batchTimeout := 30 * 60 * 1000
  label := "model-setup"

/-- The variable with the path of the blueprints. -/
def pathVariable : String := "MODEL_SETUP_ENTITY_CONFIGS_ENDPOINT"

/-- The variable with the concurrency. -/
def concurrencyVariable : String := "MODEL_SETUP_MAX_CONCURRENCY"

/-- The variable with the seconds that a batch may take. -/
def timeoutVariable : String := "MODEL_SETUP_CHILD_TIMEOUT_SECS"

/-- The variable with the label. -/
def labelVariable : String := "MODEL_SETUP_RUN_LABEL"

/-- The concurrency that a variable gives; it is at least one. -/
def readConcurrency (value : String) : Except VariableFault Nat := do
  let count ← readCount concurrencyVariable (Text.trim value)
  if count = 0 then .error (.invalid concurrencyVariable "must be at least 1") else .ok count

/-- The settings that the environment gives, with the standard ones for absent variables
and for a path or label without any character that counts. -/
def read (processors : Nat) (environment : Variables) : Except VariableFault Settings := do
  let standard := standard processors
  let path := (environment pathVariable).map fun value =>
    Text.dropTrailing '/' (Text.trim value)
  let concurrency ← match environment concurrencyVariable with
    | some value => readConcurrency value
    | none => .ok standard.concurrency
  let batchTimeout ← match environment timeoutVariable with
    | some value => (readCount timeoutVariable (Text.trim value)).map (1000 * ·)
    | none => .ok standard.batchTimeout
  let label := (environment labelVariable).filter fun value => !(Text.trim value).isEmpty
  .ok { blueprintPath := (path.filter fun path => !path.isEmpty).getD standard.blueprintPath
        concurrency
        batchTimeout
        label := label.getD standard.label }

/-- The path of the blueprint of a type. -/
def blueprintUri (settings : Settings) (entityType : String) : String :=
  Text.dropTrailing '/' settings.blueprintPath ++ "/" ++ entityType

/-- The most children of a batch of the given size that are handled at once. -/
def permits (settings : Settings) (batchSize : Nat) : Nat :=
  max (min batchSize settings.concurrency) 1

/-- A batch has at least one permit, so some child of it can always be handled. -/
theorem permits_pos (settings : Settings) (batchSize : Nat) : 0 < settings.permits batchSize :=
  Nat.le_max_right _ _

/-- The seconds that a batch may take, rounded down. -/
def timeoutSeconds (settings : Settings) : Nat := settings.batchTimeout / 1000

/-- The description of the settings. -/
def describe (settings : Settings) : String :=
  Text.Quoted.record "SetupSettings" [
    ("entity_configs_endpoint", Text.Quoted.encode settings.blueprintPath),
    ("max_concurrency", toString settings.concurrency),
    ("child_timeout", Text.Duration.text settings.batchTimeout),
    ("run_label", Text.Quoted.encode settings.label)]

end Settings

end DesiredState
