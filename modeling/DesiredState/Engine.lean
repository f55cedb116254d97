import DesiredState.Catalog.Memo
import DesiredState.Run.Model
import DesiredState.Schedule.Machine

/-!
# Engines

An engine keeps what outlives a run: the known states of entities, which may be shared with
other engines, and the fingerprints of catalogs. It handles a document, a list of named
documents, a catalog, or a single entity.
-/

set_option autoImplicit false

namespace DesiredState

/-- What runs are started from. -/
structure Engine where
  settings : Settings
  observer : Option Observer
  /-- The runs of the engine are dry. -/
  dry : Bool
  registry : Registry
  memo : FingerprintMemo

/-- The API as the tasks of a run see it. -/
structure Api (σ : Type) where
  session : SessionId
  access : Access
  server : Server σ

/-- How a run went: its outcome, if it came to an end, and what it told, in order. -/
structure RunResult (σ α : Type) where
  outcome : Option (Outcome α)
  notices : List Notice
  server : σ
  engine : Engine

namespace Engine

/-- An engine with nothing remembered. -/
def create (settings : Settings) (observer : Option Observer) (dry : Bool) : Engine :=
  ⟨settings, observer, dry, .empty, .empty⟩

/-- What is logged when an engine is made. -/
def createdEvent (settings : Settings) : LogEvent :=
  .engineCreated settings.concurrency settings.timeoutSeconds settings.label

/-- The engine with another label for its runs. -/
def withLabel (engine : Engine) (label : String) : Engine :=
  { engine with settings := { engine.settings with label } }

/-- The engine with another registry. -/
def withRegistry (engine : Engine) (registry : Registry) : Engine := { engine with registry }

/-- The description of an engine. -/
def describe (engine : Engine) : String :=
  Text.Quoted.record "ModelSetup" [
    ("settings", engine.settings.describe),
    ("cached_entities", toString engine.registry.size),
    ("listener", Text.Quoted.truth engine.observer.isSome),
    ("verify", Text.Quoted.truth engine.dry)]

/-- What a run of the engine works with. -/
def run {σ : Type} (engine : Engine) (api : Api σ) : Run where
  settings := engine.settings
  observer := engine.observer
  dry := engine.dry
  session := api.session
  access := api.access

/-- A plan for a run of the engine is carried out. -/
def execute {σ α : Type} (engine : Engine) (api : Api σ) (bound : Nat) (plan : Run → Plan α)
    (state : σ) : RunResult σ α :=
  let run := engine.run api
  let (outcome, world) := perform run api.server bound (plan run) ⟨engine.registry, [], state⟩
  ⟨outcome, world.journal.reverse, world.server, engine.withRegistry world.registry⟩

/-- One document of a type. -/
def document {σ : Type} (engine : Engine) (api : Api σ) (type text : String) (state : σ) :
    RunResult σ (List Entity) :=
  engine.execute api (stepBound (Document.extent text) 1) (·.document type text) state

/-- The number of objects in named documents. -/
def totalExtent : List (String × String) → Nat
  | [] => 0
  | (_, text) :: rest => Document.extent text + totalExtent rest

/-- Named documents one after another. -/
def models {σ : Type} (engine : Engine) (api : Api σ) (documents : List (String × String))
    (state : σ) : RunResult σ (List (String × String)) :=
  engine.execute api (stepBound (totalExtent documents) documents.length)
    (·.models documents) state

/-- A catalog, which is loaded as a whole before the run. -/
def catalog {σ : Type} (engine : Engine) (api : Api σ) (source : DocumentSource)
    (name : String) (state : σ) : RunResult σ (List (String × String)) :=
  match Catalog.load source name with
  | .error failure => ⟨some (.failed failure), [], state, engine⟩
  | .ok documents => engine.models api documents state

/-- One entity and its descendants. -/
def entity {σ : Type} (engine : Engine) (api : Api σ) (blueprint : Blueprint)
    (lineage : Lineage) (desired : Entity) (state : σ) : RunResult σ (Option Entity) :=
  engine.execute api (stepBound (desired.descendants + 1) 0)
    (·.reconcile blueprint lineage desired) state

/-- The fingerprint of a catalog. -/
def fingerprint (engine : Engine) (source : DocumentSource) (name : String) :
    Except Failure String × Engine :=
  let (result, memo) := engine.memo.fingerprint source name
  (result, { engine with memo })

end Engine

end DesiredState
