import DesiredState.Api.Failure
import DesiredState.Blueprint.Codec

/-!
# Failures of a run

Every failure ends the handling of the entity it concerns; the failures of the children of
one type are gathered into a failure of their batch. A failure holds its cause as data;
its words are in `Failure.message` alone.
-/

set_option autoImplicit false

namespace DesiredState

/-- What stands in messages for the complaint of a JSON reader: documents are named, places
inside them are not. -/
def unreadableJson : String := "<json>"

/-- The words for what is wrong with a blueprint. -/
def Blueprint.Defect.message : Blueprint.Defect → String
  | .shape => unreadableJson
  | .verb unknown => unknown.message

/-- The two ways to write an entity. -/
inductive WriteKind
  | create
  | update
  deriving DecidableEq, Repr

/-- The word for a way to write. -/
def WriteKind.text : WriteKind → String
  | .create => "create"
  | .update => "update"

/-- A child that could not be handled. -/
structure ChildFailure where
  /-- How reports name the child. -/
  label : String
  /-- The words for its failure. -/
  reason : String
  deriving DecidableEq, Repr

/-- The failure of a child whose handling was broken off, for the given cause. -/
def ChildFailure.ofBreak (cause : String) : ChildFailure :=
  ⟨"unknown", "task failed: " ++ cause⟩

/-- Why an entity, or a run, could not be handled. -/
inductive Failure
  /-- The API gave no blueprint for a type. -/
  | blueprintMissing (type : String) (status : Nat)
  /-- The API gave something else than a blueprint. -/
  | blueprintInvalid (type detail : String)
  /-- A template still had placeholders when everything was filled in. -/
  | templateUnfilled (template uri : String)
  /-- A create was rejected as invalid, and then the entity could not be looked up. -/
  | conflictUnresolved (type run uri : String) (source : CallFailure)
  /-- A create was rejected as invalid, the entity has children, and it cannot be looked up. -/
  | conflictUncheckable (type run : String) (source : CallFailure)
  /-- Any other call failed. -/
  | callFailed (type run uri : String) (source : CallFailure)
  /-- A lookup was answered neither with the entity nor with its absence. -/
  | statusUnexpected (type run uri : String) (status : Nat)
  /-- Children failed, or their batch took too long. -/
  | batchFailed (type run : String) (total : Nat) (failures : List ChildFailure)
      (timedOut : Bool)
  /-- No ancestor has what a field has to refer to. -/
  | parentMissing (parentType field type label : String)
  /-- The model gives children of a type that the blueprint does not declare. -/
  | childrenUndeclared (type childType : String)
  /-- The blueprint names a verb that does not write. -/
  | methodUnusable (type : String) (kind : WriteKind) (method : Method)
  /-- A document of a catalog could not be loaded. -/
  | documentUnavailable (location detail : String)
  /-- A text could not be decoded. -/
  | undecodable (subject detail : String)
  deriving DecidableEq, Repr

namespace Failure

/-- The failed children, each on a line of its own. -/
def childLines (failures : List ChildFailure) : String :=
  String.join (failures.map fun failure => "\n  - " ++ failure.label ++ ": " ++ failure.reason)

/-- The words for a failure. -/
def message : Failure → String
  | .blueprintMissing type status =>
      "entity config not found for " ++ type ++ " (HTTP " ++ toString status ++ ")"
  | .blueprintInvalid type detail => "invalid entity config for " ++ type ++ ": " ++ detail
  | .templateUnfilled template uri =>
      "could not replace all variables in URI template " ++ template ++ ": " ++ uri
  | .conflictUnresolved type run uri source =>
      "[" ++ run ++ "] creating " ++ type ++ " at " ++ uri
        ++ " conflicted and recovery lookup failed: " ++ source.message
  | .conflictUncheckable type run source =>
      "[" ++ run ++ "] error creating " ++ type ++ " and cannot check for existence: "
        ++ source.message
  | .callFailed type run uri source =>
      "[" ++ run ++ "] " ++ type ++ " request to " ++ uri ++ " failed: " ++ source.message
  | .statusUnexpected type run uri status =>
      "[" ++ run ++ "] unexpected HTTP " ++ toString status ++ " looking up " ++ type ++ " at "
        ++ uri
  | .batchFailed type run total failures timedOut =>
      "[" ++ run ++ "] child batch of " ++ type ++ " failed (" ++ toString failures.length
        ++ " of " ++ toString total ++ " jobs failed" ++ (if timedOut then ", timed out" else "")
        ++ ")" ++ childLines failures
  | .parentMissing parentType field type label =>
      "could not find parent (type=" ++ parentType ++ ", field=" ++ field ++ ") of " ++ type
        ++ ": " ++ label
  | .childrenUndeclared type childType =>
      "input data has " ++ childType ++ " children but entity config for " ++ type
        ++ " does not declare them"
  | .methodUnusable type kind method =>
      "invalid " ++ kind.text ++ " method for " ++ type ++ ": " ++ method.text
  | .documentUnavailable location detail => "manifest error (" ++ location ++ "): " ++ detail
  | .undecodable subject detail => "failed to parse " ++ subject ++ ": " ++ detail

end Failure

end DesiredState
