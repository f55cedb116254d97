import DesiredState.Api.Response
import DesiredState.Blueprint.Basic
import DesiredState.Entity.Basic

/-!
# Observers of a run

An observer is told of each moment at which something is about to happen or has happened to
an entity. It may put another entity in the place of one that is flagged for substitution,
and it may break off the handling of an entity.
-/

set_option autoImplicit false

namespace DesiredState

/-- A moment of a run that an observer is told of. -/
inductive Moment
  | beforeBlueprint (type : String)
  | afterBlueprint (type : String) (blueprint : Blueprint)
  | beforeLookup (entity : Entity)
  | afterLookup (entity : Entity) (response : Response)
  | beforeCreate (entity : Entity)
  | afterCreate (entity created : Entity)
  | beforeUpdate (entity : Entity)
  | afterUpdate (entity updated : Entity)
  | substitution (entity : Entity)

/-- What an observer does. -/
structure Observer where
  /-- The entity that is sent for a flagged one. -/
  substitute : Entity → Entity
  /-- The cause with which the observer breaks off at a moment, if it does. -/
  breaks : Moment → Option String

/-- The observer that changes and breaks nothing. -/
def Observer.silent : Observer := ⟨id, fun _ => none⟩

end DesiredState
