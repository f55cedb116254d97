import DesiredState.Run.Basic

/-!
# Handling one entity

An entity is looked up where its blueprint allows it. If it exists it is left alone or, if
the model says so, updated; if not it is created. A create that the server rejects as
invalid may have lost a race with another writer, so the entity is looked up once more.
A dry run stops before any write and reports what it found.
-/

set_option autoImplicit false

namespace DesiredState.Run

/-- The status of something that is found. -/
def foundStatus : Nat := 200

/-- After a create was rejected as invalid: the entity that exists in its place; nothing if it
cannot be looked up and no children depend on it. -/
def recover (run : Run) (blueprint : Blueprint) (lineage : Lineage) (entity : Entity)
    (createUri : String) (rejection : CallFailure) : Plan (Option Entity) := do
  match ← lookupPath blueprint lineage entity with
  | none =>
      if entity.hasChildren then
        Plan.fail (.conflictUncheckable entity.type run.label rejection)
      else
        Plan.log (.conflictSkipped run.label entity.type entity.label rejection.message)
        pure none
  | some uri =>
      match ← run.access.fetch uri with
      | .ok value =>
          Plan.log (.conflictExisting run.label entity.type uri)
          pure (some (entity.answeredWith value))
      | .error failure =>
          Plan.log (.recoveryFailed run.label entity.type uri failure.message)
          Plan.fail (.conflictUnresolved entity.type run.label createUri rejection)

/-- The entity that is sent for one of the model: its parent is filled in, and the observer may
put another one in its place. -/
def prepare (run : Run) (blueprint : Blueprint) (lineage : Lineage) (entity : Entity) :
    Plan Entity := do
  let linked ← linkParent blueprint lineage entity
  run.substitute linked.substitutes linked

/-- A prepared entity is created at a path. -/
def submitCreate (run : Run) (blueprint : Blueprint) (lineage : Lineage) (entity : Entity)
    (uri : String) : Plan (Option Entity) := do
  Plan.log (.creating run.label entity.type entity.label blueprint.createMethod uri)
  match ← run.access.write blueprint.createMethod uri entity.body with
  | .ok value =>
      let created := entity.answeredWith value
      run.observe (.afterCreate entity created)
      pure (some created)
  | .error failure =>
      if failure.isValidation then
        match ← run.recover blueprint lineage entity uri failure with
        | none => pure none
        | some existing =>
            run.observe (.afterCreate entity existing)
            pure (some existing)
      else Plan.fail (run.callFailure entity.type uri failure)

/-- The entity as it was created; nothing if the create was rejected and skipped. -/
def create (run : Run) (blueprint : Blueprint) (lineage : Lineage) (desired : Entity) :
    Plan (Option Entity) :=
  if run.dry then do
    Plan.log (.notCreating desired.label)
    pure (some desired)
  else do
    let uri ← required blueprint.createUri (← resolve lineage desired blueprint.createUri)
    let entity ← run.prepare blueprint lineage desired
    run.observe (.beforeCreate entity)
    if blueprint.createMethod.isWrite then run.submitCreate blueprint lineage entity uri
    else Plan.fail (.methodUnusable entity.type .create blueprint.createMethod)

/-- A prepared entity is updated at a path. -/
def submitUpdate (run : Run) (blueprint : Blueprint) (entity : Entity) (uri : String) :
    Plan Entity := do
  Plan.log (.updating run.label entity.type entity.label blueprint.updateMethod uri)
  match ← run.access.write blueprint.updateMethod uri entity.body with
  | .ok value =>
      let updated := entity.answeredWith value
      run.observe (.afterUpdate entity updated)
      pure updated
  | .error failure => Plan.fail (run.callFailure entity.type uri failure)

/-- The entity as it was updated. -/
def update (run : Run) (blueprint : Blueprint) (lineage : Lineage) (merged : Entity) :
    Plan Entity :=
  if run.dry then do
    Plan.log (.notUpdating merged.label)
    pure merged
  else do
    let uri ← required (blueprint.updateUri.getD "") (← lookupPath blueprint lineage merged)
    let entity ← run.prepare blueprint lineage merged
    run.observe (.beforeUpdate entity)
    if blueprint.updateMethod.isWrite then run.submitUpdate blueprint entity uri
    else Plan.fail (.methodUnusable entity.type .update blueprint.updateMethod)

/-- The entity in the place of a desired one that was found with the given remote state. -/
def settleExisting (run : Run) (blueprint : Blueprint) (lineage : Lineage)
    (desired remote : Entity) (uri : String) : Plan Entity := do
  if run.dry then
    let shown ← run.substitute desired.substitutes remote
    reportExisting blueprint shown desired
    pure (desired.laidOver shown)
  else if desired.updates then
    let known ← Plan.recall run.session remote pure
    let merged := desired.laidOver known
    Plan.log (.existingUpdated run.label desired.type merged.label)
    run.update blueprint lineage merged
  else
    Plan.log (.existing run.label desired.type uri)
    pure remote

/-- The entity in the place of a desired one whose lookup was answered; nothing if a dry run does
not find it or a rejected create was skipped. -/
def settleAnswered (run : Run) (blueprint : Blueprint) (lineage : Lineage) (desired : Entity)
    (uri : String) (response : Response) : Plan (Option Entity) :=
  if response.status = foundStatus then
    match response.json? with
    | none => Plan.fail (.undecodable (desired.type ++ " at " ++ uri) unreadableJson)
    | some value =>
        some <$> run.settleExisting blueprint lineage desired
          (.ofRemote value desired.className) uri
  else if response.status = CallFailure.missingStatus then
    if run.dry then do
      reportMissing blueprint desired
      pure none
    else run.create blueprint lineage desired
  else Plan.fail (.statusUnexpected desired.type run.label uri response.status)

/-- The entity in the place of a desired one that is looked up at a path. -/
def lookup (run : Run) (blueprint : Blueprint) (lineage : Lineage) (desired : Entity)
    (uri : String) : Plan (Option Entity) := do
  run.observe (.beforeLookup desired)
  match ← run.access.get uri with
  | .error failure => Plan.fail (run.callFailure desired.type uri failure)
  | .ok response =>
      run.observe (.afterLookup desired response)
      run.settleAnswered blueprint lineage desired uri response

/-- The entity in the place of a desired one, without regard to its children. -/
def settle (run : Run) (blueprint : Blueprint) (lineage : Lineage) (desired : Entity) :
    Plan (Option Entity) := do
  match ← lookupPath blueprint lineage desired with
  | some uri => run.lookup blueprint lineage desired uri
  | none =>
      if run.dry then
        reportMissing blueprint desired
        pure (some desired)
      else run.create blueprint lineage desired

end DesiredState.Run
