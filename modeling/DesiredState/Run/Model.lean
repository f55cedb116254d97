import DesiredState.Run.Children

/-!
# Handling model documents

The blueprint of a document's type is fetched from the API, and then the roots of the
document are handled one after another, each without ancestors. Documents are handled in the
order of their catalog. The first failure ends the run.
-/

set_option autoImplicit false

namespace DesiredState.Run

/-- The blueprint of a type. -/
def fetchBlueprint (run : Run) (type : String) : Plan Blueprint := do
  let uri := run.settings.blueprintUri type
  Plan.log (.blueprintFetched type uri)
  match ← run.access.get uri with
  | .error failure => Plan.fail (run.callFailure type uri failure)
  | .ok response =>
      if !response.isSuccess then Plan.fail (.blueprintMissing type response.status)
      else
        match response.json? with
        | none => Plan.fail (.blueprintInvalid type unreadableJson)
        | some value =>
            match Blueprint.read value with
            | .ok blueprint => pure blueprint
            | .error defect => Plan.fail (.blueprintInvalid type defect.message)

/-- The roots of a document. -/
def readDocument (className document : String) : Plan (List Entity) :=
  match Document.nodes? document with
  | none => Plan.fail (.undecodable (className ++ " model") unreadableJson)
  | some nodes => do
      logSkipped className nodes
      pure (Document.entities className nodes)

/-- Roots one after another; those for which nothing is in place are left out of the result. -/
def roots (run : Run) (blueprint : Blueprint) : List Entity → Plan (List Entity)
  | [] => pure []
  | root :: rest => do
      let settled ← run.reconcile blueprint .empty root
      let others ← run.roots blueprint rest
      pure (settled.toList ++ others)

/-- All roots of a document of a type. -/
def document (run : Run) (type text : String) : Plan (List Entity) := do
  run.observe (.beforeBlueprint type)
  let blueprint ← run.fetchBlueprint type
  run.observe (.afterBlueprint type blueprint)
  let entities ← readDocument (blueprint.rootClassName type) text
  Plan.log (.documentRead type entities.length)
  run.roots blueprint entities

/-- One named document of a catalog. -/
def model (run : Run) (named : String × String) : Plan Unit := do
  let type := ClassName.ofModelName named.1
  Plan.log (.modelStarted run.label named.1 type)
  let _ ← run.document type named.2
  pure ()

/-- The documents of a catalog, which are also the result. -/
def models (run : Run) (documents : List (String × String)) :
    Plan (List (String × String)) := do
  Plan.forEach run.model documents
  pure documents

end DesiredState.Run
