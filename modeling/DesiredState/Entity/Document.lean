import DesiredState.Entity.Basic
import DesiredState.Json.Reader
import DesiredState.Text.Comments

/-!
# Model documents

A model document is a JSON array of nodes, with comments allowed. Each object in it
is an entity; other items are skipped.
-/

set_option autoImplicit false

namespace DesiredState.Document

/-- The nodes of a document; there are none if it is not a JSON array. -/
def nodes? (document : String) : Option (List Json) :=
  (Json.read? (Text.Comments.strip document)).bind Json.items?

/-- The number of objects in a document: there are no more entities than that. -/
def extent (document : String) : Nat :=
  match nodes? document with
  | none => 0
  | some nodes => Json.itemObjects nodes

/-- The entity of a node, if the node is an object. -/
def entity? (className : String) (node : Json) : Option Entity :=
  node.members?.map (Entity.ofNode · className)

/-- The entities of a list of nodes. -/
def entities (className : String) (nodes : List Json) : List Entity :=
  nodes.filterMap (entity? className)

/-- The nodes that are no entities. -/
def skipped (nodes : List Json) : List Json :=
  nodes.filter (·.members?.isNone)

/-- A node without the model flags. -/
def scrub : Json → Json
  | .object members =>
      .ofMap (((NameMap.ofList members).erase Entity.updateMember).erase Entity.substituteMember)
  | node => node

end DesiredState.Document
