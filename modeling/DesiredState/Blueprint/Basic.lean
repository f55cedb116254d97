import DesiredState.Api.Method
import DesiredState.NameMap

/-!
# Blueprints of entity types

A blueprint says how the entities of one type are created, looked up and updated,
which of their fields refers to their parent, and which child types they may have. The
blueprints of the child types stand inside it.
-/

set_option autoImplicit false

namespace DesiredState

/-- Where the value of a field comes from: a field of an ancestor. -/
structure FieldReference where
  /-- The type of the ancestor, or `parentSentinel`. -/
  entity : String
  field : String
  deriving DecidableEq, Repr

namespace FieldReference

/-- The reference to the ancestor whose type is the name of the referring field. -/
def parentSentinel : String := "parent"

/-- The field that is referred to unless another one is named. -/
def identityField : String := "uuid"

/-- The reference to the uuid of the parent. -/
def standard : FieldReference := ⟨parentSentinel, identityField⟩

end FieldReference

/-- The field of an entity that refers to its parent. -/
structure ParentLink where
  /-- The field that is set; without a name none is. -/
  name : Option String
  reference : FieldReference
  deriving DecidableEq, Repr

/-- How the entities of one type are handled. -/
structure Blueprint where
  name : String
  className : Option String
  createUri : String
  createMethod : Method
  updateUri : Option String
  updateMethod : Method
  parentLink : Option ParentLink
  /-- The blueprints of the child types in name order. -/
  children : Option (List (String × Blueprint))
  deriving Repr

namespace Blueprint

/-- The blueprint that says nothing. -/
def blank : Blueprint where
  name := ""
  className := none
  createUri := ""
  createMethod := .put
  updateUri := none
  updateMethod := .post
  parentLink := none
  children := none

instance : Inhabited Blueprint := ⟨blank⟩

/-- The update template of a type that can be neither looked up nor updated. -/
def notSupported : String := ":notSupported"

/-- The template at which entities are looked up and updated, if they can be. -/
def lookupUri? (blueprint : Blueprint) : Option String :=
  blueprint.updateUri.filter fun uri => !uri.isEmpty && uri != notSupported

/-- Whether a field refers to the parent. -/
def hasParentLink (blueprint : Blueprint) : Bool := blueprint.parentLink.isSome

/-- The declared child types with their blueprints, in name order. -/
def childTypes (blueprint : Blueprint) : List (String × Blueprint) :=
  blueprint.children.getD []

/-- Whether there is a declared child type. -/
def hasChildTypes (blueprint : Blueprint) : Bool := !blueprint.childTypes.isEmpty

/-- The blueprint of a child type. -/
def child? (blueprint : Blueprint) (childType : String) : Option Blueprint :=
  lookupEntry childType blueprint.childTypes

/-- The class name of the roots of a model: the declared one, else the name of the
blueprint, else the type that was asked for. -/
def rootClassName (blueprint : Blueprint) (entityType : String) : String :=
  blueprint.className.getD (if blueprint.name.isEmpty then entityType else blueprint.name)

end Blueprint

end DesiredState
