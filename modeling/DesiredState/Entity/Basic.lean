import DesiredState.ClassName
import DesiredState.Json.Printer

/-!
# Entities

An entity is what a model asks for or what the API holds: the fields of a JSON
object under a class name. An entity of a model also carries the nodes of its
children, by type, and two flags. `ofNode` reads it from a model node, where flags
and child lists stand among the fields; `ofRemote` wraps a value of the API, which
has neither.

**No loss.** Flags and child lists leave the fields of a node only as a whole: a
member `children` that is not an object of arrays is a field like any other.
-/

set_option autoImplicit false

namespace DesiredState

/-- One instance of an entity type. -/
structure Entity where
  className : String
  fields : NameMap Json
  /-- The nodes of the children, by type. -/
  children : NameMap (List Json)
  /-- An existing entity is updated. -/
  updates : Bool
  /-- The substitution hook is applied before the entity is sent. -/
  substitutes : Bool

namespace Entity

/-! ## Members of a model node that are no fields -/

/-- The member with the flag `updates`. -/
def updateMember : String := "_update"

/-- The member with the flag `substitutes`. -/
def substituteMember : String := "_subst"

/-- The member with the child lists. -/
def childrenMember : String := "children"

/-- Whether a member of a node is `true`; a member of any other value is no flag. -/
def flag (node : NameMap Json) (member : String) : Bool :=
  ((node.find? member).map Json.isTrue).getD false

/-- The child lists that a member holds: there are none unless it is an object whose
values are all arrays. -/
def childLists? : Json → Option (NameMap (List Json))
  | .object members =>
      if members.all (·.2.isArray) then
        some ((NameMap.ofList members).map fun value => value.items?.getD [])
      else none
  | _ => none

/-! ## Making entities -/

/-- The entity of a model node. -/
def ofNode (node : NameMap Json) (className : String) : Entity :=
  let unflagged := (node.erase updateMember).erase substituteMember
  let lifted := (unflagged.find? childrenMember).bind childLists?
  { className
    fields := if lifted.isSome then unflagged.erase childrenMember else unflagged
    children := lifted.getD .empty
    updates := flag node updateMember
    substitutes := flag node substituteMember }

/-- The entity of a value from the API; a value that is no object has no fields. -/
def ofRemote (value : Json) (className : String) : Entity :=
  { className
    fields := value.members?.getD .empty
    children := .empty
    updates := false
    substitutes := false }

/-- The entity that the API answered a write with: the object in the answer, or the
entity that was sent if the answer holds none. -/
def answeredWith (sent : Entity) (answer : Json) : Entity :=
  match answer with
  | .object _ => ofRemote answer sent.className
  | _ => { sent with children := .empty, updates := false, substitutes := false }

/-- The fields of a map with the values of another map laid over them, nulls excepted. -/
def layFields (above below : NameMap Json) : NameMap Json :=
  above.entries.foldl
    (fun fields entry => if entry.2.isNull then fields else fields.insert entry.1 entry.2) below

/-- The desired entity with its missing and null fields taken from the remote one. -/
def laidOver (desired remote : Entity) : Entity :=
  { desired with fields := layFields desired.fields remote.fields }

/-! ## Reading entities -/

/-- The type, which is the last segment of the class name. -/
def type (entity : Entity) : String := ClassName.simple entity.className

/-- The value of a field. -/
def field? (entity : Entity) (name : String) : Option Json := entity.fields.find? name

/-- The entity with one field set. -/
def setField (entity : Entity) (name : String) (value : Json) : Entity :=
  { entity with fields := entity.fields.insert name value }

/-- Whether there is a node of any child. -/
def hasChildren (entity : Entity) : Bool :=
  entity.children.entries.any fun entry => !entry.2.isEmpty

/-- The uuid, if it is a string. -/
def uuid? (entity : Entity) : Option String := (entity.field? "uuid").bind Json.text?

/-- The name, if it is a string. -/
def name? (entity : Entity) : Option String := (entity.field? "name").bind Json.text?

/-- The key under which states of the entity are remembered: its uuid, else its name. -/
def identity (entity : Entity) : String := (entity.uuid?.or entity.name?).getD ""

/-- The fields as one value; this is the body of a write. -/
def body (entity : Entity) : Json := .ofMap entity.fields

/-- How reports name the entity: its name, else its uuid, else its fields. -/
def label (entity : Entity) : String :=
  (entity.name?.or entity.uuid?).getD entity.body.print

/-- The number of objects in the child lists: there are no more descendants than that. -/
def descendants (entity : Entity) : Nat :=
  Json.memberObjects (entity.children.map Json.array).entries

/-- Whether two entities are the same in all their parts. -/
def agrees (left right : Entity) : Bool :=
  left.className == right.className
    && Json.membersAgree left.fields.entries right.fields.entries
    && Json.membersAgree (left.children.map Json.array).entries
      (right.children.map Json.array).entries
    && left.updates == right.updates && left.substitutes == right.substitutes

end Entity

end DesiredState
