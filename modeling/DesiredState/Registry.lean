import DesiredState.Api.Session
import DesiredState.Entity.Basic

/-!
# The registry of known states

The registry remembers the last known state of each entity of a session. A state has no
key of its own: it is found under the type and the identity of the entity itself, so two
states meet if both agree, whatever their other fields are.
-/

set_option autoImplicit false

namespace DesiredState

/-- A state of an entity as one session knows it. -/
structure KnownState where
  session : SessionId
  entity : Entity

/-- What states are told apart by: session, type and identity. -/
structure StateKey where
  session : SessionId
  type : String
  identity : String
  deriving DecidableEq, Repr

/-- The key of a known state. -/
def KnownState.key (state : KnownState) : StateKey :=
  ⟨state.session, state.entity.type, state.entity.identity⟩

/-- The known states, at most one of each key. -/
structure Registry where
  states : List KnownState
  distinct : states.Pairwise fun left right => left.key ≠ right.key

namespace Registry

/-- The registry that knows nothing. -/
def empty : Registry := ⟨[], .nil⟩

instance : Inhabited Registry := ⟨empty⟩

/-- The entity known under a key. -/
def find? (registry : Registry) (key : StateKey) : Option Entity :=
  (registry.states.find? (·.key == key)).map (·.entity)

/-- The registry with a state, which replaces the earlier one of its key. -/
def insert (registry : Registry) (session : SessionId) (entity : Entity) : Registry where
  states := ⟨session, entity⟩
    :: registry.states.filter (·.key != KnownState.key ⟨session, entity⟩)
  distinct := by
    refine List.pairwise_cons.mpr ⟨fun state member => ?_, registry.distinct.filter _⟩
    have different := (List.mem_filter.mp member).2
    exact fun same => by simp [same] at different

@[simp] theorem find?_empty (key : StateKey) : empty.find? key = none := rfl

/-- An inserted state is known under its own key, and the others are known as before. -/
@[simp] theorem find?_insert (registry : Registry) (session : SessionId) (entity : Entity)
    (key : StateKey) :
    (registry.insert session entity).find? key =
      if key = KnownState.key ⟨session, entity⟩ then some entity else registry.find? key := by
  by_cases same : key = KnownState.key ⟨session, entity⟩
  · simp [find?, insert, same]
  · have other : (KnownState.key ⟨session, entity⟩ == key) = false := by simpa using Ne.symm same
    simp only [find?, insert, List.find?_cons, other, List.find?_filter, same, if_false]
    congr 2
    funext state
    by_cases known : state.key = key <;> simp [known, same]

/-- The entity known under the key of `entity`, which is put there if none is known. -/
def findOrInsert (registry : Registry) (session : SessionId) (entity : Entity) :
    Entity × Registry :=
  match registry.find? (KnownState.key ⟨session, entity⟩) with
  | some known => (known, registry)
  | none => (entity, registry.insert session entity)

/-- The number of known states. -/
def size (registry : Registry) : Nat := registry.states.length

/-- Whether nothing is known. -/
def isEmpty (registry : Registry) : Bool := registry.states.isEmpty

end Registry

end DesiredState
