/-!
# Names of entity types

A class name is a package path and a type name, separated by dots, such as
`org.example.Account`; its last segment is the type. A model document is named for
the type of its entities, possibly with a suffix that starts at an underscore or,
without one, at a dot.
-/

set_option autoImplicit false

namespace DesiredState.ClassName

/-- The characters after the last dot. -/
def lastSegment (characters : List Char) : List Char :=
  (characters.reverse.takeWhile (· != '.')).reverse

/-- The characters before the last dot, if there is a dot. -/
def packagePath? (characters : List Char) : Option (List Char) :=
  match characters.reverse.dropWhile (· != '.') with
  | [] => none
  | _ :: path => some path.reverse

/-- The type that a class name ends with. -/
def simple (className : String) : String :=
  String.ofList (lastSegment className.toList)

/-- The class name of a type in the package of another class. -/
def sibling (className typeName : String) : String :=
  match packagePath? className.toList with
  | none => typeName
  | some path => String.ofList path ++ "." ++ typeName

/-- The entity type that a model document is named for. -/
def ofModelName (model : String) : String :=
  let characters := model.toList
  if characters.contains '_' then String.ofList (characters.takeWhile (· != '_'))
  else String.ofList (characters.takeWhile (· != '.'))

end DesiredState.ClassName
