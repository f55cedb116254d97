/-!
# Paths of documents

A path is a text of components separated by slashes. Repeated slashes, a slash at the end
and components `.` other than a leading one do not count when a path is split into its last
component and its parent. The stem of a component is what stands before its last dot, unless
nothing does.
-/

set_option autoImplicit false

namespace DesiredState.Path

/-- Whether a path starts at the root. -/
def isAbsolute (path : String) : Bool := path.toList.head? == some '/'

/-- The length of the leading slash or the leading component `.` of a path. -/
def headLength : List Char → Nat
  | '/' :: _ => 1
  | ['.'] => 1
  | '.' :: '/' :: _ => 1
  | _ => 0

/-- A path in reverse without what does not count at its end. -/
def trimEnd : List Char → List Char
  | '/' :: rest => trimEnd rest
  | ['.'] => []
  | '.' :: '/' :: rest => trimEnd rest
  | reversed => reversed

/-- A path without its head, in reverse and without what does not count at its end. -/
def reversedBody (path : String) : List Char :=
  trimEnd (path.toList.drop (headLength path.toList)).reverse

/-- The last component, if it names a file. -/
def fileName? (path : String) : Option (List Char) :=
  match reversedBody path with
  | [] => none
  | reversed =>
      let component := (reversed.takeWhile (· != '/')).reverse
      if component = ['.', '.'] then none else some component

/-- What stands before the last dot of a file's name, or the whole name if nothing does. -/
def stem (name : List Char) : List Char :=
  match (name.reverse.dropWhile (· != '.')).drop 1 with
  | [] => name
  | before => before.reverse

/-- The stem of the file that a path names. -/
def fileStem? (path : String) : Option String :=
  (fileName? path).map fun name => String.ofList (stem name)

/-- The path without its last component. -/
def parent (path : String) : String :=
  let rest := ((reversedBody path).dropWhile (· != '/')).drop 1
  String.ofList (path.toList.take (headLength path.toList) ++ (trimEnd rest).reverse)

/-- The path of a file in a directory; an absolute path stands for itself. -/
def join (directory file : String) : String :=
  if isAbsolute file || directory.isEmpty then file
  else if directory.toList.getLast? = some '/' then directory ++ file
  else directory ++ "/" ++ file

/-- The pieces between the separators. -/
def splitOn (separator : Char) : List Char → List (List Char)
  | [] => [[]]
  | character :: rest =>
      if character = separator then [] :: splitOn separator rest
      else match splitOn separator rest with
        | [] => [[character]]
        | piece :: pieces => (character :: piece) :: pieces

/-- The components that are followed from directory to directory. -/
def components (path : String) : List String :=
  ((splitOn '/' path.toList).filter fun piece => !piece.isEmpty && piece != ['.']).map
    String.ofList

end DesiredState.Path
