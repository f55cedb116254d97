import DesiredState.Catalog.Basic
import DesiredState.Catalog.Path
import DesiredState.Text.Utf8

/-!
# Catalogs in a file tree

Documents may be kept as files of a directory: the document `name` is the file `name.json`.
A path is followed component by component from the working directory, and `..` leads back
to the directory that was come from. Outside the working directory nothing is found. Names
and paths have a greatest length, which is counted in bytes of UTF-8; a name is too long
only where it is looked for.
-/

set_option autoImplicit false

namespace DesiredState

/-- A file with its bytes, or a directory. -/
inductive FileTree
  | file (bytes : List UInt8)
  | directory (entries : List (String × FileTree))
  deriving Inhabited

namespace FileTree

/-- Why a file cannot be read as text. -/
inductive Fault
  | notFound
  | notDirectory
  | isDirectory
  | notText
  /-- The path, or a name in it, is longer than any that exists. -/
  | nameTooLong
  /-- The path holds a character that no path may hold. -/
  | unusablePath
  deriving DecidableEq, Repr

/-- The words for a fault. -/
def Fault.message : Fault → String
  | .notFound => "No such file or directory (os error 2)"
  | .notDirectory => "Not a directory (os error 20)"
  | .isDirectory => "Is a directory (os error 21)"
  | .nameTooLong => "File name too long (os error 36)"
  | .notText => "stream did not contain valid UTF-8"
  | .unusablePath => "file name contained an unexpected NUL byte"

/-- The greatest length of a name, in bytes. -/
def nameLimit : Nat := 255

/-- The greatest length of a path, in bytes. -/
def pathLimit : Nat := 4095

/-- What is reached from a place by following components; `outer` holds the directories that
were come through, the innermost first. -/
def follow : List FileTree → FileTree → List String → Except Fault FileTree
  | _, here, [] => .ok here
  | _, .file _, _ :: _ => .error .notDirectory
  | outer, .directory entries, component :: rest =>
      if component = ".." then
        match outer with
        | [] => follow [] (.directory []) rest
        | back :: others => follow others back rest
      else if nameLimit < component.utf8ByteSize then .error .nameTooLong
      else
        match lookupEntry component entries with
        | none => .error .notFound
        | some next => follow (.directory entries :: outer) next rest

/-- The text of the file at a path. -/
def read (working : FileTree) (path : String) : Except Fault String := do
  if path.toList.contains '\x00' then .error .unusablePath
  if pathLimit < path.utf8ByteSize then .error .nameTooLong
  let origin := if Path.isAbsolute path then .directory [] else working
  match ← follow [] origin (Path.components path) with
  | .directory _ => .error .isDirectory
  | .file bytes =>
      match Text.Utf8.decode? bytes with
      | some text => .ok text
      | none => .error .notText

/-- A tree with another tree put at a path, and the directories on the way there. -/
def put : List String → FileTree → FileTree → FileTree
  | [], tree, _ => tree
  | component :: rest, tree, .file _ => .directory [(component, put rest tree (.directory []))]
  | component :: rest, tree, .directory entries =>
      let below := (lookupEntry component entries).getD (.directory [])
      .directory (insertEntry component (put rest tree below) entries)

end FileTree

namespace DocumentSource

/-- The source of the documents in a directory of a file tree. -/
def ofDirectory (working : FileTree) (directory : String) : DocumentSource where
  location := directory
  load name :=
    let path := Path.join directory (name ++ fileEnding)
    (working.read path).mapError fun fault => .documentUnavailable path fault.message

/-- The source of the directory that holds a catalog file, and the name of the catalog. -/
def ofCatalogFile (working : FileTree) (path : String) :
    Except Failure (DocumentSource × String) :=
  match Path.fileStem? path with
  | none => .error (.documentUnavailable path "manifest path has no file name")
  | some name => .ok (ofDirectory working (Path.parent path), name)

end DocumentSource

end DesiredState
