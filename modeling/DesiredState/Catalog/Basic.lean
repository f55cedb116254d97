import DesiredState.Digest.Sha256
import DesiredState.Failure
import DesiredState.Json.Reader
import DesiredState.Text.Comments

/-!
# Catalogs of model documents

A catalog is a document that lists the names of model documents as a JSON array of strings,
with comments allowed. It is loaded as a whole before anything is done with it: the first
document that cannot be loaded decides the failure. The fingerprint of a catalog is the
SHA-256 digest of the texts it lists, one after the other.
-/

set_option autoImplicit false

namespace DesiredState

/-- Where documents come from. -/
structure DocumentSource where
  /-- What messages and fingerprints tell the source by. -/
  location : String
  /-- The text of the document with a name. -/
  load : String → Except Failure String

namespace DocumentSource

/-- What is added to the name of a document to name its file. -/
def fileEnding : String := ".json"

/-- The source of documents that are at hand, under a location to which names are added. -/
def ofDocuments (location : String) (documents : NameMap String) : DocumentSource where
  location
  load name :=
    match documents.find? name with
    | some text => .ok text
    | none =>
        .error (.documentUnavailable (location ++ name ++ fileEnding) "document not found")

end DocumentSource

namespace Catalog

/-- The name of the catalog that is loaded unless another one is named. -/
def standardName : String := "manifest"

/-- The texts of a list of JSON values, if all of them are strings. -/
def texts? (values : List Json) : Option (List String) := values.mapM Json.text?

/-- The names that a catalog lists. -/
def names? (catalog : String) : Option (List String) :=
  ((Json.read? (Text.Comments.strip catalog)).bind Json.items?).bind texts?

/-- The names and texts of the documents that a catalog lists, in its order. -/
def load (source : DocumentSource) (name : String) :
    Except Failure (List (String × String)) := do
  let catalog ← source.load name
  match names? catalog with
  | none => .error (.documentUnavailable (source.location ++ "/" ++ name) unreadableJson)
  | some names => names.mapM fun model => do .ok (model, ← source.load model)

/-- The digest of the texts of a list of documents. -/
def digest (documents : List (String × String)) : String :=
  Digest.Sha256.hexDigest (documents.flatMap fun document => document.2.toUTF8.data.toList)

/-- The fingerprint of a catalog. -/
def fingerprint (source : DocumentSource) (name : String) : Except Failure String :=
  (load source name).map digest

end Catalog

end DesiredState
