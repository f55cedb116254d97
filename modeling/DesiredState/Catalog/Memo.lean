import DesiredState.Catalog.Basic

/-!
# Remembered fingerprints

A fingerprint is computed once for each source location and catalog name; later calls get
the first one, whatever has become of the documents. A failure is not remembered.
-/

set_option autoImplicit false

namespace DesiredState

/-- What fingerprints are remembered by. -/
structure CatalogKey where
  location : String
  name : String
  deriving DecidableEq, Repr

/-- The fingerprints that are remembered. -/
structure FingerprintMemo where
  entries : List (CatalogKey × String)

namespace FingerprintMemo

/-- The memo that remembers nothing. -/
def empty : FingerprintMemo := ⟨[]⟩

/-- The fingerprint remembered for a catalog. -/
def find? (memo : FingerprintMemo) (key : CatalogKey) : Option String :=
  (memo.entries.find? (·.1 == key)).map (·.2)

/-- The fingerprint of a catalog, and the memo that remembers it. -/
def fingerprint (memo : FingerprintMemo) (source : DocumentSource) (name : String) :
    Except Failure String × FingerprintMemo :=
  let key : CatalogKey := ⟨source.location, name⟩
  match memo.find? key with
  | some known => (.ok known, memo)
  | none =>
      match Catalog.fingerprint source name with
      | .ok computed => (.ok computed, ⟨(key, computed) :: memo.entries⟩)
      | .error failure => (.error failure, memo)

end FingerprintMemo

end DesiredState
