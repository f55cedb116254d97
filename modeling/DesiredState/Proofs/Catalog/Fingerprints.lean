import DesiredState.Proofs.Run.Catalogs
import Mathlib.Data.List.Induction

/-!
# The first fingerprint stays

An engine and its copies share one memo of fingerprints. Whichever of them is asked, from whatever
source and in whatever order, the answers can be told from the list of inquiries alone: the first
inquiry for a location and a name whose documents can be loaded settles the fingerprint
(`find?_remembered`), and until then each inquiry fails on its own (`answer_eq`).

**Documents that change.** A source stands for what is at a location while it is asked. Two
inquiries with one location may therefore have sources with different documents, and the second one
is answered from the documents of the first. Two inquiries with different locations or names have
nothing to do with each other, and even the order in which they come does not matter
(`answer_remembered_filter`).
-/

set_option autoImplicit false

namespace DesiredState

/-! ## Fingerprints of texts -/

/-- The fingerprint of documents is the digest of their texts, written one after the other. -/
theorem Catalog.digest_eq (documents : List (String × String)) :
    Catalog.digest documents
      = Digest.Sha256.hexDigest (String.join (documents.map (·.2))).toUTF8.data.toList := by
  have bytes : documents.flatMap (fun document => document.2.toUTF8.data.toList)
      = (String.join (documents.map (·.2))).toUTF8.data.toList := by
    induction documents with
    | nil => rfl
    | cons document documents ih =>
      rw [List.flatMap_cons, ih, List.map_cons, String.join_cons]
      simp
  rw [Catalog.digest, bytes]

/-! ## Inquiries -/

/-- An inquiry after the fingerprint of a catalog. -/
structure Inquiry where
  /-- The copy of the engine that is asked. Copies share the memo and may differ in all else. -/
  copy : Engine
  source : DocumentSource
  name : String

namespace Inquiry

/-- What the fingerprint is remembered by. -/
def key (inquiry : Inquiry) : CatalogKey := ⟨inquiry.source.location, inquiry.name⟩

/-- The answer to an inquiry and the memo after it, given the memo that the copies share. -/
def ask (inquiry : Inquiry) (memo : FingerprintMemo) : Except Failure String × FingerprintMemo :=
  let (answer, engine) :=
    Engine.fingerprint { inquiry.copy with memo } inquiry.source inquiry.name
  (answer, engine.memo)

/-- The memo of a new engine after inquiries of the engine and its copies. -/
def remembered (inquiries : List Inquiry) : FingerprintMemo :=
  inquiries.foldl (fun memo inquiry => (inquiry.ask memo).2) .empty

/-- The answer to an inquiry after others. -/
def answer (before : List Inquiry) (inquiry : Inquiry) : Except Failure String :=
  (inquiry.ask (remembered before)).1

/-- The documents of the catalog can be loaded, and this is the digest of their texts, in the order
of the catalog. -/
def Finds (inquiry : Inquiry) (fingerprint : String) : Prop :=
  ∃ documents, Catalog.Loads inquiry.source inquiry.name documents ∧
    fingerprint = Digest.Sha256.hexDigest (String.join (documents.map (·.2))).toUTF8.data.toList

/-- None of the inquiries with the key finds a fingerprint. -/
def NoneFinds (key : CatalogKey) (inquiries : List Inquiry) : Prop :=
  ∀ inquiry ∈ inquiries, inquiry.key = key → ∀ fingerprint, ¬ inquiry.Finds fingerprint

/-- The first of the inquiries with the key that finds a fingerprint finds this one. -/
def FirstFinds (key : CatalogKey) (fingerprint : String) (inquiries : List Inquiry) : Prop :=
  ∃ before first after, inquiries = before ++ first :: after ∧ first.key = key ∧
    first.Finds fingerprint ∧ NoneFinds key before

/-- The fingerprint that an inquiry finds, if it has the key. -/
def found? (key : CatalogKey) (inquiry : Inquiry) : Option String :=
  if inquiry.key = key then (Catalog.fingerprint inquiry.source inquiry.name).toOption else none

variable {inquiry : Inquiry} {key : CatalogKey}

theorem fingerprint_eq_ok_iff {fingerprint : String} :
    Catalog.fingerprint inquiry.source inquiry.name = .ok fingerprint ↔
      inquiry.Finds fingerprint := by
  unfold Finds Catalog.fingerprint
  simp only [← Catalog.load_eq_ok_iff, ← Catalog.digest_eq]
  cases Catalog.load inquiry.source inquiry.name with
  | error failure => simp [Except.map]
  | ok documents => simp [Except.map, eq_comm]

theorem fingerprint_eq_error_iff {failure : Failure} :
    Catalog.fingerprint inquiry.source inquiry.name = .error failure ↔
      Catalog.FailsWith inquiry.source inquiry.name failure := by
  rw [← Catalog.load_eq_error_iff, Catalog.fingerprint]
  cases Catalog.load inquiry.source inquiry.name <;> simp [Except.map]

theorem found?_eq_some_iff {fingerprint : String} :
    found? key inquiry = some fingerprint ↔ inquiry.key = key ∧ inquiry.Finds fingerprint := by
  rw [found?, ← fingerprint_eq_ok_iff]
  cases Catalog.fingerprint inquiry.source inquiry.name <;> simp [Except.toOption]

theorem found?_eq_none_iff :
    found? key inquiry = none ↔
      (inquiry.key = key → ∀ fingerprint, ¬ inquiry.Finds fingerprint) := by
  simp only [Option.eq_none_iff_forall_ne_some, ne_eq, found?_eq_some_iff, not_and]
  exact forall_comm

/-! ## One inquiry -/

variable {memo : FingerprintMemo}

/-- A fingerprint that is remembered is the answer, and nothing changes. -/
theorem ask_of_known {fingerprint : String} (known : memo.find? inquiry.key = some fingerprint) :
    inquiry.ask memo = (.ok fingerprint, memo) := by
  have found : memo.find? ⟨inquiry.source.location, inquiry.name⟩ = some fingerprint := known
  simp only [ask, Engine.fingerprint, FingerprintMemo.fingerprint, found]

/-- A fingerprint that has to be computed is remembered. -/
theorem ask_of_computed {fingerprint : String} (unknown : memo.find? inquiry.key = none)
    (computed : Catalog.fingerprint inquiry.source inquiry.name = .ok fingerprint) :
    inquiry.ask memo = (.ok fingerprint, ⟨(inquiry.key, fingerprint) :: memo.entries⟩) := by
  have missing : memo.find? ⟨inquiry.source.location, inquiry.name⟩ = none := unknown
  simp only [ask, Engine.fingerprint, FingerprintMemo.fingerprint, missing, computed]
  rfl

/-- **A failure is not remembered.** -/
theorem ask_of_failed {failure : Failure} (unknown : memo.find? inquiry.key = none)
    (failed : Catalog.fingerprint inquiry.source inquiry.name = .error failure) :
    inquiry.ask memo = (.error failure, memo) := by
  have missing : memo.find? ⟨inquiry.source.location, inquiry.name⟩ = none := unknown
  simp only [ask, Engine.fingerprint, FingerprintMemo.fingerprint, missing, failed]

/-- An inquiry adds what it finds under its key, unless there is something already. -/
theorem find?_ask (key : CatalogKey) :
    (inquiry.ask memo).2.find? key = (memo.find? key).or (found? key inquiry) := by
  by_cases here : inquiry.key = key
  · subst here
    cases known : memo.find? inquiry.key with
    | some fingerprint => rw [ask_of_known known, known, Option.some_or]
    | none =>
      cases computed : Catalog.fingerprint inquiry.source inquiry.name with
      | error failure =>
        simp [ask_of_failed known computed, known, found?, computed, Except.toOption]
      | ok fingerprint =>
        simp [ask_of_computed known computed, FingerprintMemo.find?, found?, computed,
          Except.toOption]
  · have elsewhere : found? key inquiry = none := if_neg here
    rw [elsewhere, Option.or_none]
    cases known : memo.find? inquiry.key with
    | some fingerprint => rw [ask_of_known known]
    | none =>
      cases computed : Catalog.fingerprint inquiry.source inquiry.name with
      | error failure => rw [ask_of_failed known computed]
      | ok fingerprint => simp [ask_of_computed known computed, FingerprintMemo.find?, here]

/-! ## Any number of inquiries -/

@[simp] theorem remembered_concat (inquiries : List Inquiry) (inquiry : Inquiry) :
    remembered (inquiries ++ [inquiry]) = (inquiry.ask (remembered inquiries)).2 := by
  rw [remembered, remembered, List.foldl_append]
  rfl

/-- **What is remembered** is what the first inquiry that finds something has found. -/
theorem find?_remembered (key : CatalogKey) (inquiries : List Inquiry) :
    (remembered inquiries).find? key = inquiries.findSome? (found? key) := by
  induction inquiries using List.reverseRecOn with
  | nil => rfl
  | append_singleton inquiries inquiry ih =>
    rw [remembered_concat, find?_ask, ih, List.findSome?_append, List.findSome?_singleton]

theorem firstFinds_iff {fingerprint : String} {inquiries : List Inquiry} :
    FirstFinds key fingerprint inquiries ↔
      inquiries.findSome? (found? key) = some fingerprint := by
  simp only [List.findSome?_eq_some_iff, found?_eq_some_iff, found?_eq_none_iff, FirstFinds,
    NoneFinds, and_assoc]

theorem noneFinds_iff {inquiries : List Inquiry} :
    NoneFinds key inquiries ↔ inquiries.findSome? (found? key) = none := by
  simp only [List.findSome?_eq_none_iff, found?_eq_none_iff, NoneFinds]

variable {before : List Inquiry}

theorem answer_of_known {fingerprint : String}
    (known : before.findSome? (found? inquiry.key) = some fingerprint) :
    inquiry.answer before = .ok fingerprint := by
  rw [answer, ask_of_known ((find?_remembered _ _).trans known)]

/-- Without an inquiry before that finds something, an inquiry answers for itself. -/
theorem answer_of_unknown (unknown : before.findSome? (found? inquiry.key) = none) :
    inquiry.answer before = Catalog.fingerprint inquiry.source inquiry.name := by
  have missing := (find?_remembered inquiry.key before).trans unknown
  cases computed : Catalog.fingerprint inquiry.source inquiry.name with
  | ok fingerprint => rw [answer, ask_of_computed missing computed]
  | error failure => rw [answer, ask_of_failed missing computed]

/-- An inquiry is answered with what the first one for its key finds, itself included. -/
theorem answer_eq_ok_iff {fingerprint : String} :
    inquiry.answer before = .ok fingerprint ↔
      FirstFinds inquiry.key fingerprint (before ++ [inquiry]) := by
  rw [firstFinds_iff, List.findSome?_append, List.findSome?_singleton]
  cases known : before.findSome? (found? inquiry.key) with
  | some first => rw [answer_of_known known, Option.some_or, Except.ok.injEq, Option.some.injEq]
  | none =>
    rw [answer_of_unknown known, Option.none_or, fingerprint_eq_ok_iff, found?_eq_some_iff]
    exact (and_iff_right rfl).symm

/-- An inquiry fails if its documents cannot be loaded and none before for its key finds
anything. -/
theorem answer_eq_error_iff {failure : Failure} :
    inquiry.answer before = .error failure ↔
      Catalog.FailsWith inquiry.source inquiry.name failure ∧ NoneFinds inquiry.key before := by
  rw [noneFinds_iff, ← fingerprint_eq_error_iff]
  cases known : before.findSome? (found? inquiry.key) with
  | some first => simp [answer_of_known known]
  | none => simp [answer_of_unknown known]

/-- **A failed inquiry leaves the memo as it is.** -/
theorem remembered_of_error {failure : Failure} (failed : inquiry.answer before = .error failure) :
    remembered (before ++ [inquiry]) = remembered before := by
  rw [remembered_concat]
  cases known : (remembered before).find? inquiry.key with
  | some fingerprint => rw [ask_of_known known]
  | none =>
    cases computed : Catalog.fingerprint inquiry.source inquiry.name with
    | ok fingerprint =>
      rw [answer, ask_of_computed known computed] at failed
      cases failed
    | error _ => rw [ask_of_failed known computed]

theorem findSome?_filter (key : CatalogKey) (inquiries : List Inquiry) :
    (inquiries.filter (·.key = key)).findSome? (found? key) = inquiries.findSome? (found? key) := by
  induction inquiries with
  | nil => rfl
  | cons inquiry inquiries ih =>
    by_cases here : inquiry.key = key
    · rw [List.filter_cons_of_pos (by simpa using here), List.findSome?_cons, ih,
        ← List.findSome?_cons]
    · have elsewhere : found? key inquiry = none := if_neg here
      rw [List.filter_cons_of_neg (by simpa using here), List.findSome?_cons, elsewhere, ih]

/-- **Inquiries with other keys make no difference.** -/
theorem answer_filter (before : List Inquiry) (inquiry : Inquiry) :
    inquiry.answer (before.filter (·.key = inquiry.key)) = inquiry.answer before := by
  have same := findSome?_filter inquiry.key before
  cases known : before.findSome? (found? inquiry.key) with
  | some first => rw [answer_of_known known, answer_of_known (same.trans known)]
  | none => rw [answer_of_unknown known, answer_of_unknown (same.trans known)]

/-- **The first fingerprint stays.** An inquiry of a copy of an engine after any others is answered
with the digest of the texts that the first inquiry for its location and name has loaded whose
documents could be loaded, and this may be the inquiry itself. It fails if its documents cannot be
loaded and those of no such inquiry before could be; the failure is that of its own first document
that cannot be loaded, and the memo stays as it was. Inquiries for other locations or names make no
difference to the answer. -/
theorem first_fingerprint_stays (before : List Inquiry) (inquiry : Inquiry) :
    (∀ fingerprint, inquiry.answer before = .ok fingerprint ↔
      FirstFinds inquiry.key fingerprint (before ++ [inquiry])) ∧
    (∀ failure, inquiry.answer before = .error failure ↔
      Catalog.FailsWith inquiry.source inquiry.name failure ∧ NoneFinds inquiry.key before) ∧
    (∀ failure, inquiry.answer before = .error failure →
      remembered (before ++ [inquiry]) = remembered before) ∧
    inquiry.answer (before.filter (·.key = inquiry.key)) = inquiry.answer before :=
  ⟨fun _ => answer_eq_ok_iff, fun _ => answer_eq_error_iff, fun _ => remembered_of_error,
    answer_filter before inquiry⟩

end Inquiry

namespace Sample

open Inquiry

/-- A catalog of one document. -/
def listing : NameMap String := NameMap.empty.insert "manifest" "[\"Thing\"]"

/-- The catalog with the text of its document. -/
def listed (text : String) : NameMap String := listing.insert "Thing" text

/-- The engine is asked for the catalog where its document is missing. -/
def asksEarly : Inquiry := ⟨engine, .ofDocuments "models/" listing, "manifest"⟩

/-- A copy for dry runs is asked for the catalog. -/
def asksFor (location text : String) : Inquiry :=
  ⟨{ engine with dry := true }, .ofDocuments location (listed text), "manifest"⟩

theorem asksEarly_fails : Catalog.FailsWith asksEarly.source asksEarly.name
    (.documentUnavailable "models/Thing.json" "document not found") :=
  .document rfl (show Catalog.Lists _ ([] ++ "Thing" :: []) from rfl) (by simp) rfl

theorem asksFor_finds (location text : String) : (asksFor location text).Finds
    (Digest.Sha256.hexDigest (String.join [text]).toUTF8.data.toList) :=
  ⟨[("Thing", text)], ⟨⟨_, rfl, rfl⟩, by simp; rfl⟩, rfl⟩

/-- The document is missing at first. Then it is there, and when it has changed the fingerprint
stays; at another place it has another one. -/
theorem changed_thing_keeps_first :
    asksEarly.answer []
        = .error (.documentUnavailable "models/Thing.json" "document not found") ∧
      remembered [asksEarly] = remembered [] ∧
      (asksFor "models/" "[1]").answer [asksEarly, asksFor "models/" "[]", asksFor "more/" "[2]"]
        = .ok (Digest.Sha256.hexDigest (String.join ["[]"]).toUTF8.data.toList) ∧
      (asksFor "more/" "[1]").answer [asksEarly, asksFor "models/" "[]"]
        = .ok (Digest.Sha256.hexDigest (String.join ["[1]"]).toUTF8.data.toList) := by
  have early : ∀ fingerprint, ¬ asksEarly.Finds fingerprint := by
    intro fingerprint finds
    have found := fingerprint_eq_ok_iff.mpr finds
    rw [fingerprint_eq_error_iff.mpr asksEarly_fails] at found
    cases found
  obtain ⟨-, fails, stays, -⟩ := first_fingerprint_stays [] asksEarly
  obtain ⟨again, -⟩ := first_fingerprint_stays
    [asksEarly, asksFor "models/" "[]", asksFor "more/" "[2]"] (asksFor "models/" "[1]")
  obtain ⟨elsewhere, -⟩ := first_fingerprint_stays
    [asksEarly, asksFor "models/" "[]"] (asksFor "more/" "[1]")
  have failed := (fails _).mpr ⟨asksEarly_fails, List.forall_mem_nil _⟩
  refine ⟨failed, stays _ failed, (again _).mpr ?_, (elsewhere _).mpr ?_⟩
  · exact ⟨[asksEarly], _, [asksFor "more/" "[2]", asksFor "models/" "[1]"], rfl, rfl,
      asksFor_finds _ _, List.forall_mem_singleton.mpr fun _ => early⟩
  · refine ⟨[asksEarly, asksFor "models/" "[]"], _, [], rfl, rfl, asksFor_finds _ _, ?_⟩
    have other : ∀ earlier ∈ [asksEarly, asksFor "models/" "[]"],
        earlier.key ≠ (asksFor "more/" "[1]").key := by
      simp only [List.forall_mem_cons]
      exact ⟨by decide, by decide, List.forall_mem_nil _⟩
    exact fun earlier member same => absurd same (other earlier member)

end Sample

end DesiredState
