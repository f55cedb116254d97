import DesiredState.Catalog.FileTree
import DesiredState.Engine
import DesiredState.Proofs.Run.Prices
import DesiredState.Proofs.Run.Record
import DesiredState.Proofs.Schedule.Succession
import DesiredState.Proofs.Template

/-!
# Catalogs are loaded as a whole

A run of a catalog begins when the catalog and all documents that it lists have been loaded. If one
of them cannot be, the first of them decides how the run fails, and nothing has been asked of the
API by then. If all can be, the documents are handled one after another in the order of the catalog,
each under the type that it is named for, and the first one that fails ends the run. Either way the
run comes to its end.

**What is first.** The catalog comes before its documents, and documents come in the order in which
they are listed (`Catalog.FailsWith`). A document that is listed twice is loaded twice and handled
twice. What a source can load is up to the source; those at hand tell of every document that they
cannot load by its place (`DocumentSource.FailsByDocument`).
-/

set_option autoImplicit false

namespace DesiredState

/-! ## Names of documents -/

/-- The type that a document is named for: all of its name up to the first underscore or, where
there is none, up to the first dot. -/
inductive ClassName.NamedFor : String → String → Prop
  | underscore {type suffix : String} (first : '_' ∉ type.toList) :
      NamedFor (type ++ "_" ++ suffix) type
  | dot {type suffix : String} (first : '.' ∉ type.toList)
      (none : '_' ∉ (type ++ "." ++ suffix).toList) : NamedFor (type ++ "." ++ suffix) type
  | whole {name : String} (noUnderscore : '_' ∉ name.toList) (noDot : '.' ∉ name.toList) :
      NamedFor name name

theorem ClassName.namedFor_ofModelName (name : String) :
    ClassName.NamedFor name (ClassName.ofModelName name) := by
  have parted : ∀ {mark : Char} {before after : List Char}, name.toList = before ++ mark :: after →
      name = String.ofList before ++ String.ofList [mark] ++ String.ofList after := by
    intro mark before after split
    apply String.toList_injective
    simp [split]
  simp only [ofModelName]
  split
  · rename_i inside
    obtain ⟨before, after, split, free⟩ :=
      List.eq_append_cons_of_mem (List.contains_iff_mem.mp inside)
    rw [split, Template.takeWhile_delimited free, parted split]
    exact .underscore (by simpa using free)
  · rename_i noUnderscore
    replace noUnderscore : '_' ∉ name.toList := by simpa using noUnderscore
    by_cases inside : '.' ∈ name.toList
    · obtain ⟨before, after, split, free⟩ := List.eq_append_cons_of_mem inside
      rw [split, Template.takeWhile_delimited free]
      rw [parted split] at noUnderscore ⊢
      exact .dot (by simpa using free) noUnderscore
    · rw [List.takeWhile_eq_self_iff.mpr (Template.forall_ne_of_not_mem inside),
        String.ofList_toList]
      exact .whole noUnderscore inside

/-! ## Loading -/

namespace DocumentSource

/-- The source tells of a document that it cannot load by its place. -/
def FailsByDocument (source : DocumentSource) : Prop :=
  ∀ {name : String} {failure : Failure}, source.load name = .error failure →
    ∃ location detail, failure = .documentUnavailable location detail

theorem ofDocuments_failsByDocument (location : String) (documents : NameMap String) :
    (ofDocuments location documents).FailsByDocument := by
  intro name failure failed
  simp only [ofDocuments] at failed
  split at failed
  · cases failed
  · cases failed
    exact ⟨_, _, rfl⟩

theorem ofDirectory_failsByDocument (working : FileTree) (directory : String) :
    (ofDirectory working directory).FailsByDocument := by
  intro name failure failed
  simp only [ofDirectory] at failed
  cases found : working.read (Path.join directory (name ++ fileEnding)) with
  | ok text => simp [found, Except.mapError] at failed
  | error fault =>
      rw [found] at failed
      cases failed
      exact ⟨_, _, rfl⟩

end DocumentSource

namespace Catalog

/-- The catalog is, without its comments, a JSON array of names. -/
def Lists (catalog : String) (names : List String) : Prop :=
  Json.read? (Text.Comments.strip catalog) = some (.array (names.map .string))

/-- The failure of the first document that cannot be loaded. -/
inductive FailsWith (source : DocumentSource) (name : String) : Failure → Prop
  | unavailable {failure : Failure} (failed : source.load name = .error failure) :
      FailsWith source name failure
  | unreadable {catalog : String} (loaded : source.load name = .ok catalog)
      (other : ∀ names, ¬ Lists catalog names) :
      FailsWith source name (.documentUnavailable (source.location ++ "/" ++ name) unreadableJson)
  | document {catalog listed : String} {before after : List String} {failure : Failure}
      (loaded : source.load name = .ok catalog) (lists : Lists catalog (before ++ listed :: after))
      (earlier : ∀ other ∈ before, ∃ text, source.load other = .ok text)
      (failed : source.load listed = .error failure) : FailsWith source name failure

/-- The documents are those that the catalog lists, in its order, with their texts. -/
structure Loads (source : DocumentSource) (name : String) (documents : List (String × String)) :
    Prop where
  lists : ∃ catalog, source.load name = .ok catalog ∧ Lists catalog (documents.map (·.1))
  loaded : ∀ document ∈ documents, source.load document.1 = .ok document.2

theorem texts?_eq_some_iff {values : List Json} {names : List String} :
    texts? values = some names ↔ values = names.map .string := by
  induction values generalizing names with
  | nil => cases names <;> simp [texts?]
  | cons value values ih =>
      have rest : texts? (value :: values) =
          (value.text?).bind fun name =>
            (texts? values).bind fun others => some (name :: others) := by
        simp only [texts?, List.mapM_cons]
        rfl
      rw [rest]
      cases value <;> cases names <;> simp [Json.text?, Option.bind_eq_some_iff, ih, and_comm]

theorem names?_eq_some_iff {catalog : String} {names : List String} :
    names? catalog = some names ↔ Lists catalog names := by
  unfold names? Lists
  cases Json.read? (Text.Comments.strip catalog) with
  | none => simp
  | some value => cases value <;> simp [Json.items?, texts?_eq_some_iff]

/-- The documents with the given names. -/
def loadAll (source : DocumentSource) (names : List String) :
    Except Failure (List (String × String)) :=
  names.mapM fun model => do .ok (model, ← source.load model)

variable {source : DocumentSource}

theorem loadAll_cons (name : String) (names : List String) :
    loadAll source (name :: names) =
      (source.load name).bind fun text => (loadAll source names).bind fun documents =>
        .ok ((name, text) :: documents) := by
  simp only [loadAll, List.mapM_cons]
  cases source.load name <;> rfl

theorem loadAll_eq_ok_iff {names : List String} {documents : List (String × String)} :
    loadAll source names = .ok documents ↔
      documents.map (·.1) = names ∧
        ∀ document ∈ documents, source.load document.1 = .ok document.2 := by
  induction names generalizing documents with
  | nil => cases documents <;> simp [loadAll, pure, Except.pure]
  | cons name names ih =>
      rw [loadAll_cons]
      constructor
      · intro done
        cases here : source.load name with
        | error failure => simp [here, Except.bind] at done
        | ok text =>
            cases others : loadAll source names with
            | error failure => simp [here, others, Except.bind] at done
            | ok rest =>
                obtain ⟨same, loaded⟩ := ih.mp others
                simp only [here, others, Except.bind, Except.ok.injEq] at done
                subst done
                exact ⟨by rw [List.map_cons, same], List.forall_mem_cons.mpr ⟨here, loaded⟩⟩
      · rintro ⟨same, loaded⟩
        cases documents with
        | nil => cases same
        | cons document rest =>
            obtain ⟨here, others⟩ := List.forall_mem_cons.mp loaded
            obtain ⟨rfl, follow⟩ := List.cons.inj same
            rw [here, ih.mpr ⟨follow, others⟩]
            rfl

theorem loadAll_eq_error_iff {names : List String} {failure : Failure} :
    loadAll source names = .error failure ↔
      ∃ before listed after, names = before ++ listed :: after ∧
        (∀ other ∈ before, ∃ text, source.load other = .ok text) ∧
        source.load listed = .error failure := by
  induction names with
  | nil => simp [loadAll, pure, Except.pure]
  | cons name names ih =>
      rw [loadAll_cons]
      cases here : source.load name with
      | error first =>
          constructor
          · intro failed
            cases failed
            exact ⟨[], name, names, rfl, List.forall_mem_nil _, here⟩
          · rintro ⟨before, listed, after, split, earlier, failed⟩
            cases before with
            | nil =>
                obtain ⟨rfl, _⟩ := List.cons.inj split
                rw [here] at failed
                cases failed
                rfl
            | cons other before =>
                obtain ⟨rfl, _⟩ := List.cons.inj split
                obtain ⟨text, loaded⟩ := earlier _ List.mem_cons_self
                rw [here] at loaded
                cases loaded
      | ok text =>
          have rest : ((Except.ok text : Except Failure String).bind fun text =>
              (loadAll source names).bind fun documents => .ok ((name, text) :: documents))
                = .error failure ↔ loadAll source names = .error failure := by
            cases loadAll source names <;> simp [Except.bind]
          rw [rest, ih]
          constructor
          · rintro ⟨before, listed, after, rfl, earlier, failed⟩
            exact ⟨name :: before, listed, after, rfl,
              List.forall_mem_cons.mpr ⟨⟨text, here⟩, earlier⟩, failed⟩
          · rintro ⟨before, listed, after, split, earlier, failed⟩
            cases before with
            | nil =>
                obtain ⟨rfl, _⟩ := List.cons.inj split
                rw [here] at failed
                cases failed
            | cons other before =>
                obtain ⟨rfl, rfl⟩ := List.cons.inj split
                exact ⟨before, listed, after, rfl, fun other member =>
                  earlier other (.tail _ member), failed⟩

/-- A catalog is loaded by loading what it lists. -/
theorem load_eq (source : DocumentSource) (name : String) :
    load source name = (source.load name).bind fun catalog =>
      match names? catalog with
      | none => .error (.documentUnavailable (source.location ++ "/" ++ name) unreadableJson)
      | some names => loadAll source names := rfl

/-- **What is loaded** is what the catalog lists. -/
theorem load_eq_ok_iff {name : String} {documents : List (String × String)} :
    load source name = .ok documents ↔ Loads source name documents := by
  rw [load_eq]
  constructor
  · intro done
    cases here : source.load name with
    | error failure => simp [here, Except.bind] at done
    | ok catalog =>
        cases listed : names? catalog with
        | none => simp [here, listed, Except.bind] at done
        | some names =>
            simp only [here, listed, Except.bind] at done
            obtain ⟨rfl, loaded⟩ := loadAll_eq_ok_iff.mp done
            exact ⟨⟨catalog, here, names?_eq_some_iff.mp listed⟩, loaded⟩
  · rintro ⟨⟨catalog, here, lists⟩, loaded⟩
    simp only [here, names?_eq_some_iff.mpr lists, Except.bind]
    exact loadAll_eq_ok_iff.mpr ⟨rfl, loaded⟩

/-- **The failure** is that of the first document that cannot be loaded. -/
theorem load_eq_error_iff {name : String} {failure : Failure} :
    load source name = .error failure ↔ FailsWith source name failure := by
  rw [load_eq]
  constructor
  · intro done
    cases here : source.load name with
    | error first =>
        rw [here] at done
        cases done
        exact .unavailable here
    | ok catalog =>
        cases listed : names? catalog with
        | none =>
            simp only [here, listed, Except.bind, Except.error.injEq] at done
            subst done
            refine .unreadable here fun names lists => ?_
            rw [names?_eq_some_iff.mpr lists] at listed
            cases listed
        | some names =>
            simp only [here, listed, Except.bind] at done
            obtain ⟨before, listed, after, rfl, earlier, failed⟩ := loadAll_eq_error_iff.mp done
            exact .document here (names?_eq_some_iff.mp ‹_›) earlier failed
  · intro fails
    cases fails with
    | unavailable failed => simp [failed, Except.bind]
    | unreadable loaded other =>
        rename_i catalog
        have unlisted : names? catalog = none :=
          Option.eq_none_iff_forall_ne_some.mpr fun names listed =>
            other names (names?_eq_some_iff.mp listed)
        simp only [loaded, unlisted, Except.bind]
    | document loaded lists earlier failed =>
        simp only [loaded, names?_eq_some_iff.mpr lists, Except.bind]
        exact loadAll_eq_error_iff.mpr ⟨_, _, _, rfl, earlier, failed⟩

theorem FailsWith.unavailable_of_failsByDocument {name : String} {failure : Failure}
    (fails : FailsWith source name failure) (tells : source.FailsByDocument) :
    ∃ location detail, failure = .documentUnavailable location detail := by
  cases fails with
  | unavailable failed => exact tells failed
  | unreadable => exact ⟨_, _, rfl⟩
  | document _ _ _ failed => exact tells failed

end Catalog

/-! ## Handling -/

namespace Run

variable {run : Run}

/-- The document has been handled, under the type that it is named for, as far as the events show,
and if this has ended, with the outcome. -/
def HandlesDocument (run : Run) (named : String × String) (events : List Event)
    (outcome : Option (Outcome Unit)) : Prop :=
  ∃ type, ∃ reached : Stage ChildTask (List Entity), ClassName.NamedFor named.1 type ∧
    Stage.Steps run (.active (run.document type named.2)) events reached ∧
    ∀ ended, outcome = some ended → reached.outcome?.map Outcome.forget = some ended

theorem handlesDocument_of_model {named : String × String} {events : List Event}
    {stage : Stage ChildTask Unit}
    (steps : Stage.Steps run (.active (run.model named)) events stage) :
    run.HandlesDocument named events stage.outcome? := by
  refine ⟨ClassName.ofModelName named.1, ?_⟩
  have type := ClassName.namedFor_ofModelName named.1
  cases steps with
  | refl => exact ⟨_, type, .refl _, fun ended closed => by cases closed⟩
  | head step rest =>
      cases step
      obtain ⟨reached, own, ends⟩ := Stage.Steps.of_bind_value rest
      refine ⟨reached, type, own, fun ended closed => ?_⟩
      obtain ⟨outcome, reachedOver, same, _⟩ := ends ended closed
      rw [reachedOver, Option.map_some, same]
      cases ended <;> rfl

/-- **The documents of a catalog are handled in turn.** -/
theorem handlesDocuments {documents : List (String × String)} {events : List Event}
    {stage : Stage ChildTask (List (String × String))}
    (steps : Stage.Steps run (.active (run.models documents)) events stage) :
    ∃ outcome, Stage.InTurn run.HandlesDocument documents events outcome ∧
      ∀ ended, stage.outcome? = some ended →
        outcome = some ended.forget ∧ ∀ result, ended = .value result → result = documents := by
  obtain ⟨reached, own, ends⟩ := Stage.Steps.of_bind_value steps
  refine ⟨reached.outcome?, own.inTurn.imp ?_, fun ended closed => ?_⟩
  · rintro named _ events outcome ⟨reached, steps, rfl⟩
    exact handlesDocument_of_model steps
  · obtain ⟨outcome, reachedOver, same, result⟩ := ends ended closed
    refine ⟨?_, fun value isValue => ?_⟩
    · rw [reachedOver, ← same]
      cases outcome <;> rfl
    · obtain ⟨_, _, equal⟩ := result value isValue
      exact equal

end Run

/-- **A catalog is loaded as a whole.** If the catalog or a document that it lists cannot be
loaded, or if the catalog is no list of names, the run fails with the failure of the first such
document, which tells where it was looked for if the source is one of those at hand, and nothing has
been asked or told, or been changed, by then. Otherwise the run handles the documents that the
catalog lists, with repetitions, in the order of the catalog and one after another, each under the
type that it is named for; the first one that has no value ends the run with its outcome. If all of
them have one, the result is the list of the documents. The run comes to its end in any case, and
what it leaves is what the steps have done that it is made of; in whatever other order these were
taken, the same would hold. -/
theorem Engine.catalog_loaded_whole {σ : Type} (engine : Engine) (api : Api σ)
    (source : DocumentSource) (name : String) (state : σ) :
    ((∀ location documents, (DocumentSource.ofDocuments location documents).FailsByDocument) ∧
      ∀ working directory, (DocumentSource.ofDirectory working directory).FailsByDocument) ∧
    (∀ {failure : Failure}, Catalog.FailsWith source name failure →
      engine.catalog api source name state = ⟨some (.failed failure), [], state, engine⟩ ∧
        (source.FailsByDocument → ∃ location detail,
          failure = .documentUnavailable location detail)) ∧
    ((∀ failure, ¬ Catalog.FailsWith source name failure) →
      ∃ documents, Catalog.Loads source name documents ∧
        (∃ events outcome world,
          Stage.Steps (engine.run api) (.active ((engine.run api).models documents)) events
            (.finished outcome) ∧
          World.Records api.server ⟨engine.registry, [], state⟩ events world ∧
          engine.catalog api source name state
            = ⟨some outcome, world.journal.reverse, world.server,
              engine.withRegistry world.registry⟩ ∧
          Stage.InTurn (engine.run api).HandlesDocument documents events (some outcome.forget) ∧
          ∀ result, outcome = .value result → result = documents) ∧
        ∀ {events : List Event} {stage : Stage ChildTask (List (String × String))},
          Stage.Steps (engine.run api) (.active ((engine.run api).models documents)) events stage →
          ∃ outcome, Stage.InTurn (engine.run api).HandlesDocument documents events outcome ∧
            ∀ ended, stage.outcome? = some ended →
              outcome = some ended.forget ∧
                ∀ result, ended = .value result → result = documents) := by
  refine ⟨⟨DocumentSource.ofDocuments_failsByDocument, DocumentSource.ofDirectory_failsByDocument⟩,
    fun {failure} fails => ?_, fun loadable => ?_⟩
  · refine ⟨?_, fails.unavailable_of_failsByDocument⟩
    rw [catalog, Catalog.load_eq_error_iff.mpr fails]
  · cases loaded : Catalog.load source name with
    | error failure => exact absurd (Catalog.load_eq_error_iff.mp loaded) (loadable failure)
    | ok documents =>
        obtain ⟨outcome, ended⟩ := engine.models_ends api state documents
        obtain ⟨events, world, steps, records, executed⟩ := engine.execute_accounted api
          (stepBound (totalExtent documents) documents.length) (·.models documents) state outcome
          ended
        obtain ⟨_, inTurn, ends⟩ := Run.handlesDocuments steps
        obtain ⟨rfl, returns⟩ := ends outcome rfl
        refine ⟨documents, Catalog.load_eq_ok_iff.mp loaded,
          ⟨events, outcome, world, steps, records, ?_, inTurn, returns⟩, Run.handlesDocuments⟩
        rw [catalog, loaded]
        exact executed

namespace Sample

/-- A catalog that lists a document twice. -/
def repetitive : NameMap String :=
  ⟨[("Thing_1", "[]"), ("manifest", "[\"Thing_1\", // again\n\"Thing_1\"]")], by decide⟩

/-- A catalog that lists a document which is not there. -/
def incomplete : NameMap String :=
  ⟨[("Thing", "[]"), ("manifest", "[\"Thing\", \"Part\"]")], by decide⟩

/-- An API that writes down what it is asked. -/
def recording : Api ((String → Held) × List Call) := ⟨⟨0⟩, .direct, .recorded respond⟩

theorem loads_repetitive : Catalog.Loads (.ofDocuments "models/" repetitive) "manifest"
    [("Thing_1", "[]"), ("Thing_1", "[]")] where
  lists := ⟨_, rfl, rfl⟩
  loaded := by simp only [List.forall_mem_cons]; exact ⟨rfl, rfl, List.forall_mem_nil _⟩

/-- The run of the repetitive catalog. -/
def repeated : RunResult ((String → Held) × List Call) (List (String × String)) :=
  engine.catalog recording (.ofDocuments "models/" repetitive) "manifest" (shelf, [])

/-- The run succeeds and fetches the blueprint once for each repetition. -/
theorem repeated_stands :
    Outcome.isValue repeated.outcome = true ∧
      repeated.server.2.reverse.map (·.request.path)
        = ["/blueprints/Thing", "/blueprints/Thing"] := by decide +kernel

/-- Nothing is asked for the incomplete catalog; the document that is listed twice is handled
twice and returned twice. -/
theorem incomplete_asks_nothing :
    engine.catalog recording (.ofDocuments "models/" incomplete) "manifest" (shelf, [])
        = ⟨some (.failed (.documentUnavailable "models/Part.json" "document not found")), [],
          (shelf, []), engine⟩ ∧
      (∃ location detail, (engine.catalog recording (.ofDocuments "models/" incomplete) "manifest"
        (shelf, [])).outcome = some (.failed (.documentUnavailable location detail))) ∧
      repeated.outcome = some (.value [("Thing_1", "[]"), ("Thing_1", "[]")]) ∧
      ∃ events, Stage.InTurn (engine.run recording).HandlesDocument
          [("Thing_1", "[]"), ("Thing_1", "[]")] events (some (.value ())) ∧
        (calls events).map (·.request.path) = ["/blueprints/Thing", "/blueprints/Thing"] := by
  obtain ⟨⟨named, _⟩, fails, _⟩ := engine.catalog_loaded_whole recording
    (.ofDocuments "models/" incomplete) "manifest" (shelf, [])
  obtain ⟨_, _, handles⟩ := engine.catalog_loaded_whole recording
    (.ofDocuments "models/" repetitive) "manifest" (shelf, [])
  have loaded := Catalog.load_eq_ok_iff.mpr loads_repetitive
  obtain ⟨documents, loads, ⟨events, outcome, world, _, records, ran, inTurn, returns⟩, _⟩ :=
    handles fun failure fails => by
      rw [Catalog.load_eq_error_iff.mpr fails] at loaded
      cases loaded
  obtain rfl := Except.ok.inj (loaded.symm.trans (Catalog.load_eq_ok_iff.mpr loads))
  obtain ⟨succeeds, fetched⟩ := repeated_stands
  obtain ⟨result, ended⟩ := Outcome.value_of_isValue succeeds
  rw [repeated, ran] at ended fetched
  obtain rfl := Option.some.inj ended
  obtain rfl := returns result rfl
  have lists : Catalog.Lists "[\"Thing\", \"Part\"]" (["Thing"] ++ "Part" :: []) := rfl
  obtain ⟨failed, tells⟩ := fails (.document rfl lists (by simpa using ⟨_, rfl⟩) rfl)
  obtain ⟨location, detail, same⟩ := tells (named _ _)
  refine ⟨failed, ⟨location, detail, by rw [failed, same]⟩, by rw [repeated, ran], events, inTurn,
    ?_⟩
  have served : World.Records (.recorded respond) ⟨engine.registry, [], (shelf, [])⟩ events world :=
    records
  rw [served.recorded.1] at fetched
  simpa using fetched

end Sample

end DesiredState
