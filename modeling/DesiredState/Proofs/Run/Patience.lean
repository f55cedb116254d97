import DesiredState.Proofs.Plan.Interruption
import DesiredState.Proofs.Run.Own

/-!
# Patient observers

An observer who breaks off the handling of an entity hears nothing afterwards. Beside each observer
stands the patient one, who puts the same entities in the place of flagged ones and never breaks
off. The handling of an entity is the same for both until the first of them breaks off
(`interrupts_settle`).

**One lemma for each part.** The handling for a patient observer is put together of the same parts.
Only where a moment is told can the two differ; everything else is taken over as it is.
-/

set_option autoImplicit false

namespace DesiredState

/-- The observer who puts the same entities in the place of flagged ones and never breaks off. -/
def Observer.patient (observer : Observer) : Observer := { observer with breaks := fun _ => none }

namespace Run

open Plan (Interrupts)

/-- The run with the patient observer in the place of the given one. -/
def patient (run : Run) (observer : Observer) : Run :=
  { run with observer := some observer.patient }

@[simp] theorem patient_dry (run : Run) (observer : Observer) :
    (run.patient observer).dry = run.dry := rfl

@[simp] theorem patient_access (run : Run) (observer : Observer) :
    (run.patient observer).access = run.access := rfl

variable {run : Run} {observer : Observer} {blueprint : Blueprint} {lineage : Lineage}

/-- An entity that is not flagged stays as it is. -/
theorem substitute_plain (entity : Entity) : run.substitute false entity = pure entity := by
  unfold substitute
  cases run.observer with
  | none => rfl
  | some observer => rfl

/-- A flagged entity is shown to the observer, who puts another one in its place. -/
theorem substitute_flagged (observed : run.observer = some observer) (entity : Entity) :
    run.substitute true entity
      = run.observe (.substitution entity) >>= fun _ => pure (observer.substitute entity) := by
  unfold substitute
  rw [observed]

section

variable (observed : run.observer = some observer)

include observed

theorem interrupts_observe (moment : Moment) :
    Interrupts observer (run.observe moment) ((run.patient observer).observe moment) := by
  rw [observe, observed]
  cases breaks : observer.breaks moment with
  | none =>
      simp only [breaks]
      exact .refl _
  | some cause =>
      simp only [breaks]
      exact .broken breaks _

theorem interrupts_substitute (flagged : Bool) (entity : Entity) :
    Interrupts observer (run.substitute flagged entity)
      ((run.patient observer).substitute flagged entity) := by
  cases flagged with
  | false =>
      rw [substitute_plain, substitute_plain]
      exact .refl _
  | true =>
      have patiently : (run.patient observer).observer = some observer.patient := rfl
      rw [substitute_flagged observed, substitute_flagged patiently]
      exact (interrupts_observe observed _).bind fun _ => .refl _

theorem interrupts_prepare (entity : Entity) :
    Interrupts observer (run.prepare blueprint lineage entity)
      ((run.patient observer).prepare blueprint lineage entity) :=
  .after _ fun linked => interrupts_substitute observed linked.substitutes linked

/-- A write is made ready, and the observer is told of it before it is sent. -/
theorem interrupts_announce {α : Type} (desired : Entity) (moment : Entity → Moment)
    {submit patient : Entity → Plan α}
    (each : ∀ sender, Interrupts observer (submit sender) (patient sender)) :
    Interrupts observer
      (run.prepare blueprint lineage desired >>= fun sender =>
        run.observe (moment sender) >>= fun _ => submit sender)
      ((run.patient observer).prepare blueprint lineage desired >>= fun sender =>
        (run.patient observer).observe (moment sender) >>= fun _ => patient sender) :=
  (interrupts_prepare observed desired).bind fun sender =>
    (interrupts_observe observed (moment sender)).bind fun _ => each sender

theorem interrupts_submitCreate (entity : Entity) (uri : String) :
    Interrupts observer (run.submitCreate blueprint lineage entity uri)
      ((run.patient observer).submitCreate blueprint lineage entity uri) := by
  refine .after _ fun _ => .after _ fun answer => ?_
  cases answer with
  | ok value => exact (interrupts_observe observed _).bind fun _ => .refl _
  | error failure =>
      simp only
      split
      · refine .after (run.recover blueprint lineage entity uri failure) fun found => ?_
        cases found with
        | none => exact .refl _
        | some existing => exact (interrupts_observe observed _).bind fun _ => .refl _
      · exact .refl _

theorem interrupts_create (desired : Entity) :
    Interrupts observer (run.create blueprint lineage desired)
      ((run.patient observer).create blueprint lineage desired) := by
  rw [create, create]
  rw [patient_dry]
  split
  · exact .refl _
  · refine .after _ fun path => .after _ fun uri =>
      interrupts_announce observed desired .beforeCreate fun sender => ?_
    split
    · exact interrupts_submitCreate observed sender uri
    · exact .refl _

theorem interrupts_submitUpdate (entity : Entity) (uri : String) :
    Interrupts observer (run.submitUpdate blueprint entity uri)
      ((run.patient observer).submitUpdate blueprint entity uri) := by
  refine .after _ fun _ => .after _ fun answer => ?_
  cases answer with
  | ok value => exact (interrupts_observe observed _).bind fun _ => .refl _
  | error failure => exact .refl _

theorem interrupts_update (merged : Entity) :
    Interrupts observer (run.update blueprint lineage merged)
      ((run.patient observer).update blueprint lineage merged) := by
  rw [update, update]
  rw [patient_dry]
  split
  · exact .refl _
  · refine .after _ fun path => .after _ fun uri =>
      interrupts_announce observed merged .beforeUpdate fun sender => ?_
    split
    · exact interrupts_submitUpdate observed sender uri
    · exact .refl _

theorem interrupts_settleExisting (desired remote : Entity) (uri : String) :
    Interrupts observer (run.settleExisting blueprint lineage desired remote uri)
      ((run.patient observer).settleExisting blueprint lineage desired remote uri) := by
  rw [settleExisting, settleExisting]
  rw [patient_dry]
  split
  · exact (interrupts_substitute observed desired.substitutes remote).bind fun _ => .refl _
  · split
    · exact .after _ fun known => .after _ fun _ => interrupts_update observed _
    · exact .refl _

theorem interrupts_settleAnswered (desired : Entity) (uri : String) (response : Response) :
    Interrupts observer (run.settleAnswered blueprint lineage desired uri response)
      ((run.patient observer).settleAnswered blueprint lineage desired uri response) := by
  rw [settleAnswered, settleAnswered]
  split
  · split
    · exact .refl _
    · exact (interrupts_settleExisting observed desired _ uri).map some
  · split
    · rw [patient_dry]
      split
      · exact .refl _
      · exact interrupts_create observed desired
    · exact .refl _

theorem interrupts_lookup (desired : Entity) (uri : String) :
    Interrupts observer (run.lookup blueprint lineage desired uri)
      ((run.patient observer).lookup blueprint lineage desired uri) := by
  refine (interrupts_observe observed _).bind fun _ => .after _ fun answer => ?_
  cases answer with
  | error failure => exact .refl _
  | ok response =>
      exact (interrupts_observe observed _).bind fun _ =>
        interrupts_settleAnswered observed desired uri response

/-- **A patient observer sees the same handling to its end.** -/
theorem interrupts_settle (desired : Entity) :
    Interrupts observer (run.settle blueprint lineage desired)
      ((run.patient observer).settle blueprint lineage desired) := by
  refine .after _ fun path => ?_
  cases path with
  | some uri => exact interrupts_lookup observed desired uri
  | none =>
      rw [patient_dry]
      simp only
      split
      · exact .refl _
      · exact interrupts_create observed desired

end

end Run

end DesiredState
