import DesiredState.Proofs.Schedule.Course

/-!
# How plans end

What a plan has done is read off its parts: a sequence of plans has done what the first one did
and then what the second one did, or it came to a stop within the first one
(`Takes.split_bind`). A plan without batches does one thing after another; its course is a list
of events, and which calls go with which value is a relation that can be computed along the
plan (`Sends`).
-/

set_option autoImplicit false

namespace DesiredState

/-! ## Courses one after another -/

namespace Course

/-- The first course and then the second. -/
def append : Course → Course → Course
  | .idle, second => second
  | .act event rest, second => .act event (rest.append second)
  | .fork members rest, second => .fork members (rest.append second)

@[simp] theorem idle_append (second : Course) : idle.append second = second := rfl

@[simp] theorem act_append (event : Event) (rest second : Course) :
    (act event rest).append second = act event (rest.append second) := rfl

@[simp] theorem fork_append (members : List Course) (rest second : Course) :
    (fork members rest).append second = fork members (rest.append second) := rfl

@[simp] theorem after_append (event : Option Event) (first second : Course) :
    (first.after event).append second = (first.append second).after event := by
  cases event <;> rfl

@[simp] theorem append_idle (course : Course) : course.append .idle = course := by
  cases course with
  | idle => rfl
  | act event rest => exact congrArg (act event) (append_idle rest)
  | fork members rest => exact congrArg (fork members) (append_idle rest)

@[simp] theorem ofEvents_nil (rest : Course) : ofEvents [] rest = rest := rfl

@[simp] theorem ofEvents_cons (event : Event) (events : List Event) (rest : Course) :
    ofEvents (event :: events) rest = act event (ofEvents events rest) := rfl

@[simp] theorem ofEvents_append (events : List Event) (first second : Course) :
    (ofEvents events first).append second = ofEvents events (first.append second) := by
  induction events with
  | nil => rfl
  | cons event events ih => rw [ofEvents_cons, act_append, ih, ofEvents_cons]

theorem ofEvents_of_append (events more : List Event) (rest : Course) :
    ofEvents (events ++ more) rest = ofEvents events (ofEvents more rest) := List.foldr_append

/-- Events that come first come first in every order. -/
theorem orders_ofEvents {rest : Course} : ∀ {before events : List Event},
    (ofEvents before rest).Orders events →
      ∃ others, events = before ++ others ∧ rest.Orders others
  | [], events, orders => ⟨events, rfl, orders⟩
  | _ :: before, _, orders => by
      obtain ⟨_, rfl, orders⟩ := orders
      obtain ⟨others, rfl, later⟩ := orders_ofEvents orders
      exact ⟨others, rfl, later⟩

@[simp] theorem inTurn_append (second first : Course) :
    (first.append second).inTurn = first.inTurn ++ second.inTurn := by
  cases first with
  | idle => rfl
  | act event rest => exact congrArg (event :: ·) (inTurn_append second rest)
  | fork members rest =>
      rw [fork_append, inTurn, inTurn, inTurn_append second rest, List.append_assoc]

/-- An order of two courses one after another has an order of the first one in front. -/
theorem orders_append {second : Course} : ∀ {first : Course} {events : List Event},
    (first.append second).Orders events →
      ∃ before later, events = before ++ later ∧ first.Orders before ∧ second.Orders later
  | .idle, events, orders => ⟨[], events, rfl, rfl, orders⟩
  | .act event rest, _, orders => by
      obtain ⟨_, rfl, orders⟩ := orders
      obtain ⟨before, later, rfl, ahead, behind⟩ := orders_append orders
      exact ⟨event :: before, later, rfl, ⟨before, rfl, ahead⟩, behind⟩
  | .fork members rest, _, orders => by
      obtain ⟨theirs, _, rfl, together, orders⟩ := orders
      obtain ⟨before, later, rfl, ahead, behind⟩ := orders_append orders
      exact ⟨theirs ++ before, later, (List.append_assoc _ _ _).symm,
        ⟨theirs, before, rfl, together, ahead⟩, behind⟩

end Course

/-! ## Fates -/

/-- What has become of a task. -/
inductive Fate
  | pending
  | succeeded
  /-- The task failed, or was broken off. -/
  | failed
  deriving DecidableEq

/-- The fate of a task with the given end. -/
def Fate.of {α : Type} : Option (Outcome α) → Fate
  | none => .pending
  | some (.value _) => .succeeded
  | some (.failed _) => .failed
  | some (.broken _) => .failed

@[simp] theorem Fate.of_none {α : Type} : Fate.of (none : Option (Outcome α)) = .pending := rfl

@[simp] theorem Fate.of_value {α : Type} (value : α) :
    Fate.of (some (.value value)) = .succeeded := rfl

@[simp] theorem Fate.of_failed {α : Type} (failure : Failure) :
    Fate.of (some (.failed failure : Outcome α)) = .failed := rfl

@[simp] theorem Fate.of_broken {α : Type} (cause : String) :
    Fate.of (some (.broken cause : Outcome α)) = .failed := rfl

/-- Only a value is a success. -/
theorem Fate.value_of_succeeded {α : Type} {outcome : Option (Outcome α)}
    (well : Fate.of outcome = .succeeded) : ∃ value, outcome = some (.value value) := by
  rcases outcome with _ | value | failure | cause
  · nomatch well
  · exact ⟨value, rfl⟩
  · nomatch well
  · nomatch well

/-! ## Sequences of plans -/

namespace Plan

variable {run : Run} {α β : Type}

namespace Takes

variable {course : Course} {outcome : Outcome α}

theorem of_done {ended : Outcome α} (takes : Takes run (.done ended) course (some outcome)) :
    course = .idle ∧ outcome = ended := by
  cases takes with
  | done => exact ⟨rfl, rfl⟩

theorem of_note {notice : Notice} {next : Plan α}
    (takes : Takes run (.note notice next) course (some outcome)) :
    ∃ rest, course = rest.after (Event.ofNotice? notice) ∧ next.Takes run rest (some outcome) := by
  cases takes with
  | note _ _ rest => exact ⟨_, rfl, rest⟩

theorem of_remember {session : SessionId} {entity : Entity} {next : Plan α}
    (takes : Takes run (.remember session entity next) course (some outcome)) :
    ∃ rest, course = .act (.remembered session entity) rest ∧
      next.Takes run rest (some outcome) := by
  cases takes with
  | remember _ _ _ rest => exact ⟨_, rfl, rest⟩

theorem of_tell_bind {notice : Notice} {continuation : Unit → Plan α}
    (takes : (Plan.tell notice >>= continuation).Takes run course (some outcome)) :
    ∃ rest, course = rest.after (Event.ofNotice? notice) ∧
      (continuation ()).Takes run rest (some outcome) := of_note takes

/-- Log events do not show. -/
theorem of_log_bind {line : LogEvent} {continuation : Unit → Plan α}
    (takes : (Plan.log line >>= continuation).Takes run course (some outcome)) :
    (continuation ()).Takes run course (some outcome) := by
  obtain ⟨rest, rfl, later⟩ := takes.of_tell_bind
  exact later

theorem of_remember_bind {session : SessionId} {entity : Entity} {continuation : Unit → Plan α}
    (takes : (Plan.remember session entity (Pure.pure ()) >>= continuation).Takes run course
      (some outcome)) :
    ∃ rest, course = .act (.remembered session entity) rest ∧
      (continuation ()).Takes run rest (some outcome) := of_remember takes

/-- A note that is under way is told, or nothing has been done. -/
theorem split_note {notice : Notice} {next : Plan α} {ended : Option (Outcome α)}
    (takes : Takes run (.note notice next) course ended) :
    (course = .idle ∧ ended = none) ∨
      ∃ rest, course = rest.after (Event.ofNotice? notice) ∧ next.Takes run rest ended := by
  cases takes with
  | pause => exact .inl ⟨rfl, rfl⟩
  | note _ _ rest => exact .inr ⟨_, rfl, rest⟩

/-- What is logged does not show, so the plan may as well be about to go on. -/
theorem of_log_bind_any {line : LogEvent} {continuation : Unit → Plan α}
    {ended : Option (Outcome α)}
    (takes : (Plan.log line >>= continuation).Takes run course ended) :
    (continuation ()).Takes run course ended := by
  rcases split_note takes with ⟨rfl, rfl⟩ | ⟨rest, rfl, later⟩
  · exact .pause _
  · exact later

/-- **A sequence of plans has come to a stop within the first one, or has done what the first one
did to get to its value, and then what the second one did.** -/
theorem split_bind {continuation : α → Plan β} {ended : Option (Outcome β)} {plan : Plan α} :
    ∀ {course : Course}, (plan.bind continuation).Takes run course ended →
      (∃ middle first second, course = first.append second ∧
        plan.Takes run first (some (.value middle)) ∧
        (continuation middle).Takes run second ended) ∨
      ∃ stop, plan.Takes run course stop ∧ Fate.of stop = Fate.of ended ∧
        Fate.of stop ≠ .succeeded := by
  induction plan with
  | done outcome =>
      intro course takes
      cases outcome with
      | value middle => exact .inl ⟨middle, .idle, course, rfl, .done _, takes⟩
      | failed failure =>
          cases takes with
          | pause => exact .inr ⟨none, .pause _, rfl, nofun⟩
          | done => exact .inr ⟨_, .done _, rfl, nofun⟩
      | broken cause =>
          cases takes with
          | pause => exact .inr ⟨none, .pause _, rfl, nofun⟩
          | done => exact .inr ⟨_, .done _, rfl, nofun⟩
  | call request next ih =>
      intro course takes
      cases takes with
      | pause => exact .inr ⟨none, .pause _, rfl, nofun⟩
      | call _ exchange _ rest =>
          rcases ih exchange rest with ⟨middle, first, second, rfl, before, after⟩ |
            ⟨stop, stops, same, short⟩
          · exact .inl ⟨middle, _, second, rfl, .call request exchange next before, after⟩
          · exact .inr ⟨stop, .call request exchange next stops, same, short⟩
  | note notice next ih =>
      intro course takes
      rcases split_note takes with ⟨rfl, rfl⟩ | ⟨rest, rfl, later⟩
      · exact .inr ⟨none, .pause _, rfl, nofun⟩
      · rcases ih later with ⟨middle, first, second, rfl, before, after⟩ |
          ⟨stop, stops, same, short⟩
        · exact .inl ⟨middle, _, second, (Course.after_append _ first second).symm,
            .note notice next before, after⟩
        · exact .inr ⟨stop, .note notice next stops, same, short⟩
  | remember session entity next ih =>
      intro course takes
      cases takes with
      | pause => exact .inr ⟨none, .pause _, rfl, nofun⟩
      | remember _ _ _ rest =>
          rcases ih rest with ⟨middle, first, second, rfl, before, after⟩ |
            ⟨stop, stops, same, short⟩
          · exact .inl ⟨middle, _, second, rfl, .remember session entity next before, after⟩
          · exact .inr ⟨stop, .remember session entity next stops, same, short⟩
  | «recall» session entity next ih =>
      intro course takes
      cases takes with
      | pause => exact .inr ⟨none, .pause _, rfl, nofun⟩
      | «recall» _ _ known _ rest =>
          rcases ih known rest with ⟨middle, first, second, rfl, before, after⟩ |
            ⟨stop, stops, same, short⟩
          · exact .inl ⟨middle, _, second, rfl, .recall session entity known next before, after⟩
          · exact .inr ⟨stop, .recall session entity known next stops, same, short⟩
  | batch group next ih =>
      intro course takes
      cases takes with
      | pause => exact .inr ⟨none, .pause _, rfl, nofun⟩
      | skip _ _ nobody rest =>
          rcases ih _ rest with ⟨middle, first, second, rfl, before, after⟩ |
            ⟨stop, stops, same, short⟩
          · exact .inl ⟨middle, first, second, rfl, .skip group next nobody before, after⟩
          · exact .inr ⟨stop, .skip group next nobody stops, same, short⟩
      | fork _ _ parts whole each =>
          exact .inr ⟨none, .fork group next parts whole each, rfl, nofun⟩
      | join _ _ parts failures whole each through told rest =>
          rcases ih _ rest with ⟨middle, first, second, rfl, before, after⟩ |
            ⟨stop, stops, same, short⟩
          · exact .inl ⟨middle, _, second, rfl,
              .join group next parts failures whole each through told before, after⟩
          · exact .inr ⟨stop, .join group next parts failures whole each through told stops, same,
              short⟩
      | giveUp _ _ parts failures whole each rest =>
          rcases ih _ rest with ⟨middle, first, second, rfl, before, after⟩ |
            ⟨stop, stops, same, short⟩
          · exact .inl ⟨middle, _, second, rfl,
              .giveUp group next parts failures whole each before, after⟩
          · exact .inr ⟨stop, .giveUp group next parts failures whole each stops, same, short⟩

/-- A task that has got somewhere may have got no further. -/
theorem paused {plan : Plan α} {ended : Option (Outcome α)} (takes : plan.Takes run course ended) :
    plan.Takes run course none := by
  induction takes with
  | pause plan => exact .pause plan
  | done outcome => exact .pause _
  | call request exchange next _ ih => exact .call request exchange next ih
  | note notice next _ ih => exact .note notice next ih
  | remember session entity next _ ih => exact .remember session entity next ih
  | «recall» session entity known next _ ih => exact .recall session entity known next ih
  | skip group next nobody _ ih => exact .skip group next nobody ih
  | fork group next parts whole each _ => exact .fork group next parts whole each
  | join group next parts failures whole each through told _ _ ih =>
      exact .join group next parts failures whole each through told ih
  | giveUp group next parts failures whole each _ _ ih =>
      exact .giveUp group next parts failures whole each ih

/-- A plan that says what is done has done nothing else. -/
theorem of_pure {value : α} {ended : Option (Outcome α)}
    (takes : (Pure.pure value : Plan α).Takes run course ended) :
    course = .idle ∧ Fate.of ended ≠ .failed ∧ (ended = none ∨ ended = some (.value value)) := by
  cases takes with
  | pause => exact ⟨rfl, nofun, .inl rfl⟩
  | done => exact ⟨rfl, nofun, .inr rfl⟩

/-- A plan that fails does nothing, and has no value. -/
theorem of_fail {failure : Failure} {ended : Option (Outcome α)}
    (takes : (Plan.fail failure : Plan α).Takes run course ended) :
    course = .idle ∧ Fate.of ended ≠ .succeeded := by
  cases takes with
  | pause => exact ⟨rfl, nofun⟩
  | done => exact ⟨rfl, nofun⟩

/-- A sequence of plans that ends with a value has done what its parts have done. -/
theorem of_bind {continuation : α → Plan β} {value : β} {plan : Plan α} {course : Course}
    (takes : (plan.bind continuation).Takes run course (some (.value value))) :
    ∃ middle first second, course = first.append second ∧
      plan.Takes run first (some (.value middle)) ∧
      (continuation middle).Takes run second (some (.value value)) := by
  rcases split_bind takes with goesOn | ⟨stop, _, same, short⟩
  · exact goesOn
  · exact absurd same short

/-- A plan after which nothing more happens has got as far as the whole. -/
theorem of_bind_pure {plan : Plan α} {continuation : α → Plan β} {ended : Option (Outcome β)}
    (ends : ∀ value, ∃ result, continuation value = Pure.pure result)
    (takes : (plan.bind continuation).Takes run course ended) :
    ∃ stop, plan.Takes run course stop ∧ Fate.of stop = Fate.of ended := by
  rcases takes.split_bind with ⟨middle, _, _, rfl, before, after⟩ | ⟨stop, stops, same, _⟩
  · obtain ⟨result, pure⟩ := ends middle
    rw [pure] at after
    obtain ⟨rfl, _, rfl | rfl⟩ := after.of_pure
    · exact ⟨none, by simpa using before.paused, rfl⟩
    · exact ⟨_, by simpa using before, rfl⟩
  · exact ⟨stop, stops, same⟩

end Takes

/-! ## Plans without batches -/

/-- Whether a plan keeps to one entity: it begins no other one and handles no batch. It asks for
known states only if it may. -/
def Solitary (recalls : Prop) : Plan α → Prop
  | .done _ => True
  | .call _ next => ∀ exchange, (next exchange).Solitary recalls
  | .note (.begun _) _ => False
  | .note (.moment _) next => next.Solitary recalls
  | .note (.report _) next => next.Solitary recalls
  | .note (.event _) next => next.Solitary recalls
  | .remember _ _ next => next.Solitary recalls
  | .recall _ _ next => recalls ∧ ∀ known, (next known).Solitary recalls
  | .batch _ _ => False

/-- The plan can end with the value after the calls; no batch is handled. -/
def Sends : Plan α → List Call → α → Prop
  | .done (.value ended), sent, value => sent = [] ∧ value = ended
  | .done (.failed _), _, _ => False
  | .done (.broken _), _, _ => False
  | .call request next, sent, value =>
      ∃ exchange rest, sent = ⟨request, exchange⟩ :: rest ∧ (next exchange).Sends rest value
  | .note _ next, sent, value => next.Sends sent value
  | .remember _ _ next, sent, value => next.Sends sent value
  | .recall _ _ next, sent, value => ∃ known, (next known).Sends sent value
  | .batch _ _, _, _ => False

namespace Solitary

variable {recalls : Prop}

@[simp] theorem done (outcome : Outcome α) : (Plan.done outcome).Solitary recalls := trivial

@[simp] theorem pure (value : α) : (Pure.pure value : Plan α).Solitary recalls := trivial

@[simp] theorem log (event : LogEvent) : (Plan.log event).Solitary recalls := trivial

@[simp] theorem moment (moment : Moment) : (Plan.tell (.moment moment)).Solitary recalls := trivial

@[simp] theorem report (report : Report) : (Plan.tell (.report report)).Solitary recalls := trivial

@[simp] theorem fail (failure : Failure) : (Plan.fail failure : Plan α).Solitary recalls := trivial

theorem bind {continuation : α → Plan β} : ∀ {plan : Plan α}, plan.Solitary recalls →
    (∀ value, (continuation value).Solitary recalls) → (plan >>= continuation).Solitary recalls
  | .done (.value value), _, after => after value
  | .done (.failed _), _, _ => trivial
  | .done (.broken _), _, _ => trivial
  | .call _ _, before, after => fun exchange => bind (before exchange) after
  | .note (.begun _) _, before, _ => before.elim
  | .note (.moment _) next, before, after =>
      (bind before after : (next >>= continuation).Solitary recalls)
  | .note (.report _) next, before, after =>
      (bind before after : (next >>= continuation).Solitary recalls)
  | .note (.event _) next, before, after =>
      (bind before after : (next >>= continuation).Solitary recalls)
  | .remember _ _ next, before, after =>
      (bind before after : (next >>= continuation).Solitary recalls)
  | .recall _ _ _, before, after => ⟨before.1, fun known => bind (before.2 known) after⟩
  | .batch _ _, before, _ => before.elim

theorem of_note {notice : Notice} {next : Plan α}
    (solitary : (Plan.note notice next).Solitary recalls) :
    next.Solitary recalls := by
  cases notice with
  | begun visit => exact solitary.elim
  | moment moment => exact solitary
  | report report => exact solitary
  | event line => exact solitary

end Solitary

/-- A task that keeps to one entity does one thing after another, wherever it stops. -/
theorem Takes.of_solitary {recalls : Prop} {plan : Plan α} (solitary : plan.Solitary recalls)
    {ended : Option (Outcome α)} :
    ∀ {course : Course}, plan.Takes run course ended →
      ∃ events, course = Course.ofEvents events .idle ∧ visits events = [] ∧
        .gaveUp ∉ events := by
  induction plan with
  | done outcome =>
      intro course takes
      cases takes <;> exact ⟨[], rfl, rfl, List.not_mem_nil⟩
  | call request next ih =>
      intro course takes
      cases takes with
      | pause => exact ⟨[], rfl, rfl, List.not_mem_nil⟩
      | call _ exchange _ rest =>
          obtain ⟨events, rfl, nobody, calm⟩ := ih exchange (solitary exchange) rest
          exact ⟨.called ⟨request, exchange⟩ :: events, rfl, nobody, by simpa using calm⟩
  | note notice next ih =>
      intro course takes
      rcases takes.split_note with ⟨rfl, _⟩ | ⟨rest, rfl, later⟩
      · exact ⟨[], rfl, rfl, List.not_mem_nil⟩
      · obtain ⟨events, rfl, nobody, calm⟩ := ih solitary.of_note later
        cases notice with
        | begun visit => exact solitary.elim
        | moment moment =>
            exact ⟨.told (.moment moment) :: events, rfl, nobody, by simpa using calm⟩
        | report report =>
            exact ⟨.told (.report report) :: events, rfl, nobody, by simpa using calm⟩
        | event line => exact ⟨events, rfl, nobody, calm⟩
  | remember session entity next ih =>
      intro course takes
      cases takes with
      | pause => exact ⟨[], rfl, rfl, List.not_mem_nil⟩
      | remember _ _ _ rest =>
          obtain ⟨events, rfl, nobody, calm⟩ := ih solitary rest
          exact ⟨.remembered session entity :: events, rfl, nobody, by simpa using calm⟩
  | «recall» session entity next ih =>
      intro course takes
      cases takes with
      | pause => exact ⟨[], rfl, rfl, List.not_mem_nil⟩
      | «recall» _ _ known _ rest =>
          obtain ⟨events, rfl, nobody, calm⟩ := ih known (solitary.2 known) rest
          exact ⟨.recalled session entity known :: events, rfl, nobody, by simpa using calm⟩
  | batch group next ih => exact solitary.elim

/-- A task that keeps to one entity and ends with a value has done one thing after another. -/
theorem Takes.sends {recalls : Prop} {plan : Plan α} (solitary : plan.Solitary recalls)
    {value : α} :
    ∀ {course : Course}, plan.Takes run course (some (.value value)) →
      ∃ events, course = Course.ofEvents events .idle ∧ visits events = [] ∧ .gaveUp ∉ events ∧
        plan.Sends (calls events) value := by
  induction plan with
  | done ended =>
      intro course takes
      obtain ⟨rfl, rfl⟩ := takes.of_done
      exact ⟨[], rfl, rfl, List.not_mem_nil, rfl, rfl⟩
  | call request next ih =>
      intro course takes
      cases takes with
      | call _ exchange _ rest =>
          obtain ⟨events, rfl, nobody, calm, sends⟩ := ih exchange (solitary exchange) rest
          exact ⟨.called ⟨request, exchange⟩ :: events, rfl, nobody, by simpa using calm, exchange,
            _, rfl, sends⟩
  | note notice next ih =>
      intro course takes
      obtain ⟨rest, rfl, later⟩ := takes.of_note
      obtain ⟨events, rfl, nobody, calm, sends⟩ := ih solitary.of_note later
      cases notice with
      | begun visit => exact solitary.elim
      | moment moment =>
          exact ⟨.told (.moment moment) :: events, rfl, nobody, by simpa using calm, sends⟩
      | report report =>
          exact ⟨.told (.report report) :: events, rfl, nobody, by simpa using calm, sends⟩
      | event line => exact ⟨events, rfl, nobody, calm, sends⟩
  | remember session entity next ih =>
      intro course takes
      obtain ⟨rest, rfl, later⟩ := takes.of_remember
      obtain ⟨events, rfl, nobody, calm, sends⟩ := ih solitary later
      exact ⟨.remembered session entity :: events, rfl, nobody, by simpa using calm, sends⟩
  | «recall» session entity next ih =>
      intro course takes
      cases takes with
      | «recall» _ _ known _ rest =>
          obtain ⟨events, rfl, nobody, calm, sends⟩ := ih known (solitary.2 known) rest
          exact ⟨.recalled session entity known :: events, rfl, nobody, by simpa using calm, known,
            sends⟩
  | batch group next ih => exact solitary.elim

/-- The calls among the events of a task that keeps to one entity go with its value. -/
theorem Takes.sends_own {recalls : Prop} {plan : Plan α} (solitary : plan.Solitary recalls)
    {own : List Event} {value : α}
    (takes : plan.Takes run (.ofEvents own .idle) (some (.value value))) :
    plan.Sends (calls own) value := by
  obtain ⟨events, same, _, _, sends⟩ := takes.sends solitary
  have inTurn := congrArg Course.inTurn same
  rw [Course.inTurn_ofEvents, Course.inTurn_ofEvents, Course.inTurn_idle, List.append_nil,
    List.append_nil] at inTurn
  rwa [inTurn]

section Sends

variable {sent : List Call}

@[simp] theorem sends_pure {ended value : α} :
    (Pure.pure ended : Plan α).Sends sent value ↔ sent = [] ∧ value = ended := Iff.rfl

@[simp] theorem sends_fail {failure : Failure} {value : α} :
    ¬ (Plan.fail failure : Plan α).Sends sent value := id

@[simp] theorem sends_log {line : LogEvent} {value : Unit} :
    (Plan.log line).Sends sent value ↔ sent = [] := ⟨fun sends => sends.1, fun none => ⟨none, rfl⟩⟩

@[simp] theorem sends_tell {notice : Notice} {value : Unit} :
    (Plan.tell notice).Sends sent value ↔ sent = [] :=
  ⟨fun sends => sends.1, fun none => ⟨none, rfl⟩⟩

/-- The calls of a sequence are those of its parts. -/
theorem sends_bind {continuation : α → Plan β} {value : β} {plan : Plan α} :
    ∀ {sent : List Call}, (plan >>= continuation).Sends sent value ↔
      ∃ middle first second, sent = first ++ second ∧ plan.Sends first middle ∧
        (continuation middle).Sends second value := by
  change ∀ {sent : List Call}, (plan.bind continuation).Sends sent value ↔ _
  induction plan with
  | done ended =>
      intro sent
      cases ended with
      | value middle => simp [bind, Sends]
      | failed failure => simp [bind, Sends]
      | broken cause => simp [bind, Sends]
  | call request next ih =>
      intro sent
      simp only [bind, Sends, ih]
      constructor
      · rintro ⟨exchange, _, rfl, middle, first, second, rfl, before, after⟩
        exact ⟨middle, _, second, rfl, ⟨exchange, first, rfl, before⟩, after⟩
      · rintro ⟨middle, _, second, rfl, ⟨exchange, first, rfl, before⟩, after⟩
        exact ⟨exchange, _, rfl, middle, first, second, rfl, before, after⟩
  | note notice next ih => exact ih
  | remember session entity next ih => exact ih
  | «recall» session entity next ih =>
      intro sent
      simp only [bind, Sends, ih]
      constructor
      · rintro ⟨known, middle, first, second, rfl, before, after⟩
        exact ⟨middle, first, second, rfl, ⟨known, before⟩, after⟩
      · rintro ⟨middle, first, second, rfl, ⟨known, before⟩, after⟩
        exact ⟨known, middle, first, second, rfl, before, after⟩
  | batch group next ih =>
      intro sent
      simp [bind, Sends]

@[simp] theorem sends_map {transform : α → β} {value : β} {plan : Plan α} :
    (transform <$> plan).Sends sent value ↔
      ∃ ended, plan.Sends sent ended ∧ value = transform ended := by
  rw [map_eq_pure_bind, sends_bind]
  constructor
  · rintro ⟨ended, first, second, rfl, sends, rfl, rfl⟩
    exact ⟨ended, by simpa using sends, rfl⟩
  · rintro ⟨ended, sends, rfl⟩
    exact ⟨ended, sent, [], by simp, sends, rfl, rfl⟩

/-- Log events are no calls. -/
@[simp] theorem sends_log_bind {line : LogEvent} {continuation : Unit → Plan β} {value : β} :
    (Plan.log line >>= continuation).Sends sent value ↔
      (continuation ()).Sends sent value := Iff.rfl

end Sends

end Plan

end DesiredState
