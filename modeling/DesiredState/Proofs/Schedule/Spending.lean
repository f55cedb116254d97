import DesiredState.Engine

/-!
# Enough steps

A run is given a number of steps in which it has to come to its end. If it is known what the
handling of each child costs, then it is known how many steps are enough (`Engine.execute_ends`),
whatever is answered and however late.

**Prices.** A plan spends one on each request, one on each batch, and on each child that it hands
out the price of the child and two more, for its start and its end. What it tells or remembers
costs nothing, since a task goes on after it in the same turn. A tariff has a price for each child
of the batches that it covers (`Tariff`).

**Turns.** No turn makes a task more expensive. It saves one at least for each place that it makes
ready, and one in any case if something was due there (`Stage.turnAt_saves`).

**The clock.** While no place is ready, the clock is set to a time at which something is due. There
are no more such places than what is left to be spent, and the first of their turns saves something.
Turns that come too late, for a member of a batch that was given up before, save nothing, and that
is why a square of the amount is needed and not a multiple.
-/

set_option autoImplicit false

namespace DesiredState

/-- Prices of the children that are handed out. -/
structure Tariff where
  covers : Batch → Prop
  price : Entity → Nat

variable {σ α β : Type} {tariff : Tariff} {run : Run}

/-! ## What is spent -/

/-- What is spent on children that have not been started. -/
def Tariff.charge (tariff : Tariff) : List Entity → Nat
  | [] => 0
  | child :: rest => tariff.price child + 2 + tariff.charge rest

/-- Whatever is answered, the plan spends no more than the amount, given the prices of children. -/
def Plan.Spends (tariff : Tariff) : Plan α → Nat → Prop
  | .done _, _ => True
  | .call _ next, amount => ∃ rest, rest < amount ∧ ∀ exchange, (next exchange).Spends tariff rest
  | .note _ next, amount => next.Spends tariff amount
  | .remember _ _ next, amount => next.Spends tariff amount
  | .recall _ _ next, amount => ∀ known, (next known).Spends tariff amount
  | .batch group next, amount => tariff.covers group ∧ ∃ rest,
      tariff.charge group.children + 1 + rest ≤ amount ∧ ∀ result, (next result).Spends tariff rest

namespace Plan.Spends

variable {plan : Plan α} {amount : Nat}

@[simp] theorem pure (value : α) : (Pure.pure value : Plan α).Spends tariff amount := trivial

@[simp] theorem fail (failure : Failure) : (Plan.fail failure : Plan α).Spends tariff amount :=
  trivial

theorem mono {more : Nat} (spends : plan.Spends tariff amount) (less : amount ≤ more) :
    plan.Spends tariff more := by
  induction plan with
  | done outcome => exact trivial
  | call request next _ =>
      obtain ⟨rest, enough, after⟩ := spends
      exact ⟨rest, Nat.lt_of_lt_of_le enough less, after⟩
  | note notice next ih => exact ih spends
  | remember session entity next ih => exact ih spends
  | «recall» session entity next ih => exact fun known => ih known (spends known)
  | batch group next _ =>
      obtain ⟨covers, rest, enough, after⟩ := spends
      exact ⟨covers, rest, Nat.le_trans enough less, after⟩

/-- A sequence spends what its parts spend. -/
theorem bind {continuation : α → Plan β} {rest : Nat} (first : plan.Spends tariff amount)
    (after : ∀ value, (continuation value).Spends tariff rest) :
    (plan >>= continuation).Spends tariff (amount + rest) := by
  change (plan.bind continuation).Spends tariff (amount + rest)
  induction plan generalizing amount with
  | done outcome =>
      cases outcome with
      | value value => exact (after value).mono (Nat.le_add_left _ _)
      | failed failure => exact trivial
      | broken cause => exact trivial
  | call request next ih =>
      obtain ⟨left, enough, goesOn⟩ := first
      exact ⟨left + rest, by omega, fun exchange => ih exchange (goesOn exchange)⟩
  | note notice next ih => exact ih first
  | remember session entity next ih => exact ih first
  | «recall» session entity next ih => exact fun known => ih known (first known)
  | batch group next ih =>
      obtain ⟨covers, left, enough, goesOn⟩ := first
      exact ⟨covers, left + rest, by omega, fun result => ih result (goesOn result)⟩

end Plan.Spends

/-- The children of the covered batches of a run spend no more than their prices. -/
def Tariff.Suits (tariff : Tariff) (run : Run) : Prop :=
  ∀ batch child, tariff.covers batch →
    (run.childTask batch child).Spends tariff (tariff.price child)

mutual

/-- A task under way and the tasks of its crew spend no more than the amount. -/
inductive Stage.Spends (tariff : Tariff) : {α : Type} → Stage ChildTask α → Nat → Prop
  | active {α : Type} {plan : Plan α} {rest amount : Nat} (spends : plan.Spends tariff rest)
      (enough : rest < amount) : Stage.Spends tariff (.active plan) amount
  | asleep {α : Type} {wake : Nat} {plan : Plan α} {rest amount : Nat}
      (spends : plan.Spends tariff rest) (enough : rest < amount) :
      Stage.Spends tariff (.asleep wake plan) amount
  | leading {α : Type} {crew : Crew ChildTask} {next : BatchResult → Plan α}
      {below rest amount : Nat} (covers : tariff.covers crew.batch)
      (members : MembersSpend tariff crew.members below)
      (after : ∀ result, (next result).Spends tariff rest)
      (enough : below + tariff.charge crew.waiting + rest < amount) :
      Stage.Spends tariff (.leading crew next) amount
  | finished {α : Type} (outcome : Outcome α) (amount : Nat) :
      Stage.Spends tariff (.finished outcome) amount

/-- The members of a crew together spend no more than the amount. -/
inductive MembersSpend (tariff : Tariff) : List (Member ChildTask) → Nat → Prop
  | nil (amount : Nat) : MembersSpend tariff [] amount
  | cons {member : Member ChildTask} {members : List (Member ChildTask)} {own others amount : Nat}
      (spends : Stage.Spends tariff member.task.stage own)
      (rest : MembersSpend tariff members others) (enough : own + others ≤ amount) :
      MembersSpend tariff (member :: members) amount

end

/-- A task that has not ended has something to spend. -/
theorem Stage.Spends.pos {stage : Stage ChildTask α} {amount : Nat}
    (spends : stage.Spends tariff amount) (unfinished : stage.isOver = false) : 0 < amount := by
  cases spends with
  | active _ enough => exact Nat.zero_lt_of_lt enough
  | asleep _ enough => exact Nat.zero_lt_of_lt enough
  | leading _ _ _ enough => exact Nat.zero_lt_of_lt enough
  | finished outcome => cases unfinished

theorem Stage.Spends.of_isOver {stage : Stage ChildTask α} (through : stage.isOver = true) :
    stage.Spends tariff 0 := by
  cases stage with
  | finished outcome => exact .finished outcome 0
  | _ => cases through

/-- What is left to be spent after a turn, with one for each place that it has made ready, is within
the amount; and if something was due, it is less even without them. -/
def Turn.Saves (tariff : Tariff) (due : Prop) (turn : Turn σ α) (amount : Nat) : Prop :=
  ∃ rest, turn.stage.Spends tariff rest ∧ rest + turn.ready.length ≤ amount ∧ (due → rest < amount)

theorem Turn.Saves.mono {due later : Prop} {turn : Turn σ α} {rest amount : Nat}
    (saves : turn.Saves tariff due rest) (less : rest ≤ amount) (sooner : later → due) :
    turn.Saves tariff later amount := by
  obtain ⟨left, spends, enough, strictly⟩ := saves
  exact ⟨left, spends, Nat.le_trans enough less,
    fun given => Nat.lt_of_lt_of_le (strictly (sooner given)) less⟩

/-- Where less was to be spent than the amount, something is saved in any case. -/
theorem Turn.Saves.of_lt {due : Prop} {turn : Turn σ α} {rest amount : Nat}
    (saves : turn.Saves tariff False rest) (less : rest < amount) :
    turn.Saves tariff due amount := by
  obtain ⟨left, spends, enough, _⟩ := saves
  exact ⟨left, spends, by omega, fun _ => by omega⟩

/-- A turn that leaves everything as it is saves nothing. -/
theorem Turn.Saves.idle {due : Prop} {stage : Stage ChildTask α} {amount : Nat}
    (spends : stage.Spends tariff amount) (none : ¬ due) (world : World σ) :
    Turn.Saves tariff due ⟨stage, world, []⟩ amount :=
  ⟨amount, spends, Nat.le_refl _, fun given => absurd given none⟩

/-! ## Crews -/

theorem Tariff.charge_eq (tariff : Tariff) (children : List Entity) (count : Nat) :
    tariff.charge children
      = tariff.charge (children.take count) + tariff.charge (children.drop count) := by
  induction children generalizing count with
  | nil => simp [charge]
  | cons child children ih =>
      cases count with
      | zero => simp [charge]
      | succ count =>
          rw [List.take_succ_cons, List.drop_succ_cons, charge, charge, ih count]
          omega

namespace MembersSpend

variable {members : List (Member ChildTask)} {amount : Nat}

theorem mono {more : Nat} (spends : MembersSpend tariff members amount) (less : amount ≤ more) :
    MembersSpend tariff members more := by
  cases spends with
  | nil => exact .nil more
  | cons spends rest enough => exact .cons spends rest (Nat.le_trans enough less)

theorem append {others : List (Member ChildTask)} {more : Nat}
    (spends : MembersSpend tariff members amount) (also : MembersSpend tariff others more) :
    MembersSpend tariff (members ++ others) (amount + more) := by
  induction members generalizing amount with
  | nil => exact also.mono (Nat.le_add_left _ _)
  | cons member members ih =>
      cases spends with
      | cons spends rest enough => exact .cons spends (ih rest) (by omega)

/-- A member spends its own share, and may be replaced by one that spends another. -/
theorem share {index : Nat} {member : Member ChildTask}
    (spends : MembersSpend tariff members amount) (found : members[index]? = some member) :
    ∃ own others, own + others ≤ amount ∧ member.task.stage.Spends tariff own ∧
      ∀ {moved : Member ChildTask} {other : Nat}, moved.task.stage.Spends tariff other →
        MembersSpend tariff (members.set index moved) (other + others) := by
  induction members generalizing index amount with
  | nil => cases found
  | cons first members ih =>
      cases spends with
      | @cons _ _ own others _ spends rest enough =>
          cases index with
          | zero =>
              cases found
              exact ⟨own, others, enough, spends, fun moved => .cons moved rest (Nat.le_refl _)⟩
          | succ index =>
              obtain ⟨mine, left, within, here, replace⟩ := ih rest found
              refine ⟨mine, own + left, by omega, here, fun {_ other} moved => ?_⟩
              exact .cons spends (replace moved) (by omega)

/-- Children that are started spend their prices, and one for their first turn. -/
theorem enlist (suits : tariff.Suits run) {batch : Batch} (covers : tariff.covers batch)
    (children : List Entity) :
    ∃ amount, MembersSpend tariff (children.map (Crew.enlist run batch)) amount ∧
      amount + children.length = tariff.charge children := by
  induction children with
  | nil => exact ⟨0, .nil 0, rfl⟩
  | cons child children ih =>
      obtain ⟨amount, spends, total⟩ := ih
      have first : (Crew.enlist run batch child).task.stage.Spends tariff
          (tariff.price child + 1) := .active (suits batch child covers) (Nat.lt_succ_self _)
      refine ⟨tariff.price child + 1 + amount, .cons first spends (Nat.le_refl _), ?_⟩
      rw [Tariff.charge, ← total, List.length_cons]
      omega

end MembersSpend

namespace Crew

variable {crew : Crew ChildTask} {next : BatchResult → Plan α} {amount : Nat}

/-- To start children saves one for each of them. -/
theorem start_spends (suits : tariff.Suits run)
    (spends : (Stage.leading crew next).Spends tariff amount) :
    ∃ rest, (Stage.leading (crew.start run) next).Spends tariff rest ∧
      rest + ((crew.start run).members.length - crew.members.length) ≤ amount := by
  cases spends with
  | @leading _ _ _ below left _ covers members after enough =>
      generalize free : crew.permits - crew.working = count
      obtain ⟨own, started, total⟩ :=
        MembersSpend.enlist suits covers (crew.waiting.take count)
      have whole := tariff.charge_eq crew.waiting count
      refine ⟨below + own + tariff.charge (crew.waiting.drop count) + left + 1,
        @Stage.Spends.leading _ _ _ _ (below + own) left _ covers ?_ after ?_, ?_⟩
      · simp only [start, free]
        exact members.append started
      · simp only [start, free]
        omega
      · simp only [start, free, List.length_append, List.length_map]
        omega

theorem gather_spends (spends : (Stage.leading crew next).Spends tariff amount) :
    (Stage.leading crew.gather next).Spends tariff amount := by
  unfold gather
  split
  · cases spends with
    | leading covers members after enough => exact .leading covers members after enough
  · exact spends

end Crew

/-! ## Turns -/

section Turns

variable {server : Server σ} {now : Nat} {amount : Nat}

/-- A task that acts makes no more places ready than it saves. -/
theorem Plan.act_saves (suits : tariff.Suits run) {plan : Plan α} (world : World σ)
    (spends : plan.Spends tariff amount) :
    (plan.act run server now world).Saves tariff False amount := by
  induction plan generalizing world amount with
  | done outcome => exact ⟨0, .finished outcome 0, Nat.zero_le _, False.elim⟩
  | call request next ih =>
      obtain ⟨rest, less, after⟩ := spends
      simp only [act]
      split
      · exact (ih _ _ (after _)).mono (Nat.le_of_lt less) id
      · exact ⟨rest + 1, .asleep (after _) (Nat.lt_succ_self _), less, False.elim⟩
  | note notice next ih => exact ih _ spends
  | remember session entity next ih => exact ih _ spends
  | «recall» session entity next ih => exact ih _ _ (spends _)
  | batch group next ih =>
      obtain ⟨covers, rest, enough, after⟩ := spends
      have less : rest ≤ amount := by omega
      simp only [act]
      split
      · exact (ih _ _ (after _)).mono less id
      · split
        · exact (ih _ _ (after _)).mono less id
        · have assembled : (Stage.leading (Crew.assemble run now group) next).Spends tariff
              amount := .leading covers (.nil 0) after (by simpa [Crew.assemble] using by omega)
          obtain ⟨left, spends, saved⟩ := Crew.start_spends suits assembled
          exact ⟨left, spends, by simpa [Crew.assemble] using saved, False.elim⟩

/-- A leader makes no more places ready than it saves, and saves something if its time is up. -/
theorem Crew.lead_saves (suits : tariff.Suits run) {crew : Crew ChildTask}
    {next : BatchResult → Plan α} (world : World σ)
    (spends : (Stage.leading crew next).Spends tariff amount) :
    (crew.lead run server now next world).Saves tariff (crew.deadline ≤ now) amount := by
  obtain ⟨left, started, saved⟩ := start_spends suits spends
  have gathered := gather_spends started
  have deadline : (crew.start run).gather.deadline = crew.deadline := by
    unfold gather
    split <;> rfl
  have onward : ∀ (result : BatchResult) (world : World σ),
      ((next result).act run server now world).Saves tariff (crew.deadline ≤ now) amount := by
    intro result world
    cases spends with
    | leading _ _ after enough => exact (Plan.act_saves suits world (after result)).of_lt (by omega)
  simp only [lead]
  split
  · exact onward _ _
  · split
    · exact onward _ _
    · rename_i early
      rw [deadline] at early
      exact ⟨left, gathered, by simpa using saved, fun late => absurd late early⟩

/-! ### Places -/

theorem ChildTask.due_eq (now : Nat) (task : ChildTask) : task.due now = task.stage.due now := by
  obtain ⟨stage⟩ := task
  cases stage <;> rfl

/-- A place where something is due in a crew leads to a member with something due. -/
theorem of_mem_membersDue {place : Address} :
    ∀ {members : List (Member ChildTask)} {start : Nat}, place ∈ membersDue now start members →
      ∃ index member rest, place = (start + index) :: rest ∧ members[index]? = some member ∧
        rest ∈ member.task.stage.due now
  | [], _, due => by cases due
  | ⟨label, task⟩ :: members, start, due => by
      rcases List.mem_append.mp due with here | later
      · obtain ⟨rest, inside, rfl⟩ := List.mem_map.mp here
        rw [ChildTask.due_eq] at inside
        exact ⟨0, _, rest, rfl, rfl, inside⟩
      · obtain ⟨index, member, rest, rfl, found, inside⟩ := of_mem_membersDue later
        exact ⟨index + 1, member, rest, by rw [Nat.add_right_comm]; rfl, found, inside⟩

/-- Something is due at a leader itself only when its time is up. -/
theorem Stage.nil_mem_due {crew : Crew ChildTask} {next : BatchResult → Plan α}
    (due : [] ∈ (Stage.leading crew next).due now) : crew.deadline ≤ now := by
  rcases List.mem_append.mp due with own | below
  · split at own
    · assumption
    · cases own
  · obtain ⟨_, _, _, same, _⟩ := of_mem_membersDue below
    cases same

/-- What is due below a leader is due at one of its members. -/
theorem Stage.cons_mem_due {crew : Crew ChildTask} {next : BatchResult → Plan α} {index : Nat}
    {rest : Address} (due : index :: rest ∈ (Stage.leading crew next).due now) :
    ∃ member, crew.members[index]? = some member ∧ rest ∈ member.task.stage.due now := by
  rcases List.mem_append.mp due with own | below
  · split at own
    · cases List.mem_singleton.mp own
    · cases own
  · obtain ⟨_, member, _, same, found, inside⟩ := of_mem_membersDue below
    obtain ⟨rfl, rfl⟩ := List.cons.inj same
    rw [Nat.zero_add]
    exact ⟨member, found, inside⟩

theorem Stage.turn_saves (suits : tariff.Suits run) {stage : Stage ChildTask α} (world : World σ)
    (spends : stage.Spends tariff amount) :
    (stage.turn run server now world).Saves tariff ([] ∈ stage.due now) amount := by
  cases stage with
  | active plan =>
      cases spends with
      | active spends less => exact (Plan.act_saves suits world spends).of_lt less
  | asleep wake plan =>
      simp only [turn]
      split
      · cases spends with
        | asleep spends less => exact (Plan.act_saves suits world spends).of_lt less
      · rename_i early
        exact .idle spends (by simp [due, early]) world
  | leading crew next => exact (Crew.lead_saves suits world spends).mono (Nat.le_refl _) nil_mem_due
  | finished outcome => exact .idle spends List.not_mem_nil world

/-! ### Where a turn stops -/

/-- After a turn a task waits, leads a crew or has ended. Only a leader makes places ready. -/
inductive Turn.Rests : Turn σ α → Prop
  | asleep (wake : Nat) (plan : Plan α) (world : World σ) : Rests ⟨.asleep wake plan, world, []⟩
  | leading (crew : Crew ChildTask) (next : BatchResult → Plan α) (world : World σ)
      (ready : List Address) : Rests ⟨.leading crew next, world, ready⟩
  | finished (outcome : Outcome α) (world : World σ) : Rests ⟨.finished outcome, world, []⟩

theorem Plan.act_rests (plan : Plan α) (world : World σ) :
    (plan.act run server now world).Rests := by
  induction plan generalizing world with
  | done outcome => exact .finished outcome world
  | call request next ih =>
      simp only [act]
      split
      · exact ih _ _
      · exact .asleep _ _ _
  | note notice next ih => exact ih _
  | remember session entity next ih => exact ih _
  | «recall» session entity next ih => exact ih _ _
  | batch group next ih =>
      simp only [act]
      split
      · exact ih _ _
      · split
        · exact ih _ _
        · exact .leading _ _ _ _

theorem Crew.lead_rests (crew : Crew ChildTask) (next : BatchResult → Plan α) (world : World σ) :
    (crew.lead run server now next world).Rests := by
  simp only [lead]
  split
  · exact Plan.act_rests _ _
  · split
    · exact Plan.act_rests _ _
    · exact .leading _ _ _ _

/-- A task that has acted before rests after each turn of its tree. -/
theorem Stage.turnAt_rests (place : Address) (stage : Stage ChildTask α) (world : World σ)
    (acted : ∀ plan, stage ≠ .active plan) :
    (Stage.turnAt run server now place stage world).Rests := by
  cases stage with
  | active plan => exact absurd rfl (acted plan)
  | asleep wake plan =>
      cases place with
      | nil =>
          simp only [turnAt, turn]
          split
          · exact Plan.act_rests _ _
          · exact .asleep _ _ _
      | cons index rest => exact .asleep _ _ _
  | leading crew next =>
      cases place with
      | nil => exact Crew.lead_rests _ _ _
      | cons index rest =>
          simp only [turnAt]
          split
          · exact .leading _ _ _ _
          · split <;> exact .leading _ _ _ _
  | finished outcome => cases place <;> exact .finished _ _

/-- A turn that ends a task makes no place ready. -/
theorem Stage.ready_of_isOver {place : Address} {stage : Stage ChildTask α} {world : World σ}
    (through : (Stage.turnAt run server now place stage world).stage.isOver = true) :
    (Stage.turnAt run server now place stage world).ready = [] := by
  have silent : ∀ {turn : Turn σ α}, turn.Rests → turn.stage.isOver = true → turn.ready = [] := by
    intro turn rests through
    cases rests with
    | asleep => rfl
    | leading => cases through
    | finished => rfl
  by_cases acted : ∀ plan, stage ≠ .active plan
  · exact silent (turnAt_rests place stage world acted) through
  · obtain ⟨plan, active⟩ := Classical.not_forall.mp acted
    obtain rfl := Classical.not_not.mp active
    cases place with
    | nil => exact silent (Plan.act_rests plan world) through
    | cons index rest => cases through

/-- What a member saves in its turn is saved by its crew. When the member has ended, the place of
the leader is ready, which is paid for by what the member has not spent. -/
theorem Crew.afterTurn_saves {crew : Crew ChildTask} {next : BatchResult → Plan α} {index : Nat}
    {member : Member ChildTask} {turn : Turn σ (Option Entity)} {due : Prop}
    (spends : (Stage.leading crew next).Spends tariff amount)
    (found : crew.members[index]? = some member) (working : member.task.stage.isOver = false)
    (silent : turn.stage.isOver = true → turn.ready = [])
    (saves : ∀ {own : Nat}, member.task.stage.Spends tariff own → turn.Saves tariff due own) :
    Turn.Saves tariff due ⟨.leading (crew.afterTurn index member turn).1 next, turn.world,
      (crew.afterTurn index member turn).2⟩ amount := by
  cases spends with
  | @leading _ _ _ below rest _ covers members after enough =>
      obtain ⟨own, others, within, mine, replace⟩ := members.share found
      obtain ⟨left, spends, saved, strictly⟩ := saves mine
      have moved : ∀ {other : Nat}, turn.stage.Spends tariff other →
          (Stage.leading (crew.advance index member.label turn.stage) next).Spends tariff
            (other + others + tariff.charge crew.waiting + rest + 1) :=
        fun spends => .leading covers (replace spends) after (Nat.lt_succ_self _)
      cases through : turn.stage.isOver with
      | false =>
          refine ⟨_, moved spends, ?_, fun given => ?_⟩
          · simp only [afterTurn, through, Bool.false_eq_true, if_false, List.length_map]
            omega
          · have := strictly given
            omega
      | true =>
          have some : 0 < own := mine.pos working
          refine ⟨_, moved (Stage.Spends.of_isOver through), ?_, fun _ => by omega⟩
          simp only [afterTurn, through, if_true, silent through, List.map_nil, List.length_cons,
            List.length_nil]
          omega

/-- **A turn makes no more places ready than it saves**, and it saves something if something was
due at its place. -/
theorem Stage.turnAt_saves (suits : tariff.Suits run) (place : Address) :
    ∀ {α : Type} {stage : Stage ChildTask α} {amount : Nat} (world : World σ),
      stage.Spends tariff amount →
      (Stage.turnAt run server now place stage world).Saves tariff (place ∈ stage.due now)
        amount := by
  induction place with
  | nil => exact fun world spends => turn_saves suits world spends
  | cons index rest ih =>
      intro α stage amount world spends
      cases stage with
      | active plan => exact .idle spends List.not_mem_nil world
      | finished outcome => exact .idle spends List.not_mem_nil world
      | asleep wake plan =>
          refine .idle spends ?_ world
          simp only [due]
          split <;> simp
      | leading crew next =>
          simp only [turnAt]
          split
          · rename_i absent
            refine .idle spends (fun due => ?_) world
            obtain ⟨member, found, _⟩ := cons_mem_due due
            rw [absent] at found
            cases found
          · rename_i member found
            have sameMember : index :: rest ∈ (Stage.leading crew next).due now →
                rest ∈ member.task.stage.due now := by
              intro due
              obtain ⟨other, alsoFound, inside⟩ := cons_mem_due due
              rw [found] at alsoFound
              exact Option.some.inj alsoFound ▸ inside
            split
            · rename_i through
              refine .idle spends (fun due => ?_) world
              have inside := sameMember due
              cases ended : member.task.stage with
              | finished outcome =>
                  rw [ended] at inside
                  cases inside
              | _ =>
                  rw [ended] at through
                  cases through
            · rename_i working
              exact Crew.afterTurn_saves spends found (by simpa using working) ready_of_isOver
                fun mine => (ih world mine).mono (Nat.le_refl _) sameMember

end Turns

/-! ## The clock -/

mutual

theorem ChildTask.length_due_le (now : Nat) : ∀ (task : ChildTask) {amount : Nat},
    task.stage.Spends tariff amount → (task.due now).length ≤ amount
  | .mk (.active _), _, _ => Nat.zero_le _
  | .mk (.finished _), _, _ => Nat.zero_le _
  | .mk (.asleep wake _), _, spends => by
      have some := spends.pos rfl
      simp only [ChildTask.due]
      split
      · exact some
      · exact Nat.zero_le _
  | .mk (.leading ⟨_, deadline, _, _, _, members, _, _⟩ _), _, spends => by
      cases spends with
      | leading _ below _ enough =>
          have within := length_membersDue_le now members below 0
          simp only [ChildTask.due, List.length_append]
          split <;> simp only [List.length_cons, List.length_nil] <;> omega

theorem length_membersDue_le (now : Nat) : ∀ (members : List (Member ChildTask)) {amount : Nat},
    MembersSpend tariff members amount → ∀ start,
      (membersDue now start members).length ≤ amount
  | [], _, _, _ => Nat.zero_le _
  | ⟨_, task⟩ :: members, _, spends, start => by
      cases spends with
      | cons spends rest enough =>
          have first := ChildTask.length_due_le now task spends
          have others := length_membersDue_le now members rest (start + 1)
          simp only [membersDue, List.length_append, List.length_map]
          omega

end

/-- There are no more places at which something is due than what is left to be spent. -/
theorem Stage.length_due_le {stage : Stage ChildTask α} {amount : Nat} (now : Nat)
    (spends : stage.Spends tariff amount) : (stage.due now).length ≤ amount := by
  cases stage with
  | active plan => exact Nat.zero_le _
  | finished outcome => exact Nat.zero_le _
  | asleep wake plan =>
      have some := spends.pos rfl
      simp only [due]
      split
      · exact some
      · exact Nat.zero_le _
  | leading crew next =>
      cases spends with
      | leading _ below _ enough =>
          have within := length_membersDue_le now crew.members below 0
          simp only [due, List.length_append]
          split <;> simp only [List.length_cons, List.length_nil] <;> omega

theorem of_earlier_eq_some {left right : Option Nat} {time : Nat}
    (next : earlier left right = some time) : left = some time ∨ right = some time := by
  cases left with
  | none => exact .inr next
  | some first =>
      cases right with
      | none => exact .inl next
      | some second =>
          rcases Nat.le_total first second with sooner | later
          · rw [earlier, Nat.min_eq_left sooner] at next
            exact .inl next
          · rw [earlier, Nat.min_eq_right later] at next
            exact .inr next

mutual

theorem ChildTask.due_ne_nil {now : Nat} : ∀ {task : ChildTask} {time : Nat},
    task.nextTime = some time → time ≤ now → task.due now ≠ []
  | .mk (.active _), _, next, _ => by cases next
  | .mk (.finished _), _, next, _ => by cases next
  | .mk (.asleep wake _), _, next, past => by
      cases next
      simp [ChildTask.due, past]
  | .mk (.leading ⟨_, deadline, _, _, _, members, _, _⟩ _), _, next, past => by
      simp only [ChildTask.due]
      rcases of_earlier_eq_some next with own | below
      · cases own
        simp [past]
      · exact List.append_ne_nil_of_right_ne_nil _ (membersDue_ne_nil below past 0)

theorem membersDue_ne_nil {now : Nat} : ∀ {members : List (Member ChildTask)} {time : Nat},
    membersNextTime members = some time → time ≤ now → ∀ start,
      membersDue now start members ≠ []
  | [], _, next, _, _ => by cases next
  | ⟨_, task⟩ :: members, _, next, past, start => by
      rcases of_earlier_eq_some next with here | later
      · refine List.append_ne_nil_of_left_ne_nil ?_ _
        exact fun nothing => ChildTask.due_ne_nil here past (List.map_eq_nil_iff.mp nothing)
      · exact List.append_ne_nil_of_right_ne_nil _ (membersDue_ne_nil later past (start + 1))

end

/-- When the next time has come, something is due. -/
theorem Stage.due_ne_nil {stage : Stage ChildTask α} {now time : Nat}
    (next : stage.nextTime = some time) (past : time ≤ now) : stage.due now ≠ [] := by
  cases stage with
  | active plan => cases next
  | finished outcome => cases next
  | asleep wake plan =>
      cases next
      simp [due, past]
  | leading crew group =>
      simp only [due]
      rcases of_earlier_eq_some next with own | below
      · cases own
        simp [past]
      · exact List.append_ne_nil_of_right_ne_nil _ (membersDue_ne_nil below past 0)

/-- A task that has acted and has not ended goes on at a known time. -/
theorem Stage.exists_nextTime {stage : Stage ChildTask α} (acted : ∀ plan, stage ≠ .active plan)
    (unfinished : stage.isOver = false) : ∃ time, stage.nextTime = some time := by
  cases stage with
  | active plan => exact absurd rfl (acted plan)
  | asleep wake plan => exact ⟨wake, rfl⟩
  | leading crew next =>
      simp only [nextTime]
      cases membersNextTime crew.members <;> exact ⟨_, rfl⟩
  | finished outcome => cases unfinished

/-! ## The machine -/

namespace Machine

variable {server : Server σ} {machine : Machine σ α}

theorem mem_queue_of_next? {place : Address} (next : machine.next? = some place) :
    place ∈ machine.queue := by
  rcases Option.or_eq_some_iff.mp next with found | ⟨_, first⟩
  · exact List.mem_of_find?_eq_some found
  · exact List.mem_of_head? first

theorem next?_eq_none_iff : machine.next? = none ↔ machine.queue = [] := by
  rw [next?, Option.or_eq_none_iff, List.head?_eq_none_iff]
  exact ⟨And.right, fun empty => ⟨by rw [empty]; rfl, empty⟩⟩

theorem length_enqueue_le (queue ready : List Address) :
    (enqueue queue ready).length ≤ queue.length + ready.length := by
  rw [enqueue, List.length_append]
  exact Nat.add_le_add_left (List.length_filter_le _ _) _

theorem steps_of_isOver (through : machine.stage.isOver = true) (count : Nat) :
    machine.steps run server count = machine := by
  cases count with
  | zero => rfl
  | succ count => rw [steps, if_pos through]

theorem steps_succ (unfinished : machine.stage.isOver = false) (count : Nat) :
    machine.steps run server (count + 1) = (machine.step run server).steps run server count := by
  rw [steps, if_neg (by simp [unfinished])]

/-- What a turn of the place at hand leaves. The places that it makes ready are paid for. -/
theorem step_of_next? (suits : tariff.Suits run) (server : Server σ) {place : Address}
    {amount : Nat} (acted : ∀ plan, machine.stage ≠ .active plan)
    (spends : machine.stage.Spends tariff amount) (next : machine.next? = some place) :
    ∃ rest, (machine.step run server).stage.Spends tariff rest ∧
      (∀ plan, (machine.step run server).stage ≠ .active plan) ∧
      (machine.step run server).queue.length + 1 + rest ≤ machine.queue.length + amount ∧
      rest ≤ amount ∧ (place ∈ machine.stage.due machine.now → rest < amount) := by
  have inQueue := mem_queue_of_next? next
  have moved : machine.step run server =
      let turn := Stage.turnAt run server machine.now place machine.stage machine.world
      { machine with
        queue := enqueue (machine.queue.erase place) turn.ready
        stage := turn.stage
        world := turn.world } := by
    rw [step, next]
  have saves : (Stage.turnAt run server machine.now place machine.stage machine.world).Saves tariff
      (place ∈ machine.stage.due machine.now) amount :=
    Stage.turnAt_saves suits place machine.world spends
  have rests : (Stage.turnAt run server machine.now place machine.stage machine.world).Rests :=
    Stage.turnAt_rests place machine.stage machine.world acted
  rw [moved]
  generalize Stage.turnAt run server machine.now place machine.stage machine.world = turn at *
  obtain ⟨rest, left, saved, strictly⟩ := saves
  refine ⟨rest, left, fun plan => ?_, ?_, by omega, strictly⟩
  · cases rests <;> simp
  · have fewer := length_enqueue_le (machine.queue.erase place) turn.ready
    have one := List.length_pos_of_mem inQueue
    rw [List.length_erase_of_mem inQueue] at fewer
    simp only
    omega

/-- When no place is ready, the clock is set to a time at which something is due. -/
theorem step_of_idle (run : Run) (server : Server σ) {amount : Nat}
    (acted : ∀ plan, machine.stage ≠ .active plan) (unfinished : machine.stage.isOver = false)
    (spends : machine.stage.Spends tariff amount) (idle : machine.next? = none) :
    ∃ place, (machine.step run server).next? = some place ∧
      (machine.step run server).stage = machine.stage ∧
      place ∈ machine.stage.due (machine.step run server).now ∧
      (machine.step run server).queue.length ≤ amount := by
  obtain ⟨time, coming⟩ := Stage.exists_nextTime acted unfinished
  have moved : machine.step run server = { machine with
      now := max machine.now time
      queue := machine.stage.due (max machine.now time) } := by
    rw [step, idle, coming]
  rw [moved]
  have due := Stage.due_ne_nil coming (Nat.le_max_right machine.now time)
  cases next : next? { machine with
      now := max machine.now time
      queue := machine.stage.due (max machine.now time) } with
  | none => exact absurd (next?_eq_none_iff.mp next) due
  | some place =>
      exact ⟨place, rfl, rfl, mem_queue_of_next? next, Stage.length_due_le _ spends⟩

/-- A turn is paid for by what it saves. -/
theorem square_of_le {rest amount : Nat} (less : rest ≤ amount) :
    rest * (rest + 2) + amount ≤ amount * (amount + 2) + rest := by
  have products : rest * (rest + 1) ≤ amount * (amount + 1) :=
    Nat.mul_le_mul less (Nat.succ_le_succ less)
  rw [Nat.mul_succ rest, Nat.mul_succ amount]
  omega

/-- A change of the clock and all turns that follow it are paid for by what is saved once. -/
theorem square_of_lt {rest amount : Nat} (less : rest < amount) :
    rest * (rest + 2) + 2 * amount + 1 ≤ amount * (amount + 2) + rest := by
  have smaller : rest * (rest + 1) ≤ rest * amount := Nat.mul_le_mul_left rest less
  have products : (rest + 1) * amount ≤ amount * amount := Nat.mul_le_mul_right amount less
  rw [Nat.succ_mul] at products
  rw [Nat.mul_succ rest, Nat.mul_succ amount, Nat.mul_succ amount]
  omega

/-- **Enough steps** for a run whose root has acted before: one for each place that is ready, and
for what is left to be spent, its square and twice as much. -/
theorem steps_isOver (suits : tariff.Suits run) (count : Nat) :
    ∀ {machine : Machine σ α} {amount : Nat}, machine.stage.Spends tariff amount →
      (∀ plan, machine.stage ≠ .active plan) →
      machine.queue.length + amount * (amount + 2) ≤ count →
      (machine.steps run server count).stage.isOver = true := by
  induction count using Nat.strongRecOn with
  | ind count ih =>
      intro machine amount spends acted enough
      cases through : machine.stage.isOver with
      | true => rwa [steps_of_isOver through]
      | false =>
          cases next : machine.next? with
          | some place =>
              obtain ⟨rest, left, moved, saved, less, _⟩ :=
                step_of_next? suits server acted spends next
              have square := square_of_le less
              have one := List.length_pos_of_mem (mem_queue_of_next? next)
              obtain ⟨count, rfl⟩ : ∃ fewer, count = fewer + 1 := ⟨count - 1, by omega⟩
              rw [steps_succ through]
              exact ih count (Nat.lt_succ_self _) left moved (by omega)
          | none =>
              obtain ⟨place, ready, same, due, few⟩ :=
                step_of_idle run server acted through spends next
              rw [← same] at spends acted due through
              obtain ⟨rest, left, moved, saved, _, strictly⟩ :=
                step_of_next? suits server acted spends ready
              have square := square_of_lt (strictly due)
              obtain ⟨count, rfl⟩ : ∃ fewer, count = fewer + 2 := ⟨count - 2, by omega⟩
              rw [steps_succ (same ▸ through), steps_succ through]
              exact ih count (by omega) left moved (by omega)

/-- **Enough steps for a run from its start**: the square of what it spends and one. -/
theorem start_isOver (suits : tariff.Suits run) {plan : Plan α} {amount bound : Nat}
    (spends : plan.Spends tariff amount) (enough : (amount + 1) * (amount + 1) ≤ bound)
    (world : World σ) :
    ((Machine.start plan world).steps run server bound).stage.isOver = true := by
  have square : (amount + 1) * (amount + 1) = amount * (amount + 2) + 1 := by
    rw [Nat.mul_succ amount, Nat.succ_mul]
    omega
  obtain ⟨count, rfl⟩ : ∃ fewer, bound = fewer + 1 := ⟨bound - 1, by omega⟩
  have moved : (Machine.start plan world).step run server =
      let turn := plan.act run server 0 world
      ⟨0, enqueue [] turn.ready, turn.stage, turn.world⟩ := rfl
  have saves : (plan.act run server 0 world).Saves tariff False amount :=
    Plan.act_saves suits world spends
  have rests : (plan.act run server 0 world).Rests := Plan.act_rests plan world
  rw [steps_succ rfl, moved]
  generalize plan.act run server 0 world = turn at *
  obtain ⟨rest, left, saved, _⟩ := saves
  have few := length_enqueue_le [] turn.ready
  have less := square_of_le (Nat.le_trans (Nat.le_add_right _ _) saved)
  refine steps_isOver suits count left (fun other => ?_) ?_
  · cases rests <;> simp
  · simp only [List.length_nil] at few ⊢
    omega

end Machine

/-- **Enough steps**: within the bound, the plan comes to its end. -/
theorem perform_ends (suits : tariff.Suits run) (server : Server σ) {plan : Plan α}
    {amount bound : Nat} (spends : plan.Spends tariff amount)
    (enough : (amount + 1) * (amount + 1) ≤ bound) (world : World σ) :
    ∃ outcome, (perform run server bound plan world).1 = some outcome :=
  Option.isSome_iff_exists.mp (Machine.start_isOver suits spends enough world)

/-- **A run of an engine comes to its end**, with an outcome, if it is given enough steps. -/
theorem Engine.execute_ends {engine : Engine} {api : Api σ} {plan : Run → Plan α}
    (suits : tariff.Suits (engine.run api)) {amount bound : Nat}
    (spends : (plan (engine.run api)).Spends tariff amount)
    (enough : (amount + 1) * (amount + 1) ≤ bound) (state : σ) :
    ∃ outcome, (engine.execute api bound plan state).outcome = some outcome :=
  perform_ends suits api.server spends enough _

end DesiredState
