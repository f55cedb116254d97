import DesiredState.Api.Credentials

/-!
# Tokens that were pushed

Tokens are set, pushed and popped in any order. Whatever the order, no token is ever empty and the
header stays the same (`Reachable.sound`). A token that was pushed is gone after its pop, and the
credentials are those from before, whatever has happened in between, if each pop there belongs to a
push there and each push to a pop (`Balanced`).

**Two ways to match brackets.** `Balanced` builds sequences of changes from balanced parts, which is
what the induction needs. It is the same as to count the pushes that are open, never to pop where
none is, and to come out at none (`balanced_iff`).
-/

set_option autoImplicit false

namespace DesiredState.Credentials

/-! ## Sequences of changes -/

/-- A change of credentials. -/
inductive Change
  | set (token : Option String)
  | push (token : String)
  | pop
  deriving DecidableEq, Repr

/-- The credentials after a change. -/
def change (credentials : Credentials) : Change → Credentials
  | .set token => credentials.setToken token
  | .push token => credentials.push token
  | .pop => credentials.pop

/-- The credentials after changes. -/
def after (credentials : Credentials) (changes : List Change) : Credentials :=
  changes.foldl change credentials

variable {credentials : Credentials}

@[simp] theorem after_nil : credentials.after [] = credentials := rfl

@[simp] theorem after_cons (next : Change) (changes : List Change) :
    credentials.after (next :: changes) = (credentials.change next).after changes := rfl

@[simp] theorem after_append (first second : List Change) :
    credentials.after (first ++ second) = (credentials.after first).after second :=
  List.foldl_append

/-- A pop takes away what the last push has saved. -/
theorem pop_of_saved {previous : Option String} {rest : List (Option String)}
    (saved : credentials.saved = previous :: rest) :
    credentials.pop = { credentials with token := previous, saved := rest } := by
  rw [pop, saved]

/-- Without anything to return to, a pop changes nothing. -/
theorem pop_of_nothing (nothing : credentials.saved = []) : credentials.pop = credentials := by
  rw [pop, nothing]

/-- Credentials that a client can come to have. -/
inductive Reachable : Credentials → Prop
  | ofToken (token : Option String) (header : String) : Reachable (ofToken token header)
  | bearer (token : String) : Reachable (bearer token)
  | anonymous : Reachable anonymous
  | change {credentials : Credentials} (before : Reachable credentials) (next : Change) :
      Reachable (credentials.change next)

theorem Reachable.after (reachable : Reachable credentials) :
    ∀ changes, Reachable (credentials.after changes) := by
  intro changes
  induction changes generalizing credentials with
  | nil => exact reachable
  | cons next changes ih => exact ih (reachable.change next)

/-! ## Tokens that are not empty -/

/-- Neither the token nor a saved one is empty. -/
def Sound (credentials : Credentials) : Prop :=
  credentials.token ≠ some "" ∧ some "" ∉ credentials.saved

theorem nonempty_ne_empty (token : Option String) : nonempty token ≠ some "" := by
  intro same
  obtain ⟨_, kept⟩ := Option.filter_eq_some_iff.mp same
  cases kept

theorem sound_ofToken (token : Option String) (header : String) : (ofToken token header).Sound :=
  ⟨nonempty_ne_empty token, List.not_mem_nil⟩

/-- A change leaves no token empty: a new one is checked, and a popped one was before. -/
theorem Sound.change (sound : credentials.Sound) (next : Change) :
    (credentials.change next).Sound := by
  obtain ⟨token, saved⟩ := sound
  cases next with
  | set next => exact ⟨nonempty_ne_empty next, saved⟩
  | push next =>
      refine ⟨nonempty_ne_empty (some next), fun member => ?_⟩
      rcases List.mem_cons.mp member with same | earlier
      · exact token same.symm
      · exact saved earlier
  | pop =>
      rw [Credentials.change]
      cases stack : credentials.saved with
      | nil =>
          rw [pop_of_nothing stack]
          exact ⟨token, saved⟩
      | cons previous rest =>
          rw [stack] at saved
          rw [pop_of_saved stack]
          exact ⟨fun same => saved (same ▸ List.mem_cons_self),
            fun member => saved (List.mem_cons_of_mem _ member)⟩

/-- **No token of a client is empty.** -/
theorem Reachable.sound (reachable : Reachable credentials) : credentials.Sound := by
  induction reachable with
  | ofToken token header => exact sound_ofToken token header
  | bearer token => exact sound_ofToken (some token) standardHeader
  | anonymous => exact sound_ofToken none standardHeader
  | change _ next ih => exact ih.change next

/-- A token that is set is the active one, unless it is empty. -/
theorem nonempty_of_ne {token : String} (given : token ≠ "") : nonempty (some token) = some token :=
  if_pos (by simpa using given)

/-! ## The header -/

theorem change_header (next : Change) : (credentials.change next).header = credentials.header := by
  cases next with
  | set token => rfl
  | push token => rfl
  | pop =>
      rw [change]
      cases stack : credentials.saved with
      | nil => rw [pop_of_nothing stack]
      | cons previous rest => rw [pop_of_saved stack]

theorem after_header (changes : List Change) :
    (credentials.after changes).header = credentials.header := by
  induction changes generalizing credentials with
  | nil => rfl
  | cons next changes ih => exact ih.trans (change_header next)

/-! ## Balanced changes -/

/-- Changes in which each pop belongs to an earlier push and each push to a later pop. -/
inductive Balanced : List Change → Prop
  | nil : Balanced []
  | set (token : Option String) {later : List Change} (rest : Balanced later) :
      Balanced (.set token :: later)
  | bracket (token : String) {inside later : List Change} (within : Balanced inside)
      (rest : Balanced later) : Balanced (.push token :: inside ++ .pop :: later)

/-- **Balanced changes leave the stack as it is**, however deep they go in between. -/
theorem Balanced.saved_after {changes : List Change} (balanced : Balanced changes) :
    ∀ credentials : Credentials, (credentials.after changes).saved = credentials.saved := by
  induction balanced with
  | nil => exact fun _ => rfl
  | set token rest ih => exact fun credentials => ih (credentials.setToken token)
  | @bracket token inside later within rest ihWithin ihRest =>
      intro credentials
      have inner : ((credentials.push token).after inside).saved
          = credentials.token :: credentials.saved := ihWithin (credentials.push token)
      have popped := congrArg Credentials.saved (pop_of_saved inner)
      rw [List.cons_append, after_cons, after_append, after_cons, ihRest]
      exact popped

/-- **A pop restores what was there before the push**, if the changes in between are balanced. -/
theorem Balanced.pop_after_push {changes : List Change} (balanced : Balanced changes)
    (credentials : Credentials) (token : String) :
    ((credentials.push token).after changes).pop = credentials := by
  have inner : ((credentials.push token).after changes).saved
      = credentials.token :: credentials.saved := balanced.saved_after (credentials.push token)
  have header : ((credentials.push token).after changes).header = credentials.header :=
    after_header changes
  rw [pop_of_saved inner, header]

/-! ## Counting open pushes -/

/-- The number of pushes that are open after changes, if so many are open before; there is none if a
pop finds no push open. -/
def openAfter? : Nat → List Change → Option Nat
  | opened, [] => some opened
  | opened, .set _ :: later => openAfter? opened later
  | opened, .push _ :: later => openAfter? (opened + 1) later
  | 0, .pop :: _ => none
  | opened + 1, .pop :: later => openAfter? opened later

/-- Changes that close the given number of pushes, one after the other, with balanced changes in
between. -/
def Unwinds : Nat → List Change → Prop
  | 0, changes => Balanced changes
  | opened + 1, changes =>
      ∃ inside later, changes = inside ++ .pop :: later ∧ Balanced inside ∧ Unwinds opened later

theorem unwinds_of_openAfter : ∀ {changes : List Change} {opened : Nat},
    openAfter? opened changes = some 0 → Unwinds opened changes
  | [], opened, closed => by
      cases closed
      exact .nil
  | .set token :: later, 0, closed => by
      have rest : Unwinds 0 later := unwinds_of_openAfter closed
      exact .set token rest
  | .set token :: later, opened + 1, closed => by
      have rest : Unwinds (opened + 1) later := unwinds_of_openAfter closed
      obtain ⟨inside, rest, rfl, balanced, unwinds⟩ := rest
      exact ⟨.set token :: inside, rest, rfl, .set token balanced, unwinds⟩
  | .push token :: later, opened, closed => by
      have rest : Unwinds (opened + 1) later := unwinds_of_openAfter closed
      obtain ⟨inside, rest, rfl, balanced, unwinds⟩ := rest
      cases opened with
      | zero => exact .bracket token balanced unwinds
      | succ opened =>
          obtain ⟨between, others, rfl, balancedBetween, unwinds⟩ := unwinds
          refine ⟨.push token :: inside ++ .pop :: between, others, ?_,
            .bracket token balanced balancedBetween, unwinds⟩
          simp
  | .pop :: later, 0, closed => nomatch closed
  | .pop :: later, opened + 1, closed => ⟨[], later, rfl, .nil, unwinds_of_openAfter closed⟩

theorem Balanced.openAfter {changes : List Change} (balanced : Balanced changes) :
    ∀ (opened : Nat) (later : List Change),
      openAfter? opened (changes ++ later) = openAfter? opened later := by
  induction balanced with
  | nil => exact fun _ _ => rfl
  | set token rest ih => exact ih
  | @bracket token inside rest within _ ihWithin ihRest =>
      intro opened later
      rw [List.cons_append, List.cons_append, List.append_assoc, openAfter?, ihWithin]
      exact ihRest opened later

/-- **Changes are balanced exactly if no pop finds all pushes closed and all are closed at the
end.** -/
theorem balanced_iff {changes : List Change} :
    Balanced changes ↔ openAfter? 0 changes = some 0 := by
  refine ⟨fun balanced => ?_, unwinds_of_openAfter⟩
  have counted := balanced.openAfter 0 []
  rw [List.append_nil] at counted
  exact counted

/-! ## Tokens for a while -/

/-- **Pushed tokens unwind.** Whatever happens to the credentials of a client, no token becomes
empty and the header stays, and a token that is pushed or set then is the active one, unless it is
empty. Balanced changes between a push and its pop leave no trace, not even if the token that was
pushed is empty; and a pop without a push changes nothing. -/
theorem tokens_unwind (reachable : Reachable credentials) (changes : List Change) :
    (credentials.after changes).Sound ∧ (credentials.after changes).header = credentials.header ∧
    (∀ token, token ≠ "" → ((credentials.after changes).push token).token = some token ∧
      ((credentials.after changes).setToken (some token)).token = some token) ∧
    (openAfter? 0 changes = some 0 →
      ∀ token, ((credentials.push token).after changes).pop = credentials) ∧
    (credentials.saved = [] → credentials.pop = credentials) := by
  refine ⟨(reachable.after changes).sound, after_header changes, fun token given => ?_,
    fun closed => (balanced_iff.mpr closed).pop_after_push credentials, pop_of_nothing⟩
  exact ⟨nonempty_of_ne given, nonempty_of_ne given⟩

end DesiredState.Credentials

namespace DesiredState.Sample

open Credentials

/-- A stranger gets a token, which is taken away, and for a while an empty one with another one set
in its place. -/
def visitor : List Change := [.push "guest", .set none, .push "", .set (some "admin"), .pop, .pop]

theorem visitor_unwinds :
    ((anonymous.push "").after visitor).pop = anonymous ∧ anonymous.pop = anonymous ∧
      ((anonymous.push "").after visitor).Sound ∧
      (((anonymous.push "").after visitor).push "guest").token = some "guest" := by
  have reachable : Reachable (anonymous.push "") := .change .anonymous (.push "")
  obtain ⟨-, -, -, unwinds, nothing⟩ := tokens_unwind .anonymous visitor
  obtain ⟨sound, -, active, -⟩ := tokens_unwind reachable visitor
  exact ⟨unwinds (by decide) "", nothing rfl, sound, (active "guest" (by decide)).1⟩

end DesiredState.Sample
