import Reconciler.Proofs.Ledger

set_option autoImplicit false

namespace Reconciler

namespace Ledger

inductive Change where
  | ready (status : ConditionStatus)
  | readyError (message : String)
  | unknownIfAbsent
  | processing (subroutine : String) (phase : Phase)
  | complete (subroutine : String) (phase : Phase)
  | failed (subroutine : String) (phase : Phase) (error : String)
  deriving DecidableEq, Repr

namespace Change

def type : Change → String
  | ready _ | readyError _ | unknownIfAbsent => Condition.ready
  | processing subroutine phase | complete subroutine phase | failed subroutine phase _ =>
      phase.conditionType subroutine

def make (now : Timestamp) : Change → Ledger → Ledger × Bool
  | ready status => setReady now status
  | readyError message => setReadyError now message
  | unknownIfAbsent => setUnknownIfAbsent now
  | processing subroutine phase => Ledger.processing now subroutine phase
  | complete subroutine phase => Ledger.complete now subroutine phase
  | failed subroutine phase error => Ledger.failed now subroutine phase error

def entry (now : Timestamp) : Change → Condition
  | ready status => ⟨Condition.ready, status, readyReason status, readyMessage status, now⟩
  | readyError message => ⟨Condition.ready, .false, errorReason, "The resource has an error: " ++ message, now⟩
  | unknownIfAbsent => ⟨Condition.ready, .unknown, processingReason, "The resource is processing", now⟩
  | processing subroutine phase =>
      ⟨phase.conditionType subroutine, .unknown, processingReason, "The " ++ phase.noun ++ " is processing", now⟩
  | complete subroutine phase =>
      ⟨phase.conditionType subroutine, .true, completeReason, "The " ++ phase.noun ++ " is complete", now⟩
  | failed subroutine phase error =>
      ⟨phase.conditionType subroutine, .false, errorReason, "The " ++ phase.noun ++ " has an error: " ++ error, now⟩

def Spares (change : Change) (ledger : Ledger) : Prop :=
  change = unknownIfAbsent ∧ Condition.ready ∈ ledger.types

end Change

structure Step where
  now : Timestamp
  change : Change
  before : Ledger

namespace Step

def after (step : Step) : Ledger :=
  (step.change.make step.now step.before).1

def changed (step : Step) : Bool :=
  (step.change.make step.now step.before).2

end Step

def status? (ledger : Ledger) (type : String) : Option ConditionStatus :=
  (ledger.find? type).map (·.status)

def since? (ledger : Ledger) (type : String) : Option Timestamp :=
  (ledger.find? type).map (·.lastTransition)

def Step.moves (type : String) (step : Step) : Bool :=
  step.after.status? type ≠ step.before.status? type

def steps : Ledger → List (Timestamp × Change) → List Step
  | _, [] => []
  | ledger, (now, change) :: rest => ⟨now, change, ledger⟩ :: steps (change.make now ledger).1 rest

def afterAll : Ledger → List (Timestamp × Change) → Ledger
  | ledger, [] => ledger
  | ledger, (now, change) :: rest => afterAll (change.make now ledger).1 rest

structure Step.Upserts (step : Step) : Prop where
  distinct : step.after.types.Nodup
  types : step.after.types =
    if step.change.type ∈ step.before.types then step.before.types else step.before.types ++ [step.change.type]
  others : ∀ (i : Nat) entry, step.before[i]? = some entry → entry.type ≠ step.change.type → step.after[i]? = some entry
  changed : step.changed = true ↔ step.after ≠ step.before
  again : ∀ later, step.change.make later step.after = (step.after, false)
  own : ∀ type, step.moves type = true → type = step.change.type
  stays : ∀ type, step.moves type = false → step.after.since? type = step.before.since? type
  tells : ¬step.change.Spares step.before →
    step.after.Shows step.change.type (step.change.entry step.now).status (step.change.entry step.now).reason
      (step.change.entry step.now).message
  spares : step.change.Spares step.before → step.after = step.before ∧ step.changed = false

section

variable {old new : Condition} {ledger : Ledger} {change : Change} {now : Timestamp}

theorem differs_iff (same : old.type = new.type) : old.differs new = true ↔ old.revise new ≠ old := by
  obtain ⟨type, status, reason, message, since⟩ := old
  by_cases kept : status = new.status <;> simp [Condition.differs, Condition.revise, kept] <;> grind

theorem changed_iff (new : Condition) (ledger : Ledger) :
    (set new ledger).2 = true ↔ (set new ledger).1 ≠ ledger := by
  induction ledger with
  | nil => simp
  | cons old rest ih =>
      by_cases same : old.type = new.type
      · rw [set_cons_of_eq rest same, differs_iff same]
        simp
      · rw [set_cons_of_ne rest same]
        simpa using ih

theorem set_again (new : Condition) (ledger : Ledger) (later : Timestamp) :
    set { new with lastTransition := later } (set new ledger).1 = ((set new ledger).1, false) := by
  induction ledger with
  | nil => simp [set, Condition.revise, Condition.differs]
  | cons old rest ih =>
      by_cases same : old.type = new.type
      · rw [set_cons_of_eq rest same, set_cons_of_eq rest (by simpa [Condition.revise] using same)]
        simp [Condition.revise, Condition.differs]
      · rw [set_cons_of_ne rest same, set_cons_of_ne _ (by simpa using same), ih]

theorem getElem?_set_of_ne {i : Nat} (there : ledger[i]? = some old) (other : old.type ≠ new.type) :
    (set new ledger).1[i]? = some old := by
  induction ledger generalizing i with
  | nil => simp at there
  | cons first rest ih =>
      by_cases same : first.type = new.type
      · rw [set_cons_of_eq rest same]
        cases i with
        | zero =>
            obtain rfl : first = old := by simpa using there
            exact absurd same other
        | succ i => simpa using there
      · rw [set_cons_of_ne rest same]
        cases i with
        | zero => simpa using there
        | succ i => exact ih (by simpa using there)

theorem status?_set (new : Condition) (ledger : Ledger) (type : String) :
    (set new ledger).1.status? type = if new.type = type then some new.status else ledger.status? type := by
  rw [status?, find?_set]
  by_cases same : new.type = type
  · cases found : ledger.find? type <;> simp [same, Condition.revise]
  · simp [same, status?]

theorem since?_set (new : Condition) (ledger : Ledger) (type : String) :
    (set new ledger).1.since? type =
      if (set new ledger).1.status? type = ledger.status? type then ledger.since? type
      else some new.lastTransition := by
  rw [status?_set, since?, find?_set]
  by_cases same : new.type = type
  · cases found : ledger.find? type with
    | none => simp [same, status?, found]
    | some old =>
        by_cases kept : old.status = new.status
        · simp [same, status?, since?, found, Condition.revise, kept]
        · simp [same, status?, found, Condition.revise, kept, Ne.symm kept]
  · simp [same, since?]

theorem type_entry (change : Change) (now : Timestamp) : (change.entry now).type = change.type := by
  cases change <;> rfl

theorem lastTransition_entry (change : Change) (now : Timestamp) : (change.entry now).lastTransition = now := by
  cases change <;> rfl

theorem entry_later (change : Change) (now later : Timestamp) :
    change.entry later = { change.entry now with lastTransition := later } := by
  cases change <;> rfl

theorem make_of_spares (spares : change.Spares ledger) : change.make now ledger = (ledger, false) := by
  obtain ⟨rfl, there⟩ := spares
  exact if_pos (isSome_find?.mpr there)

theorem make_eq_set (free : ¬change.Spares ledger) : change.make now ledger = set (change.entry now) ledger := by
  cases change with
  | unknownIfAbsent => exact if_neg fun there => free ⟨rfl, isSome_find?.mp there⟩
  | _ => rfl

theorem nodup_make (distinct : ledger.types.Nodup) : (change.make now ledger).1.types.Nodup := by
  by_cases spares : change.Spares ledger
  · rwa [make_of_spares spares]
  · rw [make_eq_set spares]
    exact nodup_set _ distinct

theorem types_make (change : Change) (now : Timestamp) (ledger : Ledger) :
    (change.make now ledger).1.types =
      if change.type ∈ ledger.types then ledger.types else ledger.types ++ [change.type] := by
  by_cases spares : change.Spares ledger
  · have there : change.type ∈ ledger.types := by
      obtain ⟨rfl, there⟩ := spares
      exact there
    rw [make_of_spares spares, if_pos there]
  · rw [make_eq_set spares, types_set, type_entry]

theorem make_again (change : Change) (now later : Timestamp) (ledger : Ledger) :
    change.make later (change.make now ledger).1 = ((change.make now ledger).1, false) := by
  by_cases spares : change.Spares ledger
  · rw [make_of_spares spares, make_of_spares spares]
  · by_cases still : change.Spares (change.make now ledger).1
    · exact make_of_spares still
    · rw [make_eq_set still, make_eq_set spares, entry_later change now later]
      exact set_again ..

theorem since?_make (step : Step) (type : String) :
    step.after.since? type = if step.moves type then some step.now else step.before.since? type := by
  obtain ⟨now, change, ledger⟩ := step
  by_cases spares : change.Spares ledger
  · simp [Step.moves, Step.after, make_of_spares spares]
  · have time := since?_set (change.entry now) ledger type
    rw [lastTransition_entry, ← make_eq_set spares] at time
    rw [Step.after, time]
    by_cases kept : (change.make now ledger).1.status? type = ledger.status? type <;>
      simp [Step.moves, Step.after, kept]

theorem own_of_moves {step : Step} {type : String} (moved : step.moves type = true) : type = step.change.type := by
  obtain ⟨now, change, ledger⟩ := step
  by_cases spares : change.Spares ledger
  · simp [Step.moves, Step.after, make_of_spares spares] at moved
  · refine Decidable.byContradiction fun other => ?_
    simp [Step.moves, Step.after, make_eq_set spares, status?_set, type_entry, Ne.symm other] at moved

theorem upserts_of_nodup (step : Step) (distinct : step.before.types.Nodup) : step.Upserts where
  distinct := nodup_make distinct
  types := types_make ..
  others := by
    intro i entry there other
    by_cases spares : step.change.Spares step.before
    · rwa [Step.after, make_of_spares spares]
    · rw [Step.after, make_eq_set spares]
      exact getElem?_set_of_ne there (by rwa [type_entry])
  changed := by
    by_cases spares : step.change.Spares step.before
    · simp [Step.changed, Step.after, make_of_spares spares]
    · rw [Step.changed, Step.after, make_eq_set spares]
      exact changed_iff ..
  again later := make_again ..
  own _ := own_of_moves
  stays type unmoved := by rw [since?_make, unmoved, if_neg Bool.false_ne_true]
  tells free := by
    rw [Step.after, make_eq_set free, ← type_entry step.change step.now]
    exact shows_set ..
  spares spares := by simp [Step.changed, Step.after, make_of_spares spares]

theorem upserts_steps {changes : List (Timestamp × Change)} (distinct : ledger.types.Nodup) :
    ∀ step ∈ steps ledger changes, step.Upserts := by
  induction changes generalizing ledger with
  | nil => simp [steps]
  | cons first rest ih =>
      intro step member
      rcases List.mem_cons.mp member with rfl | later
      · exact upserts_of_nodup _ distinct
      · exact ih (nodup_make distinct) step later

theorem nodup_afterAll {changes : List (Timestamp × Change)} (distinct : ledger.types.Nodup) :
    (afterAll ledger changes).types.Nodup := by
  induction changes generalizing ledger with
  | nil => exact distinct
  | cons first rest ih => exact ih (nodup_make distinct)

theorem prefix_afterAll (ledger : Ledger) (changes : List (Timestamp × Change)) :
    ledger.types <+: (afterAll ledger changes).types := by
  induction changes generalizing ledger with
  | nil => exact List.prefix_rfl
  | cons first rest ih =>
      refine List.IsPrefix.trans ?_ (ih _)
      rw [types_make]
      split
      · exact List.prefix_rfl
      · exact List.prefix_append ..

theorem since?_afterAll (ledger : Ledger) (changes : List (Timestamp × Change)) (type : String) :
    (afterAll ledger changes).since? type =
      (((steps ledger changes).filter (·.moves type)).getLast?.map (·.now)).or (ledger.since? type) := by
  induction changes generalizing ledger with
  | nil => rfl
  | cons first rest ih =>
      obtain ⟨now, change⟩ := first
      have time := since?_make ⟨now, change, ledger⟩ type
      -- A change further on counts before this one, and this one before what was there to begin with.
      rw [afterAll, steps, ih, List.filter_cons]
      rw [Step.after] at time
      cases moved : Step.moves type ⟨now, change, ledger⟩ with
      | false => simp [time, moved]
      | true =>
          rw [time, moved, if_pos rfl, if_pos rfl, List.getLast?_cons]
          cases ((steps (change.make now ledger).1 rest).filter (·.moves type)).getLast? <;> rfl

end

/-- Every change of a course touches the entry of its own type, in its place, or adds it at the end; it says whether it
has made a difference, and would make none a second time. In the end an entry has the time of the last change that
moved it, and the one it had at first if none has. -/
theorem upserted_in_place (initial : Ledger) (distinct : initial.types.Nodup) (changes : List (Timestamp × Change)) :
    (∀ step ∈ steps initial changes, step.Upserts) ∧
      (afterAll initial changes).types.Nodup ∧
      initial.types <+: (afterAll initial changes).types ∧
      ∀ type, (afterAll initial changes).since? type =
        (((steps initial changes).filter (·.moves type)).getLast?.map (·.now)).or (initial.since? type) :=
  ⟨upserts_steps distinct, nodup_afterAll distinct, prefix_afterAll initial changes, since?_afterAll initial changes⟩

section

def tick (second : Fin 60) : Timestamp where
  day := 0
  second := second
  nano := 0
  valid := ⟨by decide, by decide, by omega, by decide, nofun⟩

def calm : Ledger :=
  [(Change.ready .true).entry (tick 0), (Change.complete "dns" .process).entry (tick 0)]

def storm : List (Timestamp × Change) := [
  (tick 1, .processing "dns" .process),
  (tick 2, .complete "dns" .process),
  (tick 3, .unknownIfAbsent),
  (tick 4, .failed "web" .process "no route"),
  (tick 5, .readyError "no route"),
  (tick 6, .readyError "no reply")]

theorem upserted_in_place_storm :
    calm.types.Nodup ∧ calm.types <+: (afterAll calm storm).types ∧
      (afterAll calm storm).types = ["Ready", "dns_Ready", "web_Ready"] ∧
      (afterAll calm storm).since? "Ready" = some (tick 5) ∧
      (afterAll calm storm).since? "dns_Ready" = some (tick 2) ∧
      (afterAll calm storm).since? "web_Ready" = some (tick 4) := by
  have distinct : calm.types.Nodup := by decide +kernel
  obtain ⟨_, _, order, dated⟩ := upserted_in_place calm distinct storm
  exact ⟨distinct, order, by decide +kernel, (dated _).trans (by decide +kernel),
    (dated _).trans (by decide +kernel), (dated _).trans (by decide +kernel)⟩

end

end Ledger

end Reconciler
