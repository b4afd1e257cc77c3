import Reconciler.Proofs.Chronicle.Shelf
import Reconciler.Proofs.Course.Turnout
import Reconciler.Proofs.Ledger

set_option autoImplicit false

namespace Reconciler

open Reconcile

variable {σ : Type}

-- What is put down about a failure: of a step its own words, of everything else the whole message.
inductive Error.Says : Error → String → Prop where
  | step {name : String} {source : OperatorError} : Says (.subroutine name source) source.message
  | client {source : ClientError} : Says (.client source) ("kubernetes error: " ++ source.message)
  | configuration {message : String} : Says (.configuration message) ("configuration error: " ++ message)
  | cancelled : Says .cancelled "reconcile cancelled"
  | internal {context message : String} :
      Says (.internal context message) ("internal error [" ++ context ++ "]: " ++ message)

theorem Error.says_failureMessage (error : Error) : error.Says error.failureMessage := by
  cases error with
  | client => exact .client
  | subroutine => exact .step
  | configuration => exact .configuration
  | cancelled => exact .cancelled
  | internal => exact .internal

namespace FinalLedger

def turned (phase : Phase) (turnouts : List (Turnout σ)) : List String :=
  (turnouts.filter (·.result.isSome)).map fun o => phase.conditionType o.sub.name

def Reflects (phase : Phase) (ledger : Ledger) (o : Turnout σ) : Prop :=
  let type := phase.conditionType o.sub.name
  match o.result with
  | none => True
  | some (.ok outcome) =>
      if outcome.isDone then ledger.Shows type .true "Complete" ("The " ++ phase.noun ++ " is complete")
      else ledger.Shows type .unknown "Processing" ("The " ++ phase.noun ++ " is processing")
  | some (.error error) =>
      ∃ text, error.Says text ∧ ledger.Shows type .false "Error" ("The " ++ phase.noun ++ " has an error: " ++ text)

structure Marks (phase : Phase) (base : Ledger) (turnouts : List (Turnout σ)) (ledger : Ledger) : Prop where
  grown : ledger.types = base.types ++ (Condition.ready :: turned phase turnouts).filter (· ∉ base.types)
  reflects : ∀ o ∈ turnouts, o.failed = false → Reflects phase ledger o
  others : ∀ type ∉ Condition.ready :: turned phase turnouts, ledger.find? type = base.find? type

def marked (now : Timestamp) (phase : Phase) (subroutine : String) (result : Option (Except Error Outcome))
    (ledger : Ledger) : Ledger :=
  match result with
  | none => ledger
  | some (.ok outcome) =>
      let ledger := (Ledger.processing now subroutine phase ledger).1
      if outcome.isDone then (Ledger.complete now subroutine phase ledger).1 else ledger
  | some (.error _) => (Ledger.processing now subroutine phase ledger).1

section

variable {c : Cycle σ} {phase : Phase} {now : Timestamp} {sub : Subroutine σ} {found left w : Workspace}
variable {own : List Event} {base ledger : Ledger} {turnouts : List (Turnout σ)} {o : Turnout σ}

theorem conditions_persisted {changed : Workspace × Bool} (persisted : Persisted changed own w) :
    w.conditions = changed.1.conditions := by
  cases persisted <;> rfl

theorem conditions_taken {result : Except OperatorError Outcome} (managed : c.manager.conditions = true)
    (steady : c.manager.StepsKeep Workspace.conditions) (member : sub ∈ c.manager.subroutines)
    (taken : Taken c phase now sub found own result w) :
    w.conditions = (Ledger.processing now sub.name phase found.conditions).1 := by
  cases taken with
  | @processed _ given _ _ _ _ persisted ends =>
      calc
        _ = given.conditions := steady sub member .process _ _ _ _ ends
        _ = (entered c phase now sub found).conditions := conditions_persisted persisted
        _ = _ := conditions_amend managed _ _
  | @finalized _ answer _ _ _ _ ends persisted =>
      calc
        _ = answer.workspace.conditions :=
          (conditions_persisted persisted).trans (conditions_releaseIfIdle ..)
        _ = (entered c phase now sub found).conditions := steady sub member .finalize _ _ _ _ ends
        _ = _ := conditions_amend managed _ _

theorem conditions_turns {result : Option (Except Error Outcome)} (managed : c.manager.conditions = true)
    (steady : c.manager.StepsKeep Workspace.conditions) (member : sub ∈ c.manager.subroutines)
    (turns : Turns c phase now sub found own result left) :
    left.conditions = marked now phase sub.name result found.conditions := by
  cases turns with
  | passed => rfl
  | @taken _ result w _ taken =>
      have before := conditions_taken managed steady member taken
      rcases result with failure | outcome
      · exact before
      · by_cases done : outcome.isDone = true
        · simp [concluded, Except.mapError, marked, done, conditions_amend managed, before]
        · simp [concluded, Except.mapError, marked, done, before]
  | unregistered => exact conditions_amend managed _ _
  | @unreleased _ answer _ _ _ _ ends _ =>
      calc
        _ = answer.workspace.conditions := conditions_releaseIfIdle ..
        _ = (entered c phase now sub found).conditions := steady sub member .finalize _ _ _ _ ends
        _ = _ := conditions_amend managed _ _

theorem find?_marked (now : Timestamp) (subroutine : String) (result : Option (Except Error Outcome)) {type : String}
    (other : phase.conditionType subroutine ≠ type) :
    (marked now phase subroutine result ledger).find? type = ledger.find? type := by
  rcases result with _ | _ | outcome
  · rfl
  · simp [marked, Ledger.processing, Ledger.setSubroutine, Ledger.find?_set, other]
  · by_cases done : outcome.isDone = true
    · simp [marked, done, Ledger.complete, Ledger.processing, Ledger.setSubroutine, Ledger.find?_set, other]
    · simp [marked, done, Ledger.processing, Ledger.setSubroutine, Ledger.find?_set, other]

theorem types_marked (now : Timestamp) (phase : Phase) (subroutine : String) (result : Except Error Outcome)
    (ledger : Ledger) :
    (marked now phase subroutine (some result) ledger).types =
      (Ledger.processing now subroutine phase ledger).1.types := by
  have there : phase.conditionType subroutine ∈ (Ledger.processing now subroutine phase ledger).1.types := by
    rw [Ledger.processing, Ledger.setSubroutine, Ledger.types_set]
    split
    · assumption
    · simp
  rcases result with _ | outcome
  · rfl
  · by_cases done : outcome.isDone = true
    · simp only [marked, done, ↓reduceIte]
      exact Ledger.types_set_of_mem there
    · simp [marked, done]

theorem reflects_marked (now : Timestamp) (fine : o.failed = false) :
    Reflects phase (marked now phase o.sub.name o.result ledger) o := by
  unfold Reflects
  rcases result : o.result with _ | _ | outcome
  · trivial
  · simp [Turnout.failed, result] at fine
  · by_cases done : outcome.isDone = true
    · simp only [marked, done, ↓reduceIte]
      exact Ledger.shows_set _ _
    · simp only [marked, done, Bool.false_eq_true, ↓reduceIte]
      exact Ledger.shows_set _ _

theorem Reflects.same {ledger' : Ledger} (reflects : Reflects phase ledger o)
    (same : ledger'.find? (phase.conditionType o.sub.name) = ledger.find? (phase.conditionType o.sub.name)) :
    Reflects phase ledger' o := by
  simp only [Reflects, Ledger.Shows, same] at reflects ⊢
  exact reflects

theorem turned_snoc (phase : Phase) (turnouts : List (Turnout σ)) (o : Turnout σ) :
    turned phase (turnouts ++ [o]) =
      turned phase turnouts ++ if o.result.isSome then [phase.conditionType o.sub.name] else [] := by
  by_cases took : o.result.isSome = true <;> simp [turned, took]

theorem grown_set {fresh : List String} {new : Condition}
    (grown : ledger.types = base.types ++ fresh.filter (· ∉ base.types)) (apart : new.type ∉ fresh) :
    (Ledger.set new ledger).1.types = base.types ++ (fresh ++ [new.type]).filter (· ∉ base.types) := by
  rw [Ledger.types_set, grown]
  by_cases there : new.type ∈ base.types <;> simp [there, apart]

theorem Marks.start (now : Timestamp) (phase : Phase) (base : Ledger) :
    Marks phase base ([] : List (Turnout σ)) (Ledger.setUnknownIfAbsent now base).1 := by
  unfold Ledger.setUnknownIfAbsent
  split
  · rename_i there
    have present : Condition.ready ∈ base.types := Ledger.isSome_find?.mp there
    exact ⟨by simp [turned, present], by simp, fun _ _ => rfl⟩
  · rename_i absent
    have missing : Condition.ready ∉ base.types := fun there => absent (Ledger.isSome_find?.mpr there)
    refine ⟨?_, by simp, fun type other => ?_⟩
    · simp [Ledger.setReady, Ledger.types_set, turned, missing]
    · have apart : Condition.ready ≠ type := fun same => other (same ▸ List.mem_cons_self)
      simp [Ledger.setReady, Ledger.find?_set, apart]

theorem Marks.turn (marks : Marks phase base turnouts ledger) (now : Timestamp)
    (apart : phase.conditionType o.sub.name ∉ Condition.ready :: turned phase turnouts)
    (names : ∀ earlier ∈ turnouts, earlier.sub.name ≠ o.sub.name) :
    Marks phase base (turnouts ++ [o]) (marked now phase o.sub.name o.result ledger) := by
  refine ⟨?_, ?_, ?_⟩
  · rw [turned_snoc]
    rcases result : o.result with _ | outcome
    · simpa [marked] using marks.grown
    · rw [types_marked]
      exact grown_set marks.grown apart
  · intro earlier member fine
    rcases List.mem_append.mp member with before | last
    · refine (marks.reflects earlier before fine).same (find?_marked now o.sub.name o.result fun same => ?_)
      exact names earlier before (Phase.conditionType_inj same).symm
    · obtain rfl := List.mem_singleton.mp last
      exact reflects_marked now fine
  · intro type other
    rw [turned_snoc] at other
    rcases result : o.result with _ | outcome
    · exact marks.others type (by simpa [result] using other)
    · simp only [result, Option.isSome_some, ↓reduceIte, List.mem_cons, List.mem_append, List.not_mem_nil, or_false,
        not_or] at other
      rw [find?_marked now o.sub.name _ (Ne.symm other.2.2)]
      exact marks.others type (by simp [other])

theorem mem_turned {type : String} :
    type ∈ turned phase turnouts ↔
      ∃ o ∈ turnouts, o.result.isSome = true ∧ phase.conditionType o.sub.name = type := by
  simp [turned, and_assoc]

theorem names_of_order {m : Manager σ} (order : turnouts.map (·.sub) <+: m.subroutines) :
    (turnouts.map fun o => o.sub.name).Nodup ∧ ∀ o ∈ turnouts, o.sub ∈ m.subroutines := by
  constructor
  · have names := (order.map (·.name)).sublist.nodup m.names_nodup
    simpa [Function.comp_def] using names
  · exact fun o member => order.subset (List.mem_map_of_mem member)

theorem name_ne_of_order {m : Manager σ} (order : (turnouts ++ [o]).map (·.sub) <+: m.subroutines) :
    ∀ earlier ∈ turnouts, earlier.sub.name ≠ o.sub.name := by
  intro earlier member same
  have names := (names_of_order order).1
  rw [List.map_append] at names
  exact (List.nodup_append.mp names).2.2 _ (List.mem_map_of_mem member) _ (by simp) same

theorem marks_of_sweeps {fetched : Workspace} (managed : c.manager.conditions = true)
    (steady : c.manager.StepsKeep Workspace.conditions) (order : turnouts.map (·.sub) <+: c.manager.subroutines)
    (sweeps : Sweeps c phase now (first c now fetched) turnouts w) :
    Marks phase fetched.conditions turnouts w.conditions := by
  induction sweeps with
  | start =>
      rw [first, conditions_amend managed]
      exact .start ..
  | @turn turnouts o _ clean turns ih =>
      have marks := ih ((by simp : turnouts.map (·.sub) <+: (turnouts ++ [o]).map (·.sub)).trans order)
      have apart := name_ne_of_order order
      rw [conditions_turns managed steady ((names_of_order order).2 o (by simp)) turns]
      -- The condition of this subroutine is not one that an earlier turn has put in.
      refine marks.turn now ?_ apart
      intro taken
      rcases List.mem_cons.mp taken with ready | again
      · exact Phase.conditionType_ne_ready phase _ ready
      · obtain ⟨earlier, member, _, same⟩ := mem_turned.mp again
        exact apart earlier member (Phase.conditionType_inj same)

structure Final (phase : Phase) (base : Ledger) (turnouts : List (Turnout σ)) (ledger : Ledger) : Prop where
  distinct : ledger.types.Nodup
  grown : ledger.types = base.types ++ (Condition.ready :: turned phase turnouts).filter (· ∉ base.types)
  reflects : ∀ o ∈ turnouts, Reflects phase ledger o
  others : ∀ type ∉ Condition.ready :: turned phase turnouts, ledger.find? type = base.find? type
  failed : ∀ o ∈ turnouts, ∀ error, o.result = some (.error error) →
    ∃ text, error.Says text ∧ ledger.Shows "Ready" .false "Error" ("The resource has an error: " ++ text)
  done : (∀ o ∈ turnouts, ∀ result, o.result = some result → ∃ outcome, result = .ok outcome ∧ outcome.isDone) →
    ledger.Shows "Ready" .true "Complete" "The resource is ready"
  pending : (∀ o ∈ turnouts, o.failed = false) →
    (∃ o ∈ turnouts, ∃ outcome, o.result = some (.ok outcome) ∧ ¬outcome.isDone) →
    ledger.Shows "Ready" .false "Processing" "The resource is not ready"

theorem Marks.distinct {m : Manager σ} (marks : Marks phase base turnouts ledger) (distinct : base.types.Nodup)
    (order : turnouts.map (·.sub) <+: m.subroutines) : ledger.types.Nodup := by
  have own : (Condition.ready :: turned phase turnouts).Nodup := by
    refine List.nodup_cons.mpr ⟨fun member => ?_, ?_⟩
    · obtain ⟨o, _, _, same⟩ := mem_turned.mp member
      exact Phase.conditionType_ne_ready phase _ same
    · have types := (names_of_order order).1.map (f := phase.conditionType) fun _ _ => Phase.conditionType_inj
      rw [List.map_map] at types
      exact (List.filter_sublist.map _).nodup types
  rw [marks.grown]
  refine List.nodup_append.mpr ⟨distinct, own.filter _, ?_⟩
  rintro type old _ new rfl
  simp [old] at new

theorem Marks.set {new : Condition} (marks : Marks phase base turnouts ledger)
    (there : new.type ∈ Condition.ready :: turned phase turnouts)
    (silent : ∀ o ∈ turnouts, o.failed = false → new.type ≠ phase.conditionType o.sub.name) :
    Marks phase base turnouts (Ledger.set new ledger).1 := by
  have present : new.type ∈ ledger.types := by
    rw [marks.grown]
    by_cases old : new.type ∈ base.types
    · simp [old]
    · exact List.mem_append_right _ (List.mem_filter.mpr ⟨there, by simpa using old⟩)
  refine ⟨(Ledger.types_set_of_mem present).trans marks.grown, fun o member fine => ?_, fun type other => ?_⟩
  · exact (marks.reflects o member fine).same (by simp [Ledger.find?_set, silent o member fine])
  · have apart : new.type ≠ type := fun same => other (same ▸ there)
    simpa [Ledger.find?_set, apart] using marks.others type other

theorem Marks.ready (marks : Marks phase base turnouts ledger) (status : ConditionStatus) (reason message : String)
    (now : Timestamp) :
    Marks phase base turnouts (Ledger.set ⟨Condition.ready, status, reason, message, now⟩ ledger).1 :=
  marks.set List.mem_cons_self fun o _ _ => (Phase.conditionType_ne_ready phase o.sub.name).symm

theorem final_of_progress {fetched : Workspace} {todo : List (Subroutine σ)} {outcome : Outcome}
    (managed : c.manager.conditions = true) (steady : c.manager.StepsKeep Workspace.conditions)
    (distinct : fetched.conditions.types.Nodup) (progress : Progress c now fetched turnouts w todo outcome)
    (status : ConditionStatus) (sum : status = if outcome.isDone then .true else .false) :
    Final fetched.phase fetched.conditions turnouts (Ledger.setReady now status w.conditions).1 := by
  have order : turnouts.map (·.sub) <+: c.manager.subroutines := ⟨todo, progress.order.symm⟩
  have marks := (marks_of_sweeps managed steady order progress.chain).ready status (Ledger.readyReason status)
    (Ledger.readyMessage status) now
  have shows := Ledger.shows_set ⟨Condition.ready, status, Ledger.readyReason status, Ledger.readyMessage status, now⟩
    w.conditions
  have clean : ∀ o ∈ turnouts, ∀ error, o.result ≠ some (.error error) := by
    intro o member error result
    simpa [Turnout.failed, result] using progress.clean o member
  refine ⟨marks.distinct distinct order, marks.grown, fun o member => ?_, marks.others, fun o member error result => ?_,
    fun done => ?_, fun _ pending => ?_⟩
  · exact marks.reflects o member (progress.clean o member)
  · exact absurd result (clean o member error)
  · have all : outcome.isDone = true := by
      rw [progress.asked, isDone_merged]
      intro o member outcome result
      obtain ⟨_, same, done⟩ := done o member _ result
      cases same
      exact done
    obtain rfl : status = .true := by simpa [all] using sum
    exact shows
  · have some : outcome.isDone = false := by
      obtain ⟨o, member, asked, result, undone⟩ := pending
      rw [progress.asked, Bool.eq_false_iff]
      intro all
      exact undone (isDone_merged.mp all o member asked result)
    obtain rfl : status = .false := by simpa [some] using sum
    exact shows

theorem final_of_broken {fetched : Workspace} {subroutine : String} {error : Error}
    (managed : c.manager.conditions = true) (steady : c.manager.StepsKeep Workspace.conditions)
    (distinct : fetched.conditions.types.Nodup) (broken : Broken c now fetched turnouts subroutine error w) :
    Final fetched.phase fetched.conditions turnouts
      (Ledger.setReadyError now error.failureMessage
        (Ledger.failed now subroutine fetched.phase error.failureMessage w.conditions).1).1 := by
  obtain ⟨past, o, todo, outcome, rfl, progress, turns, rfl, result, rfl⟩ := broken
  have order : (past ++ [o]).map (·.sub) <+: c.manager.subroutines := ⟨todo, by simp [progress.order]⟩
  have only : ∀ other ∈ past ++ [o], other.failed = true → other = o := by
    intro other member bad
    rcases List.mem_append.mp member with earlier | last
    · simp [progress.clean other earlier] at bad
    · exact List.mem_singleton.mp last
  have apart : ∀ other ∈ past ++ [o], other.failed = false →
      fetched.phase.conditionType o.sub.name ≠ fetched.phase.conditionType other.sub.name := by
    intro other member fine same
    rcases List.mem_append.mp member with earlier | last
    · exact name_ne_of_order order other earlier (Phase.conditionType_inj same).symm
    · obtain rfl := List.mem_singleton.mp last
      simp [Turnout.failed, result] at fine
  have took : fetched.phase.conditionType o.sub.name ∈ Condition.ready :: turned fetched.phase (past ++ [o]) :=
    List.mem_cons_of_mem _ (mem_turned.mpr ⟨o, by simp, by simp [result], rfl⟩)
  -- The two entries that tell of the error are changed after the turns; the others are as these have left them.
  have swept := marks_of_sweeps managed steady order (progress.chain.turn progress.clean turns)
  have marks : Marks fetched.phase fetched.conditions (past ++ [o])
      (Ledger.failed now o.sub.name fetched.phase error.failureMessage o.left.conditions).1 := swept.set took apart
  have final := marks.ready .false Ledger.errorReason ("The resource has an error: " ++ error.failureMessage) now
  refine ⟨final.distinct distinct order, final.grown, fun other member => ?_, final.others,
    fun other member failure bad => ?_, fun done => ?_, fun clean => ?_⟩
  · rcases fine : other.failed with _ | _
    · exact final.reflects other member fine
    · obtain rfl := only other member fine
      simp only [Reflects, result]
      exact ⟨_, error.says_failureMessage, (Ledger.shows_set _ _).set (Phase.conditionType_ne_ready _ _).symm⟩
  · obtain rfl := only other member (by simp [Turnout.failed, bad])
    cases result.symm.trans bad
    exact ⟨_, error.says_failureMessage, Ledger.shows_set _ _⟩
  · obtain ⟨_, same, _⟩ := done o (by simp) _ result
    cases same
  · have fine := clean o (by simp)
    simp [Turnout.failed, result] at fine

theorem final_of_closes {fetched last : Workspace} {verdict : Verdict} (managed : c.manager.conditions = true)
    (steady : c.manager.StepsKeep Workspace.conditions) (distinct : fetched.conditions.types.Nodup)
    (closes : Closes c now fetched turnouts verdict last) :
    Final fetched.phase fetched.conditions turnouts last.conditions := by
  cases closes with
  | broken broken =>
      rw [conditions_amend managed, conditions_amend managed]
      exact final_of_broken managed steady distinct broken
  | whole progress _ =>
      rw [conditions_amend managed]
      exact final_of_progress managed steady distinct progress _ rfl
  | @scheduled outcome w _ next progress due drawn =>
      have done : outcome.isDone = true := by
        simp only [schedules, Bool.and_eq_true] at due
        exact due.1.1
      rw [conditions_amend managed, conditions_scheduleNext? drawn]
      exact final_of_progress managed steady distinct progress _ (by simp [done])

end

section

variable {m : Manager σ} {world : World σ} {id : ResourceId} {s : σ} {read : Moment σ}
variable {c : Cycle σ} {phase : Phase} {now : Timestamp} {sub : Subroutine σ} {fetched found left w last : Workspace}
variable {own closing : List Event} {turnouts : List (Turnout σ)} {t : List (Moment σ)}

def kinds (m : Manager σ) : List String :=
  Condition.ready :: [Phase.process, .finalize].flatMap fun phase =>
    m.subroutines.map fun sub => phase.conditionType sub.name

theorem nodup_kinds (m : Manager σ) : (kinds m).Nodup := by
  have one (phase : Phase) : (m.subroutines.map fun sub => phase.conditionType sub.name).Nodup := by
    have types := m.names_nodup.map (f := phase.conditionType) fun _ _ => Phase.conditionType_inj
    rwa [List.map_map] at types
  simp only [kinds, List.flatMap_cons, List.flatMap_nil, List.append_nil]
  refine List.nodup_cons.mpr ⟨fun member => ?_, List.nodup_append.mpr ⟨one _, one _, ?_⟩⟩
  · rcases List.mem_append.mp member with live | condemned
    · obtain ⟨sub, _, same⟩ := List.mem_map.mp live
      exact Phase.conditionType_ne_ready _ _ same
    · obtain ⟨sub, _, same⟩ := List.mem_map.mp condemned
      exact Phase.conditionType_ne_ready _ _ same
  · rintro type live other condemned rfl
    obtain ⟨a, _, first⟩ := List.mem_map.mp live
    obtain ⟨b, _, second⟩ := List.mem_map.mp condemned
    simpa using Phase.phase_of_conditionType (first.trans second.symm)

-- The status is written with what it has become, if that is not what it was; only if the reconcile had failed and was
-- cancelled by its end, the write may be missing.
structure Stored (world : World σ) (fetched last : Workspace) (turnouts : List (Turnout σ)) (t : List (Moment σ))
    (s : σ) : Prop where
  given : ∀ moment ∈ t, ∀ given answer, moment.event = .statusUpdated given answer →
    given = last ∧ last.currentStatus ≠ fetched.currentStatus
  written : last.currentStatus ≠ fetched.currentStatus →
    (∃ moment ∈ t, ∃ answer, moment.event = .statusUpdated last answer) ∨
      (world.cancelled s = true ∧ ∃ o ∈ turnouts, o.failed = true)

theorem not_statusUpdated_of_turns {result : Option (Except Error Outcome)}
    (turns : Turns c phase now sub found own result left) (given : Workspace)
    (answer : Option (Except Error Workspace)) : .statusUpdated given answer ∉ own := by
  have persisted {changed : Workspace × Bool} {writes : List Event} {w : Workspace}
      (persisted : Persisted changed writes w) : .statusUpdated given answer ∉ writes := by
    cases persisted <;> simp
  cases turns with
  | passed | unregistered | unreleased => simp
  | taken _ taken =>
      cases taken with
      | processed _ before _ => simpa using persisted before
      | finalized _ _ after => simpa using persisted after

theorem not_statusUpdated_of_begun (recounts : Recounts c id now fetched t turnouts closing) (given : Workspace)
    (answer : Option (Except Error Workspace)) : .statusUpdated given answer ∉ begun id fetched turnouts := by
  obtain ⟨left, sweeps⟩ := recounts.swept
  intro member
  rcases List.mem_cons.mp member with read | turn
  · simp at read
  · obtain ⟨o, among, called⟩ := List.mem_flatMap.mp turn
    exact not_statusUpdated_of_turns (sweeps.turns among) given answer called

theorem status_of_kept {writes : List Event} (kept : StatusKept fetched last writes w) (given : Workspace)
    (answer : Option (Except Error Workspace)) :
    (.statusUpdated given answer ∈ writes → given = last ∧ last.currentStatus ≠ fetched.currentStatus) ∧
      (last.currentStatus ≠ fetched.currentStatus → ∃ answer, .statusUpdated last answer ∈ writes) := by
  cases kept with
  | same same => simp [same]
  | stored differs => simp_all
  | gone differs _ => simp_all

theorem status_of_closing {verdict : Verdict} {result : Except Stop Finished}
    (closes : Closes c now fetched turnouts verdict last) (close : Closing c fetched last s verdict closing result)
    (given : Workspace) (answer : Option (Except Error Workspace)) :
    (.statusUpdated given answer ∈ closing → given = last ∧ last.currentStatus ≠ fetched.currentStatus) ∧
      (last.currentStatus ≠ fetched.currentStatus → (∃ answer, .statusUpdated last answer ∈ closing) ∨
        (c.world.cancelled s = true ∧ ∃ o ∈ turnouts, o.failed = true)) := by
  cases close with
  | refused differs _ => simp_all
  | failed kept | finished kept _ =>
      obtain ⟨same, written⟩ := status_of_kept kept given answer
      exact ⟨same, fun differs => .inl (written differs)⟩
  | unlabelled kept _ | labelled kept _ =>
      obtain ⟨same, written⟩ := status_of_kept kept given answer
      refine ⟨fun member => same (by simpa using member), fun differs => .inl ?_⟩
      obtain ⟨stored, member⟩ := written differs
      exact ⟨stored, by simp [member]⟩
  | cutOff stopped differs start =>
      refine ⟨fun member => ?_, fun _ => .inr ⟨stopped, closes.failed⟩⟩
      rcases start with rfl | rfl
      · simp at member
      · simp_all

theorem stored_of_closing {verdict : Verdict} {result : Except Stop Finished}
    (closes : Closes c now fetched turnouts verdict last) (close : Closing c fetched last s verdict closing result)
    (made : calls t = begun id fetched turnouts ++ closing) : Stored c.world fetched last turnouts t s := by
  have recounts := closes.recounts made
  -- A write of the status is a call, so it is one of the turns or of the close, and the turns have none.
  have member (event : Event) (call : event.isCall = true) :
      (∃ moment ∈ t, moment.event = event) ↔ event ∈ begun id fetched turnouts ++ closing := by
    rw [← made]
    simp [calls, call]
  refine ⟨fun moment among given answer written => ?_, fun differs => ?_⟩
  · rcases List.mem_append.mp ((member _ rfl).mp ⟨moment, among, written⟩) with early | late
    · exact absurd early (not_statusUpdated_of_begun recounts given answer)
    · exact (status_of_closing closes close given answer).1 late
  · rcases (status_of_closing closes close last none).2 differs with ⟨answer, late⟩ | stopped
    · obtain ⟨moment, among, written⟩ := (member (.statusUpdated last answer) rfl).mpr (List.mem_append_right _ late)
      exact .inl ⟨moment, among, answer, written⟩
    · exact .inr stopped

/-- The ledger that a reconcile ends with tells of every turn how it has ended, and of all of them together; its other
entries are those that were found. -/
theorem final_ledger (managed : m.conditions = true) (steady : m.StepsKeep Workspace.conditions)
    (found : Finds id (m.attempt world id s).trace read w) (distinct : (w.conditions.map (·.type)).Nodup)
    (due : ∀ outcome, (m.attempt world id s).value ≠ .ok (.skipped outcome))
    (returned : ∀ stop, (m.attempt world id s).value = .error stop →
      ∃ error, stop = .error error ∧ error ≠ .cancelled) :
    ∃ turnouts closing last,
      Recounts (m.cycle world id (world.correlate s).1) id (world.now read.after) w (m.attempt world id s).trace
        turnouts closing ∧
      Final w.phase w.conditions turnouts last.conditions ∧
      Stored world w last turnouts (m.attempt world id s).trace (m.attempt world id s).state ∧ (kinds m).Nodup := by
  obtain ⟨turnouts, closing, account, made⟩ := Manager.attempt_accounts found due
  generalize (m.attempt world id s).value = value at account returned
  -- Without a close there is no write of the status, and the reconcile was cancelled or could not date the next one.
  cases account with
  | cancelled => simpa using returned _ rfl
  | dropped => simpa using returned _ rfl
  | beyond => simpa using returned _ rfl
  | closed closes close =>
      exact ⟨turnouts, closing, _, closes.recounts made, final_of_closes managed steady distinct closes,
        stored_of_closing closes close made, nodup_kinds m⟩

end

section

open Reconciler.Shelf

def denial : OperatorError :=
  .permanent (.text "quota exceeded")

def deny (w : Workspace) (_ : Shelf site) : StepAnswer :=
  { workspace := w, result := .error denial }

def staff : Manager (Shelf site) where
  operator := "converge"
  controller := "workspaces"
  subroutines := [worker "dns" [] leave leave, worker "quota" [] deny leave, worker "mail" [] leave leave]
  conditions := true
  faultless := by decide

def mail : Condition :=
  ⟨"mail_Ready", .true, Ledger.completeReason, "The subroutine is complete", .epoch⟩

def served : Workspace :=
  { web with status := some { conditions := [mail] } }

def denied : Ran (Shelf site) (Except Stop Finished) :=
  staff.attempt (Shelf.world site) site (stocked served [] .epoch)

theorem final_ledger_denied :
    denied.value = .error (.error (.subroutine "quota" denial)) ∧
      ∃ read turnouts closing last,
        Finds site denied.trace read (served.setResourceVersion (some "1")) ∧
        Recounts (staff.cycle (Shelf.world site) site "") site .epoch (served.setResourceVersion (some "1"))
          denied.trace turnouts closing ∧
        Final .process [mail] turnouts last.conditions ∧
        Stored (Shelf.world site) (served.setResourceVersion (some "1")) last turnouts denied.trace denied.state := by
  have value : denied.value = .error (.error (.subroutine "quota" denial)) := by decide +kernel
  have steady : staff.StepsKeep Workspace.conditions := by
    intro sub member phase w s answer s' ends
    simp only [staff, List.mem_cons, List.not_mem_nil, or_false] at member
    rcases member with rfl | rfl | rfl <;> obtain ⟨_, same | same⟩ := answer_of_worker ends <;> cases same <;> rfl
  have found : Finds site denied.trace (denied.trace.get ⟨1, by decide +kernel⟩)
      (served.setResourceVersion (some "1")) := finds_get (by decide +kernel)
  have due : ∀ outcome, denied.value ≠ .ok (.skipped outcome) := by simp [value]
  have returned : ∀ stop, denied.value = .error stop → ∃ error, stop = .error error ∧ error ≠ .cancelled := by
    intro stop ended
    obtain rfl := Except.error.inj (value.symm.trans ended)
    exact ⟨_, rfl, by decide⟩
  obtain ⟨turnouts, closing, last, recounts, final, stored, _⟩ :=
    final_ledger rfl steady found (by decide) due returned
  exact ⟨value, _, turnouts, closing, last, found, recounts, final, stored⟩

end

end FinalLedger

end Reconciler
