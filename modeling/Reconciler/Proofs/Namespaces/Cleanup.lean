import Reconciler.Operator
import Reconciler.Proofs.FinalizerProtocol
import Reconciler.Proofs.Namespaces.Course

set_option autoImplicit false

namespace Reconciler

variable {σ : Type}

namespace NamespaceCleanup

open FinalizerProtocol (present)

def life (rans : List (Ran σ (Except Stop Outcome))) : List (Moment σ) :=
  rans.flatMap (·.trace)

def Frees (d : Deed) : Prop :=
  Namespaces.finalizer ∈ present d.found ∧ Namespaces.finalizer ∉ present d.left

instance (d : Deed) : Decidable (Frees d) :=
  inferInstanceAs (Decidable (_ ∧ _))

def Names (stored : Option Workspace) (name : String) : Prop :=
  ∃ w, stored = some w ∧ w.currentStatus.provided = some name

def JustDeleted (namespaces : Namespaces σ) (name : String) (t : List (Moment σ)) : Prop :=
  ∃ past moment rest, t = past ++ moment :: rest ∧ Deletes namespaces name moment ∧
    ∀ later ∈ rest, later.event.isCall = false

-- The status named it, until a write of the manager put another namespace there that had been applied.
def Replaced (namespaces : Namespaces σ) (t : List (Moment σ)) (name : String) (l l' : Chronicle) : Prop :=
  ∃ past d other, l <+: past ∧ past ++ [d] <+: l' ∧ d.own = true ∧ Names d.found name ∧ Names d.left other ∧
    other ≠ name ∧ ∃ moment ∈ t, Applies namespaces other moment

def Failed (rans : List (Ran σ (Except Stop Outcome))) (moment : Moment σ) : Prop :=
  ∃ ran ∈ rans, moment ∈ ran.trace ∧ ∃ stop, ran.value = .error stop

def Unnamed (name : String) (l l' : Chronicle) : Prop :=
  ∀ mid : Chronicle, l <+: mid → mid <+: l' → ¬Names mid.stored name

section

variable {name : String} {l past more rest : Chronicle} {d : Deed} {w : Workspace}

theorem names_of_keeps (keeps : Keeps (some name) l) (there : l.stored ≠ none) : Names l.stored name := by
  obtain ⟨w, stored⟩ := Option.ne_none_iff_exists'.mp there
  exact ⟨w, stored, keeps w stored⟩

theorem stored_of_found (linked : Chronicle.Linked (l ++ more ++ d :: rest)) (existed : ∀ e ∈ more, e.found ≠ none)
    (found : d.found ≠ none) : l.stored ≠ none := by
  rcases more with _ | ⟨e, more⟩
  · rw [List.append_nil] at linked
    exact linked.found ▸ found
  · have next : e.found = l.stored :=
      Chronicle.Linked.found (show Chronicle.Linked (l ++ e :: (more ++ d :: rest)) by simpa using linked)
    exact next ▸ existed e List.mem_cons_self

theorem exists_change (linked : Chronicle.Linked (l ++ more ++ d :: rest)) (existed : ∀ e ∈ more, e.found ≠ none)
    (named : Names l.stored name) (found : d.found = some w) (other : w.currentStatus.provided ≠ some name) :
    ∃ first e last left, more = first ++ e :: last ∧ Names e.found name ∧ e.left = some left ∧
      left.currentStatus.provided ≠ some name := by
  induction more generalizing l with
  | nil =>
      rw [List.append_nil] at linked
      obtain ⟨v, stored, provided⟩ := named
      rw [linked.found, stored] at found
      exact absurd (Option.some.inj found ▸ provided) other
  | cons e more ih =>
      have next : e.found = l.stored :=
        Chronicle.Linked.found (show Chronicle.Linked (l ++ e :: (more ++ d :: rest)) by simpa using linked)
      have further : Chronicle.Linked (l ++ [e] ++ more ++ d :: rest) := by simpa using linked
      have later : ∀ e ∈ more, e.found ≠ none := fun e member => existed e (List.mem_cons_of_mem _ member)
      by_cases still : Names e.left name
      · obtain ⟨first, e', last, left, rfl, change⟩ := ih further later (by simpa using still)
        exact ⟨e :: first, e', last, left, rfl, change⟩
      · -- This is the deed: it leaves a workspace, because there is one later on.
        have stays := stored_of_found further later (by simp [found])
        rcases left : e.left with _ | v
        · simp [left] at stays
        · exact ⟨[], e, more, v, rfl, next ▸ named, left, fun same => still ⟨v, left, same⟩⟩

end

structure Within (chronicle : σ → Chronicle) (l l' : Chronicle) (moment : Moment σ) : Prop where
  since : l <+: chronicle moment.before
  span : chronicle moment.before <+: chronicle moment.after
  past : chronicle moment.after <+: l'

-- The reconcile of that moment has failed, or else there was a time after it when the status did name this.
def Recalled (rans : List (Ran σ (Except Stop Outcome))) (chronicle : σ → Chronicle) (name : String)
    (moment : Moment σ) (l' : Chronicle) : Prop :=
  Failed rans moment ∨ ∃ l, chronicle moment.after <+: l ∧ l <+: l' ∧ Keeps (some name) l

structure Round (namespaces : Namespaces σ) (chronicle : σ → Chronicle) (s : σ)
    (ran : Ran σ (Except Stop Outcome)) : Prop where
  deeds : Fairly namespaces ran.trace (chronicle s) (chronicle ran.state)
  spans : ∀ moment ∈ ran.trace, Within chronicle (chronicle s) (chronicle ran.state) moment
  told : ∀ outcome, ran.value = .ok outcome → Told namespaces ran.trace (chronicle ran.state)
  freed : Throughout (fun past removed => ∀ d ∈ Chronicle.own (chronicle removed.before) (chronicle removed.after),
    Frees d → (∀ name, Names d.found name → JustDeleted namespaces name past) ∧
      ∀ moment ∈ past, ∀ name, ¬Applies namespaces name moment) ran.trace

section

variable {namespaces : Namespaces σ} {operator : String} {m : Manager σ} {world : World σ} {id : ResourceId}
variable {chronicle : σ → Chronicle} {s start : σ} {t : List (Moment σ)} {fetched : Workspace}

theorem subroutines_of_manager (built : Operator.manager operator namespaces = .ok m) :
    m.subroutines = [namespaces.subroutine] := by
  unfold Operator.manager Manager.build at built
  split at built
  · obtain rfl := Except.ok.inj built
    rfl
  · simp at built

theorem lastCall_split {event : Event} (last : lastCall t = some event) :
    ∃ past moment rest, t = past ++ moment :: rest ∧ moment.event = event ∧
      ∀ later ∈ rest, later.event.isCall = false := by
  induction t using List.reverseRecOn with
  | nil => simp [lastCall] at last
  | append_singleton t moment ih =>
      by_cases call : moment.event.isCall = true
      · rw [lastCall_snoc call] at last
        exact ⟨t, moment, [], rfl, Option.some.inj last, by simp⟩
      · rw [lastCall_snoc_of_not (by simpa using call)] at last
        obtain ⟨past, found, rest, rfl, same, quiet⟩ := ih last
        refine ⟨past, found, rest ++ [moment], by simp, same, fun later member => ?_⟩
        rcases List.mem_append.mp member with earlier | final
        · exact quiet later earlier
        · simpa [List.mem_singleton.mp final] using call

theorem statusOnly (only : m.subroutines = [namespaces.subroutine]) :
    m.StepsKeep fun w => (w.metadata, w.spec) := by
  intro sub member phase w s answer s' ends
  obtain rfl : sub = namespaces.subroutine := by simpa [only] using member
  cases phase with
  | process =>
      rcases process_ends ends with ⟨same, _⟩ | ⟨name, _, _, _, same⟩
      · rw [same]
      · rw [same]
        rfl
  | finalize => rw [(finalize_ends ends).1]

theorem protocol (only : m.subroutines = [namespaces.subroutine])
    (recorded : Recorded m world id chronicle rules) :
    Recorded m world id chronicle (FinalizerProtocol.rules m) := by
  have tokens : FinalizerProtocol.tokens m = [Namespaces.finalizer] := by
    simp [FinalizerProtocol.tokens, only, Namespaces.subroutine]
  refine recorded.mono ?_ ?_ ?_
  · rintro d ⟨stored, found, kept⟩
    refine ⟨stored, found, fun left becomes token member => ?_⟩
    obtain rfl : token = Namespaces.finalizer := by simpa [tokens] using member
    exact (kept left becomes).2
  · rintro given answer d ⟨effective, stored, found, put, _⟩
    exact ⟨effective, by simp [found], put⟩
  · rintro given answer d ⟨effective, stored, left, found, becomes, kept, _⟩
    exact ⟨effective, stored, left, found, becomes, kept⟩

theorem earned_of_reconcile (only : m.subroutines = [namespaces.subroutine])
    (recorded : Recorded m world id chronicle rules) (s : σ) :
    Throughout (FinalizerProtocol.Earned m chronicle) (m.reconcile world id s).trace := by
  have apart : FinalizerProtocol.Apart m := by simp [FinalizerProtocol.Apart, only]
  have fresh : FinalizerProtocol.Guard m chronicle [] [] (chronicle s) :=
    ⟨.nil, .nil, by simp [FinalizerProtocol.owes]⟩
  exact (FinalizerProtocol.guard_of_reconcile apart (statusOnly only) (protocol only recorded) fresh).earned

theorem freed_of_reckoned {past rest : List (Moment σ)} {removed : Moment σ} {before l : Chronicle} {d : Deed}
    (only : m.subroutines = [namespaces.subroutine])
    (reckoned : Reckoned namespaces chronicle fetched before (past ++ removed :: rest) l)
    (earned : FinalizerProtocol.Earned m chronicle past removed)
    (own : d ∈ Chronicle.own (chronicle removed.before) (chronicle removed.after)) (frees : Frees d) :
    (∀ name, Names d.found name → JustDeleted namespaces name past) ∧
      ∀ moment ∈ past, ∀ name, ¬Applies namespaces name moment := by
  obtain ⟨updated, event, last, clean⟩ := earned d own namespaces.subroutine (by simp [only]) Namespaces.finalizer
    (by simp [Namespaces.subroutine]) frees.1 frees.2
  obtain ⟨first, cleaned, quiet, rfl, rfl, still⟩ := lastCall_split last
  obtain ⟨given, answer, outcome, stepped, result, done⟩ := Event.exists_of_cleans clean
  -- The clean-up was taken for a workspace that is being deleted, with the name that was fetched.
  obtain ⟨phase, same, ends⟩ := reckoned.steps cleaned (by simp) _ _ _ _ stepped
  have deleted := isBeingDeleted_iff_phase.mp phase.symm
  constructor
  · rintro other ⟨stored, found, provided⟩
    have kept := reckoned.updates removed (by simp) updated deleted d own stored found
    have named : given.currentStatus.provided = some other := same.trans (kept.symm.trans provided)
    have deletes := (finalize_ends ends).2 outcome other result done named
    exact ⟨first, cleaned, quiet, rfl, ⟨given, answer, stepped, named, deletes⟩, still⟩
  · rintro moment member other ⟨given, answer, event, _⟩
    obtain ⟨processes, _⟩ := reckoned.steps moment (List.mem_append_left _ member) _ _ _ _ event
    simp [← phase] at processes

theorem reckoned_of_reconcile (only : m.subroutines = [namespaces.subroutine])
    (recorded : Recorded m world id chronicle rules) (s : σ) :
    ∃ fetched, Reckoned namespaces chronicle fetched (chronicle (world.correlate s).2) (m.reconcile world id s).trace
      (chronicle (m.reconcile world id s).state) := by
  obtain ⟨now, fetched, left, course⟩ := m.attempt_course world id s
  rw [(m.reconcile_attempt world id s).1]
  refine ⟨fetched, Manager.reconcile_of_attempt (P := (Reckoned namespaces chronicle fetched _ · _))
    (reckoned_of_course recorded only course) fun _ _ _ reckoned => ?_⟩
  exact reckoned.idle (by simp) (by simp) (.refl _ _)

theorem round_of_reconcile (only : m.subroutines = [namespaces.subroutine])
    (recorded : Recorded m world id chronicle rules) (s : σ) :
    Round namespaces chronicle s (m.reconcile world id s) := by
  obtain ⟨now, fetched, left, course⟩ := m.attempt_course world id s
  obtain ⟨state, metrics, trace⟩ := m.reconcile_attempt world id s
  obtain ⟨found, reckoned⟩ := reckoned_of_reconcile only recorded s
  have known := known_of_course only recorded course
  have grown := (course.grown recorded).1
  have first : chronicle s <+: chronicle (world.correlate s).2 := (recorded.correlate s).grows
  refine ⟨?_, fun moment member => ?_, fun outcome ended => ?_, fun past removed rest split d own frees => ?_⟩
  · exact (fairly_of_drifts namespaces _ (recorded.correlate s)).trans reckoned.deeds
  · rw [trace] at member
    rw [state]
    rcases List.mem_append.mp member with earlier | counted
    · obtain ⟨since, span⟩ := grown.since moment earlier
      exact ⟨first.trans since, span, grown.past moment earlier⟩
    · obtain ⟨metric, _, rfl⟩ := List.mem_map.mp counted
      exact ⟨first.trans grown.whole, List.prefix_rfl, List.prefix_rfl⟩
  · rw [m.value_reconcile] at ended
    rw [trace, state]
    have unstepped : Unstepped (metrics.map fun metric =>
        (⟨.counted metric, (m.attempt world id s).state, (m.attempt world id s).state⟩ : Moment σ)) :=
      unstepped_of_quiet (by simp [Event.isCall])
    refine Told.append ?_ unstepped
    rcases value : (m.attempt world id s).value with stop | _ | skipped | reached
    · simp [value, Except.map] at ended
    · rw [value] at known
      exact told_of_unstepped known _
    · rw [value] at known
      exact told_of_unstepped known _
    · rw [value] at known
      exact known
  · rw [split] at reckoned
    exact freed_of_reckoned only reckoned (earned_of_reconcile only recorded s past removed rest split) own frees

end

structure Story (namespaces : Namespaces σ) (chronicle : σ → Chronicle) (start : σ)
    (rans : List (Ran σ (Except Stop Outcome))) (s : σ) : Prop where
  deeds : Fairly namespaces (life rans) (chronicle start) (chronicle s)
  spans : ∀ moment ∈ life rans, Within chronicle (chronicle start) (chronicle s) moment
  told : ∀ moment ∈ life rans, ∀ name, Applies namespaces name moment →
    Recalled rans chronicle name moment (chronicle s)
  freed : Throughout (fun past removed => ∀ d ∈ Chronicle.own (chronicle removed.before) (chronicle removed.after),
    Frees d → (∀ name, Names d.found name → JustDeleted namespaces name past) ∧
      ∀ moment ∈ past, ∀ name, Applies namespaces name moment →
        Recalled rans chronicle name moment (chronicle removed.before)) (life rans)

section

variable {namespaces : Namespaces σ} {m : Manager σ} {world : World σ} {id : ResourceId}
variable {chronicle : σ → Chronicle} {s s' start : σ} {rans : List (Ran σ (Except Stop Outcome))}

theorem Within.widen {l l' before after : Chronicle} {moment : Moment σ} (within : Within chronicle l l' moment)
    (early : before <+: l) (late : l' <+: after) : Within chronicle before after moment :=
  ⟨early.trans within.since, within.span, within.past.trans late⟩

theorem Recalled.later {name : String} {moment : Moment σ} {l l' : Chronicle}
    (recalled : Recalled rans chronicle name moment l) (grows : l <+: l') :
    Recalled rans chronicle name moment l' := by
  rcases recalled with failed | ⟨there, after, bounded, keeps⟩
  · exact .inl failed
  · exact .inr ⟨there, after, bounded.trans grows, keeps⟩

theorem Recalled.more {name : String} {moment : Moment σ} {l : Chronicle}
    (recalled : Recalled rans chronicle name moment l) (ran : Ran σ (Except Stop Outcome)) :
    Recalled (rans ++ [ran]) chronicle name moment l := by
  rcases recalled with ⟨other, member, rest⟩ | kept
  · exact .inl ⟨other, List.mem_append_left _ member, rest⟩
  · exact .inr kept

theorem Round.recalled {ran : Ran σ (Except Stop Outcome)} (round : Round namespaces chronicle s ran)
    (rans : List (Ran σ (Except Stop Outcome))) {moment : Moment σ} (member : moment ∈ ran.trace) {name : String}
    (applied : Applies namespaces name moment) :
    Recalled (rans ++ [ran]) chronicle name moment (chronicle ran.state) := by
  rcases value : ran.value with stop | outcome
  · exact .inl ⟨ran, by simp, member, stop, value⟩
  · exact .inr ⟨chronicle ran.state, (round.spans moment member).past, List.prefix_rfl,
      round.told outcome value moment member name applied⟩

theorem life_snoc (rans : List (Ran σ (Except Stop Outcome))) (ran : Ran σ (Except Stop Outcome)) :
    life (rans ++ [ran]) = life rans ++ ran.trace := by
  simp [life]

theorem Story.drift (story : Story namespaces chronicle start rans s)
    (drifts : Chronicle.Drifts rules.others (chronicle s) (chronicle s')) :
    Story namespaces chronicle start rans s' := by
  have grows := drifts.grows
  refine ⟨story.deeds.trans (fairly_of_drifts namespaces (life rans) drifts), fun moment member => ?_,
    fun moment member name applied => ?_, story.freed⟩
  · exact (story.spans moment member).widen List.prefix_rfl grows
  · exact (story.told moment member name applied).later grows

theorem JustDeleted.later {name : String} {t : List (Moment σ)} (deleted : JustDeleted namespaces name t)
    (past : List (Moment σ)) : JustDeleted namespaces name (past ++ t) := by
  obtain ⟨first, moment, rest, rfl, deletes, quiet⟩ := deleted
  exact ⟨past ++ first, moment, rest, by simp, deletes, quiet⟩

theorem Story.reconcile {ran : Ran σ (Except Stop Outcome)} (story : Story namespaces chronicle start rans s)
    (round : Round namespaces chronicle s ran) : Story namespaces chronicle start (rans ++ [ran]) ran.state := by
  have base := story.deeds.grows
  have grows := round.deeds.grows
  refine ⟨?_, ?_, ?_, ?_⟩ <;> rw [life_snoc]
  · exact (story.deeds.more fun moment among => List.mem_append_left _ among).trans
      (round.deeds.more fun moment among => List.mem_append_right _ among)
  · intro moment member
    rcases List.mem_append.mp member with earlier | later
    · exact (story.spans moment earlier).widen List.prefix_rfl grows
    · exact (round.spans moment later).widen base List.prefix_rfl
  · intro moment member name applied
    rcases List.mem_append.mp member with earlier | later
    · exact ((story.told moment earlier name applied).later grows).more ran
    · exact round.recalled rans later applied
  · refine Throughout.append ?_ ?_ <;> intro past removed rest split d own frees
    · obtain ⟨gone, told⟩ := story.freed past removed rest split d own frees
      exact ⟨gone, fun moment member name applied => (told moment member name applied).more ran⟩
    · obtain ⟨gone, idle⟩ := round.freed past removed rest split d own frees
      have since := (round.spans removed (by simp [split])).since
      refine ⟨fun name named => (gone name named).later _, fun moment member name applied => ?_⟩
      -- What this reconcile has applied before, it has not: it has cleaned up instead.
      rcases List.mem_append.mp member with earlier | later
      · exact ((story.told moment earlier name applied).later since).more ran
      · exact absurd applied (idle moment later name)

theorem story_of_rounds (only : m.subroutines = [namespaces.subroutine])
    (recorded : Recorded m world id chronicle rules) (rounds : Rounds m world id chronicle rules.others start rans s) :
    Story namespaces chronicle start rans s := by
  induction rounds with
  | start => exact ⟨.refl _ _ _, by simp [life], by simp [life], .nil⟩
  | meantime _ drifts ih => exact ih.drift drifts
  | reconcile _ ih => exact ih.reconcile (round_of_reconcile only recorded _)

theorem Applies.isCall {name : String} {moment : Moment σ} (applies : Applies namespaces name moment) :
    moment.event.isCall = true := by
  obtain ⟨given, answer, event, _⟩ := applies
  rw [event]
  rfl

theorem Applies.ne_of_deletes {name : String} {a b : Moment σ} (applies : Applies namespaces name a)
    (deletes : Deletes namespaces name b) : a ≠ b := by
  obtain ⟨given, answer, event, _⟩ := applies
  obtain ⟨given', answer', event', _⟩ := deletes
  rintro rfl
  simp [event] at event'

theorem own_split {l l' : Chronicle} {d : Deed} (span : l <+: l') (own : d ∈ Chronicle.own l l') :
    ∃ first last, l' = l ++ first ++ d :: last := by
  obtain ⟨more, rfl⟩ := span
  have member : d ∈ more := by
    have kept := (List.mem_filter.mp own).1
    rwa [List.drop_left] at kept
  obtain ⟨first, last, rfl⟩ := List.append_of_mem member
  exact ⟨first, last, by simp⟩

theorem Story.fair (story : Story namespaces chronicle start rans s) {l more : Chronicle}
    (base : chronicle start <+: l) (bounded : l ++ more <+: chronicle s) :
    ∀ d ∈ more, Fair namespaces (life rans) d := by
  obtain ⟨all, whole, fair⟩ := story.deeds
  obtain ⟨before, rfl⟩ := base
  obtain ⟨after, rest⟩ := bounded
  rw [whole, List.append_assoc, List.append_assoc] at rest
  intro d member
  exact fair d (by simp [← List.append_cancel_left rest, member])

theorem Story.onward (story : Story namespaces chronicle start rans s) {removed : Moment σ}
    (among : removed ∈ life rans) {d : Deed}
    (own : d ∈ Chronicle.own (chronicle removed.before) (chronicle removed.after)) {mid : Chronicle}
    (base : chronicle start <+: mid) (before : mid <+: chronicle removed.before) :
    ∃ more rest, chronicle removed.after = mid ++ more ++ d :: rest ∧ ∀ e ∈ more, Fair namespaces (life rans) e := by
  obtain ⟨_, span, bounded⟩ := story.spans removed among
  obtain ⟨first, rest, whole⟩ := own_split span own
  obtain ⟨late, ends⟩ := before
  have total : chronicle removed.after = mid ++ (late ++ first) ++ d :: rest := by
    rw [whole, ← ends]
    simp
  refine ⟨late ++ first, rest, total, story.fair base (List.IsPrefix.trans ?_ bounded)⟩
  rw [total]
  exact List.prefix_append _ _

theorem mem_between {past between before mid : List (Moment σ)} {a b : Moment σ}
    (split : past ++ a :: between = before ++ b :: mid) (apart : a ≠ b) (earlier : a ∉ mid) : b ∈ between := by
  rcases List.append_eq_append_iff.mp split with ⟨more, rfl, rest⟩ | ⟨more, rfl, rest⟩
  · rcases more with _ | ⟨first, more⟩
    · exact absurd (List.cons.inj rest).1 apart
    · obtain ⟨rfl, rfl⟩ := List.cons.inj rest
      simp
  · have there : a ∈ b :: mid := by simp [rest]
    rcases List.mem_cons.mp there with same | later
    · exact absurd same apart
    · exact absurd later earlier

/-- Whenever the manager takes its token off a workspace, the namespace that the status names is gone. Every other one
that it has applied before is gone as well, or else the status does not know of it: another one that was applied took
its place there, or the reconcile that applied it failed to write it down, and none has written it down since. -/
theorem deleted_or_forgotten {operator : String} (built : Operator.manager operator namespaces = .ok m)
    (recorded : Recorded m world id chronicle rules) (rounds : Rounds m world id chronicle rules.others start rans s)
    {past rest : List (Moment σ)} {removed : Moment σ} (split : life rans = past ++ removed :: rest) {d : Deed}
    (own : d ∈ Chronicle.own (chronicle removed.before) (chronicle removed.after)) (frees : Frees d) :
    (∀ name, Names d.found name → JustDeleted namespaces name past) ∧
      ∀ earlier applied between name, past = earlier ++ applied :: between → Applies namespaces name applied →
        (∃ moment ∈ between, Deletes namespaces name moment) ∨
          Replaced namespaces (life rans) name (chronicle applied.after) (chronicle removed.after) ∨
          (Unnamed name (chronicle applied.after) (chronicle removed.before) ∧ Failed rans applied) := by
  have story := story_of_rounds (subroutines_of_manager built) recorded rounds
  obtain ⟨gone, told⟩ := story.freed past removed rest split d own frees
  refine ⟨gone, ?_⟩
  rintro earlier applied between name rfl applies
  obtain ⟨stored, found⟩ : ∃ stored, d.found = some stored := by
    rcases found : d.found with _ | stored
    · simp [Frees, FinalizerProtocol.present, found] at frees
    · exact ⟨stored, rfl⟩
  by_cases named : stored.currentStatus.provided = some name
  · -- The clean-up right before has deleted it.
    obtain ⟨first, moment, mid, whole, deletes, quiet⟩ := gone name ⟨stored, found, named⟩
    refine .inl ⟨moment, mem_between whole (applies.ne_of_deletes deletes) fun later => ?_, deletes⟩
    exact absurd (quiet applied later) (by simp [applies.isCall])
  · have since : chronicle start <+: chronicle applied.after := by
      obtain ⟨since, span, _⟩ := story.spans applied (by simp [split])
      exact since.trans span
    have among : removed ∈ life rans := by simp [split]
    have linked := recorded.linked removed.after
    right
    by_cases never : Unnamed name (chronicle applied.after) (chronicle removed.before)
    · refine .inr ⟨never, ?_⟩
      rcases told applied (by simp) name applies with failed | ⟨l, after, before, keeps⟩
      · exact failed
      · -- A reconcile that has not failed has written the name down, and the workspace was there until the deed.
        obtain ⟨more, rest, total, fair⟩ := story.onward among own (since.trans after) before
        rw [total] at linked
        have there := stored_of_found linked (fun e member => (fair e member).found) (by simp [found])
        exact absurd (names_of_keeps keeps there) (never l after before)
    · left
      simp only [Unnamed, not_forall, not_not] at never
      obtain ⟨mid, after, before, once⟩ := never
      obtain ⟨more, rest, total, fair⟩ := story.onward among own (since.trans after) before
      rw [total] at linked ⊢
      obtain ⟨first, e, last, left, rfl, ⟨v, was, had⟩, becomes, lost⟩ :=
        exists_change linked (fun e member => (fair e member).found) once found named
      rcases (fair e (by simp)).provided v left was becomes with same | ⟨mine, other, put, applies⟩
      · exact absurd (same.trans had) lost
      · refine ⟨mid ++ first, e, other, after.trans (List.prefix_append _ _), ⟨last ++ d :: rest, by simp⟩, mine,
          ⟨v, was, had⟩, ⟨left, becomes, put⟩, ?_, applies⟩
        rintro rfl
        exact lost put

end

section

open Reconciler.Shelf

def provider : Namespaces (Shelf site) where
  apply _ _ shelf := .done (.ok ()) shelf
  delete _ shelf := .done (.ok true) shelf

def keeper : Manager (Shelf site) where
  toSetup := Operator.setup "converge" provider
  faultless := by decide

theorem built_keeper : Operator.manager "converge" provider = .ok keeper := by
  unfold Operator.manager Manager.build
  split
  · rfl
  · rename_i fault faulty
    exact absurd (faulty.symm.trans keeper.faultless) (by simp)

theorem provider_keeps {phase : Phase} {w : Workspace} {s s' : Shelf site} {answer : Option StepAnswer}
    (ends : (provider.subroutine.step phase w s).Ends answer s') : s' = s := by
  cases phase with
  | process =>
      simp only [Subroutine.step, Namespaces.subroutine, Namespaces.process] at ends
      split at ends <;> exact (Call.ends_done ends).2
  | finalize =>
      simp only [Subroutine.step, Namespaces.subroutine, Namespaces.finalize] at ends
      split at ends <;> exact (Call.ends_done ends).2

theorem recorded_keeper : Recorded keeper (Shelf.world site) site Shelf.chronicle rules := by
  have shelved := Shelf.recorded keeper fun sub member phase w s answer s' ends => by
    obtain rfl : sub = provider.subroutine := by simpa [keeper, Operator.setup] using member
    rw [provider_keeps ends]
    exact .refl _ _
  refine shelved.mono ?_ ?_ ?_
  · rintro d ⟨edit, stored, version, found, stays, written⟩
    refine ⟨stored, found, fun left last => ?_⟩
    obtain rfl : _ = left := by simpa [Deed.left, stays, written] using last
    cases edit <;> exact ⟨rfl, Iff.rfl⟩
  · rintro given answer d ⟨store, stored, found, _, rfl, written, leaves⟩
    refine ⟨by simp, stored, found, ?_, fun left becomes => ?_⟩
    · by_cases gone : (stored.isBeingDeleted && given.finalizers.isEmpty) = true
      · have none : given.finalizers = [] := by simp_all
        simp [Deed.left, leaves.trans gone, none]
      · simp only [Deed.left, leaves, gone, written]
        rfl
    · obtain rfl := Option.some.inj ((Deed.written_of_left becomes).symm.trans written)
      rfl
  · rintro given answer d ⟨store, stored, found, _, rfl, written, stays⟩
    exact ⟨by simp, stored, store.restated stored given, found, by simp [Deed.left, stays, written], rfl, .inl rfl⟩

def first : Ran (Shelf site) (Except Stop Outcome) :=
  keeper.reconcile (Shelf.world site) site (stocked web [none, none, none, some (.condemn .epoch)] .epoch)

def second : Ran (Shelf site) (Except Stop Outcome) :=
  keeper.reconcile (Shelf.world site) site first.state

theorem applies_of_starts {moment : Moment (Shelf site)} {w : Workspace} (member : moment ∈ life [first, second])
    (start : moment.event.starts "namespace" = true) (given : moment.event.given? = some w)
    (target : Text.trim w.spec.target = "web") : Applies provider "web" moment := by
  obtain ⟨fetched, steps⟩ : ∃ fetched, Stepped provider fetched moment.event moment.before moment.after := by
    have reckoned := reckoned_of_reconcile (subroutines_of_manager built_keeper) recorded_keeper
    rcases List.mem_append.mp (by simpa [life] using member) with early | late
    · obtain ⟨fetched, before⟩ := reckoned (stocked web [none, none, none, some (.condemn .epoch)] .epoch)
      exact ⟨fetched, before.steps moment early⟩
    · obtain ⟨fetched, after⟩ := reckoned first.state
      exact ⟨fetched, after.steps moment late⟩
  unfold Event.starts at start
  split at start
  · rename_i name v answer event
    obtain rfl := of_decide_eq_true start
    obtain rfl : v = w := by simpa [event, Event.given?] using given
    obtain ⟨_, _, ends⟩ := steps _ _ _ _ event
    simp only [Subroutine.step, Namespaces.subroutine, Namespaces.process, target] at ends
    obtain ⟨rfl, same⟩ := Call.ends_done ends
    exact ⟨v, _, event, target, by decide, same ▸ .done _ _⟩
  · simp at start

theorem life_splits :
    ∃ past applied between removed rest, life [first, second] = past ++ applied :: between ++ removed :: rest ∧
      applied.event.starts "namespace" = true ∧
      (applied.event.given?.map (Text.trim ·.spec.target)) = some "web" ∧
      ∃ d ∈ Chronicle.own removed.before.chronicle removed.after.chronicle, Frees d ∧
        d.found.bind (·.currentStatus.provided) = some "web" :=
  ⟨_, _, _, _, _, split_at (by decide : 5 < 21) (by decide +kernel), by decide +kernel, by decide +kernel,
    by decide +kernel⟩

theorem two_rounds :
    Rounds keeper (Shelf.world site) site Shelf.chronicle rules.others
      (stocked web [none, none, none, some (.condemn .epoch)] .epoch) [first, second] second.state := by
  have one : Rounds keeper (Shelf.world site) site Shelf.chronicle rules.others
      (stocked web [none, none, none, some (.condemn .epoch)] .epoch) ([] ++ [first]) first.state := .reconcile .start
  exact one.reconcile

theorem deleted_or_forgotten_web :
    second.state.stored = none ∧
      ∃ past applied between removed rest, life [first, second] = past ++ applied :: between ++ removed :: rest ∧
        Applies provider "web" applied ∧
        (∃ d ∈ Chronicle.own removed.before.chronicle removed.after.chronicle, Frees d ∧ Names d.found "web") ∧
        JustDeleted provider "web" (past ++ applied :: between) ∧
        ((∃ moment ∈ between, Deletes provider "web" moment) ∨
          Replaced provider (life [first, second]) "web" applied.after.chronicle removed.after.chronicle ∨
          (Unnamed "web" applied.after.chronicle removed.before.chronicle ∧ Failed [first, second] applied)) := by
  obtain ⟨past, applied, between, removed, rest, split, start, target, d, own, frees, names⟩ := life_splits
  obtain ⟨w, given, aim⟩ := Option.map_eq_some_iff.mp target
  have applies := applies_of_starts (by simp [split]) start given aim
  have named : Names d.found "web" := Option.bind_eq_some_iff.mp names
  obtain ⟨gone, fate⟩ := deleted_or_forgotten built_keeper recorded_keeper two_rounds split own frees
  exact ⟨by decide +kernel, past, applied, between, removed, rest, split, applies, ⟨d, own, frees, named⟩,
    gone "web" named, fate past applied between "web" rfl applies⟩

end

end NamespaceCleanup

end Reconciler
