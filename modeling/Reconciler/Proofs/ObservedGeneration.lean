import Reconciler.Proofs.LostUpdate
import Reconciler.Proofs.Pending
import Reconciler.Proofs.SweepOrder

set_option autoImplicit false

namespace Reconciler

open Reconcile
open Pending (terms)

variable {σ : Type}

namespace ObservedGeneration

-- What is left as it is by a write of the status, and by one of the metadata that comes with the same spec.
def core (w : Workspace) : Workspace.Spec × Int64 × Bool :=
  (w.spec, w.generation, w.isBeingDeleted)

def plan (w : Workspace) : (Workspace.Spec × Int64 × Bool) × Option Int64 × Option Timestamp :=
  (core w, terms w)

def Restated (given stored left : Workspace) : Prop :=
  ((terms left).1 = (terms given).1 ∨ (terms given).1 = none ∧ (terms left).1 = (terms stored).1) ∧
    ((terms left).2 = (terms given).2 ∨ (terms given).2 = none ∧ (terms left).2 = (terms stored).2)

-- Others leave the schedule alone, and what they create has none observed. A write takes effect on the version that
-- it was made from, one of the metadata not on the schedule, and it makes no new generation of the same spec.
def rules : Rules where
  others d := ∀ left, d.left = some left →
    (∀ stored, d.found = some stored → terms left = terms stored) ∧ (d.found = none → (terms left).1 = none)
  update given _ d := ∃ stored, d.found = some stored ∧
    stored.metadata.resourceVersion = given.metadata.resourceVersion ∧
    ∀ left, d.left = some left →
      terms left = terms stored ∧ (given.spec = stored.spec → core left = core stored)
  updateStatus given _ d := ∃ stored, d.found = some stored ∧
    stored.metadata.resourceVersion = given.metadata.resourceVersion ∧
    ∀ left, d.left = some left → Restated given stored left

def Renewed (l : Chronicle) : Prop :=
  ∀ past d rest, l = past ++ d :: rest → d.own = false → ∀ v, d.written = some v →
    ∀ e ∈ past, ∀ u, e.written = some u → u.metadata.resourceVersion ≠ v.metadata.resourceVersion

def Completed (m : Manager σ) (generation : Int64) (t : List (Moment σ)) : Prop :=
  ∀ sub ∈ m.subroutines, ∃ moment ∈ t, ∃ given answer outcome,
    moment.event = .stepped sub.name .process given (some answer) ∧ given.generation = generation ∧
      answer.result = .ok outcome ∧ outcome.isDone = true

-- The deed was done at a moment of the trace, and all was completed by then.
def Backed (m : Manager σ) (chronicle : σ → Chronicle) (t : List (Moment σ)) (past : Chronicle) (d : Deed)
    (generation : Int64) : Prop :=
  ∃ before moment after, t = before ++ moment :: after ∧ Completed m generation before ∧
    chronicle moment.before <+: past ∧ past ++ [d] <+: chronicle moment.after

inductive Honest (backed : Chronicle → Deed → Int64 → Prop) (past : Chronicle) (d : Deed) : Prop where
  | foreign : d.own = false → rules.others d → Honest backed past d
  | kept {stored} :
      d.own = true → d.found = some stored → (∀ left, d.left = some left → terms left = terms stored) →
      Honest backed past d
  | scheduled {stored generation next} :
      d.own = true → d.found = some stored → stored.isBeingDeleted = false → stored.generation = generation →
      (∀ left, d.left = some left → terms left = (some generation, some next)) → backed past d generation →
      Honest backed past d

def Audited (backed : Chronicle → Deed → Int64 → Prop) (first l : Chronicle) : Prop :=
  ∀ past d rest, l = past ++ d :: rest → first <+: past → Honest backed past d

structure Agrees (id : ResourceId) (fetched w : Workspace) (l : Chronicle) : Prop where
  identity : w.id = id
  known : ∃ d ∈ l, ∃ v, d.written = some v ∧ v.metadata.resourceVersion = w.metadata.resourceVersion
  current : ∀ stored, l.stored = some stored → stored.metadata.resourceVersion = w.metadata.resourceVersion →
    plan stored = plan fetched

def Knows (m : Manager σ) (id : ResourceId) (fetched : Workspace) (t : List (Moment σ)) (w : Workspace)
    (l : Chronicle) : Stage σ → Prop
  | .sweeping .. | .turning .. | .stepping .. | .cleaned .. | .settled .. =>
      Agrees id fetched w l ∧ plan w = plan fetched
  | .writing (.register ..) | .writing (.release ..) => Agrees id fetched w l ∧ plan w = plan fetched
  | .failed .. | .persisting (.failure _) => Agrees id fetched w l ∧ plan w = plan fetched
  | .persisting (.outcome _) => Agrees id fetched w l ∧ (plan w = plan fetched ∨
      ∃ next, terms w = (some fetched.generation, some next) ∧ fetched.isBeingDeleted = false ∧
        Completed m fetched.generation t)
  | .reporting _ next => Knows m id fetched t w l next
  | _ => True

section

variable {backed backed' : Chronicle → Deed → Int64 → Prop} {first l l' : Chronicle} {d : Deed}

theorem Audited.start : Audited backed l l := by
  rintro past d rest rfl early
  have bound := early.length_le
  simp only [List.length_append, List.length_cons] at bound
  omega

theorem Audited.snoc (audited : Audited backed first l) (last : Honest backed l d) :
    Audited backed first (l ++ [d]) := by
  intro past e rest split early
  rcases split_snoc split with ⟨rfl, rfl⟩ | ⟨front, whole⟩
  · exact last
  · exact audited past e front whole early

theorem Honest.mono {past : Chronicle} (honest : Honest backed past d)
    (more : ∀ generation, backed past d generation → backed' past d generation) : Honest backed' past d := by
  cases honest with
  | foreign other lawful => exact .foreign other lawful
  | kept own found same => exact .kept own found same
  | scheduled own found live same terms backing => exact .scheduled own found live same terms (more _ backing)

theorem Audited.mono (audited : Audited backed first l)
    (more : ∀ past d generation, backed past d generation → backed' past d generation) : Audited backed' first l :=
  fun past d rest split early => (audited past d rest split early).mono (more past d)

theorem Audited.drift (audited : Audited backed first l) (drifts : Chronicle.Drifts rules.others l l') :
    Audited backed first l' := by
  obtain ⟨more, rfl, foreign⟩ := drifts
  induction more using List.reverseRecOn with
  | nil => simpa using audited
  | append_singleton more d ih =>
      rw [← List.append_assoc]
      obtain ⟨other, lawful⟩ := foreign d (by simp)
      exact (ih fun e member => foreign e (by simp [member])).snoc (.foreign other lawful)

theorem Audited.trans (before : Audited backed first l) (after : Audited backed l l') (grows : l <+: l') :
    Audited backed first l' := by
  rintro past d rest rfl early
  rcases List.prefix_or_prefix_of_prefix grows (List.prefix_append past (d :: rest)) with later | earlier
  · exact after past d rest rfl later
  · obtain ⟨more, rfl⟩ := earlier
    rcases more with _ | ⟨e, more⟩
    · exact after past d rest rfl (by simp)
    · obtain ⟨rfl, _⟩ := List.cons_prefix_cons.mp ((List.prefix_append_right_inj past).mp grows)
      exact before past e more rfl early

end

section

variable {c : Cycle σ} {chronicle : σ → Chronicle} {id : ResourceId} {now : Timestamp} {fetched : Workspace}
variable {start s s' : σ} {t piece : List (Moment σ)} {w w' : Workspace} {stage : Stage σ} {first l l' : Chronicle}
variable {answer : Option (Except Error Workspace)}

theorem core_eq : core w' = core w ↔
    w'.spec = w.spec ∧ w'.generation = w.generation ∧ w'.isBeingDeleted = w.isBeingDeleted := by
  simp [core]

theorem plan_eq : plan w' = plan w ↔ core w' = core w ∧ terms w' = terms w := by
  simp [plan]

theorem Restated.eq_stored {given stored left : Workspace} (restated : Restated given stored left)
    (same : terms given = terms stored) : terms left = terms stored := by
  obtain ⟨observed, due⟩ := restated
  rw [same] at observed due
  exact Prod.ext (observed.elim (fun same => same) And.right) (due.elim (fun same => same) And.right)

theorem Restated.eq_given {given stored left : Workspace} {generation : Int64} {next : Timestamp}
    (restated : Restated given stored left) (full : terms given = (some generation, some next)) :
    terms left = (some generation, some next) := by
  obtain ⟨observed, due⟩ := restated
  rw [full] at observed due
  exact Prod.ext (by simpa using observed) (by simpa using due)

theorem plan_amend (change : Ledger → Ledger × Bool) (w : Workspace) : plan (c.amend change w) = plan w := by
  unfold Cycle.amend
  split <;> rfl

theorem plan_releaseIfIdle (tokens : List Finalizer.Token) (result : Except OperatorError Outcome) (w : Workspace) :
    plan (w.releaseIfIdle tokens result).1 = plan w :=
  Workspace.releaseIfIdle_keeps plan (fun _ _ => rfl) tokens result w

theorem Agrees.alike (agrees : Agrees id fetched w l) (same : LostUpdate.stamp w' = LostUpdate.stamp w) :
    Agrees id fetched w' l := by
  obtain ⟨version, identity⟩ := Prod.mk.inj same
  refine ⟨identity.trans agrees.identity, ?_, fun stored there => ?_⟩
  · rw [version]
    exact agrees.known
  · rw [version]
    exact agrees.current stored there

theorem Agrees.drift (agrees : Agrees id fetched w l) (drifts : Chronicle.Drifts rules.others l l')
    (renewed : Renewed l') : Agrees id fetched w l' := by
  obtain ⟨more, rfl, foreign⟩ := drifts
  obtain ⟨d, member, v, written, version⟩ := agrees.known
  refine ⟨agrees.identity, ⟨d, by simp [member], v, written, version⟩, fun stored there same => ?_⟩
  rcases more.eq_nil_or_concat with rfl | ⟨front, last, rfl⟩
  · exact agrees.current stored (by simpa using there) same
  · -- Somebody else was there, so that what is stored has a version that is not the one in memory.
    rw [List.concat_eq_append, ← List.append_assoc] at renewed there
    rw [Chronicle.stored_snoc] at there
    exact absurd (version.trans same.symm) (renewed (l ++ front) last [] rfl (foreign last (by simp)).1 stored
      (Deed.written_of_left there) d (by simp [member]) v written)

theorem Renewed.earlier (renewed : Renewed l') (grows : l <+: l') : Renewed l := by
  obtain ⟨more, rfl⟩ := grows
  rintro past d rest rfl
  exact renewed past d (rest ++ more) (by simp)

theorem Agrees.found {d : Deed} {stored : Workspace} (agrees : Agrees id fetched w l) (linked : (l ++ [d]).Linked)
    (found : d.found = some stored) (version : stored.metadata.resourceVersion = w.metadata.resourceVersion) :
    plan stored = plan fetched := by
  rw [linked.found] at found
  exact agrees.current stored found version

theorem Agrees.update (agrees : Agrees id fetched w l) (spec : w.spec = fetched.spec)
    (writes : Chronicle.Writes rules.others (rules.update w answer) answer l l') (linked : l'.Linked)
    (renewed : Renewed l') :
    Agrees id fetched w l' ∧ ∀ stored, answer = some (.ok stored) → Agrees id fetched (w.adoptVersion stored) l' := by
  cases writes with
  | idle drifts refused => exact ⟨agrees.drift drifts renewed, fun stored went => absurd went (refused stored)⟩
  | done past d early own effective written late =>
      obtain ⟨stored, found, version, same⟩ := effective
      have linked' := late.linked linked
      have there := agrees.drift early (renewed.earlier ((List.prefix_append past [d]).trans late.grows))
      have current : ∀ v, (past ++ [d]).stored = some v → plan v = plan fetched := by
        intro v left
        rw [Chronicle.stored_snoc] at left
        obtain ⟨plain, said⟩ := plan_eq.mp (there.found linked' found version)
        obtain ⟨kept, given⟩ := same v left
        exact plan_eq.mpr ⟨(given (spec.trans (core_eq.mp plain).1.symm)).trans plain, kept.trans said⟩
      obtain ⟨e, member, u, wrote, known⟩ := there.known
      have kept : Agrees id fetched w (past ++ [d]) :=
        ⟨agrees.identity, ⟨e, by simp [member], u, wrote, known⟩, fun v left _ => current v left⟩
      refine ⟨kept.drift late renewed, fun v went => ?_⟩
      have adopted : Agrees id fetched (w.adoptVersion v) (past ++ [d]) :=
        ⟨agrees.identity, ⟨d, by simp, v, written v went, rfl⟩, fun v left _ => current v left⟩
      exact adopted.drift late renewed

theorem Backed.more {past : Chronicle} {d : Deed} {generation : Int64} {m : Manager σ}
    (backed : Backed m chronicle t past d generation) : Backed m chronicle (t ++ piece) past d generation := by
  obtain ⟨before, moment, after, rfl, completed, early, late⟩ := backed
  exact ⟨before, moment, after ++ piece, by simp, completed, early, late⟩

theorem Audited.more {m : Manager σ} (audited : Audited (Backed m chronicle t) first l) :
    Audited (Backed m chronicle (t ++ piece)) first l :=
  audited.mono fun _ _ _ => Backed.more

theorem Audited.asked {α : Type} {m : Manager σ} {stop : σ → Bool} {call : σ → Call σ α} {event : Option α → Event}
    {answer : Option α} (audited : Audited (Backed m chronicle t) first (chronicle s))
    (asked : Run.Asked stop call event s answer piece s')
    (drifts : (call s).Ends answer s' → Chronicle.Drifts rules.others (chronicle s) (chronicle s')) :
    Audited (Backed m chronicle (t ++ piece)) first (chronicle s') := by
  rcases asked.ends with ⟨_, rfl, rfl⟩ | ⟨_, ends⟩
  · exact audited.more
  · exact audited.more.drift (drifts ends)

theorem Audited.update (audited : Audited (Backed c.manager chronicle t) first (chronicle s))
    (recorded : Recorded c.manager c.world id chronicle rules)
    (asked : Run.Asked c.world.cancelled (c.world.update w) (.updated w) s answer piece s') :
    Audited (Backed c.manager chronicle (t ++ piece)) first (chronicle s') := by
  by_cases here : w.id = id
  · rcases asked.ends with ⟨_, rfl, rfl⟩ | ⟨_, ends⟩
    · exact audited.more
    · cases recorded.update ends here with
      | idle drifts _ => exact audited.more.drift drifts
      | done past d early own effective _ late =>
          obtain ⟨stored, found, _, same⟩ := effective
          have kept : ∀ left, d.left = some left → terms left = terms stored :=
            fun left there => (same left there).1
          exact ((audited.more.drift early).snoc (.kept own found kept)).drift late
  · exact audited.asked asked fun ends => recorded.elsewhere here (.inl ends)

theorem Audited.updateStatus {verdict : Verdict}
    (audited : Audited (Backed c.manager chronicle t) first (chronicle s))
    (recorded : Recorded c.manager c.world id chronicle rules) (renewed : ∀ s, Renewed (chronicle s))
    (knows : Knows c.manager id fetched t w (chronicle s) (.persisting verdict))
    (asked : Run.Asked c.world.cancelled (c.world.updateStatus w) (.statusUpdated w) s answer piece s') :
    Audited (Backed c.manager chronicle (t ++ piece)) first (chronicle s') := by
  obtain ⟨agrees, planned⟩ : Agrees id fetched w (chronicle s) ∧ (plan w = plan fetched ∨
      ∃ next, terms w = (some fetched.generation, some next) ∧ fetched.isBeingDeleted = false ∧
        Completed c.manager fetched.generation t) := by
    cases verdict with
    | outcome => exact knows
    | failure => exact ⟨knows.1, .inl knows.2⟩
  rcases asked.ends with ⟨_, rfl, rfl⟩ | ⟨rfl, ends⟩
  · exact audited.more
  · cases recorded.updateStatus ends agrees.identity with
    | idle drifts _ => exact audited.more.drift drifts
    | done past d early own effective _ late =>
        obtain ⟨stored, found, version, becomes⟩ := effective
        have linked := late.linked (recorded.linked s')
        have there := agrees.drift early ((renewed s').earlier ((List.prefix_append past [d]).trans late.grows))
        have same := there.found linked found version
        refine ((audited.more.drift early).snoc ?_).drift late
        rcases planned with unplanned | ⟨next, scheduled, live, completed⟩
        · have equal : terms w = terms stored := (plan_eq.mp (unplanned.trans same.symm)).2
          exact .kept own found fun left remains => (becomes left remains).eq_stored equal
        · obtain ⟨_, generation, deletion⟩ := core_eq.mp (plan_eq.mp same).1
          exact .scheduled own found (deletion.trans live) generation
            (fun left remains => (becomes left remains).eq_given scheduled)
            ⟨t, _, [], rfl, completed, early.grows, late.grows⟩

theorem knows_breakdown {subroutine : String} {error : Error} {m : Manager σ}
    (knows : Agrees id fetched w l ∧ plan w = plan fetched) :
    Knows m id fetched t w l (.breakdown subroutine error) := by
  unfold Stage.breakdown
  split
  · trivial
  · exact knows

theorem Knows.more {m : Manager σ} (knows : Knows m id fetched t w l stage) :
    Knows m id fetched (t ++ piece) w l stage := by
  induction stage with
  | persisting verdict =>
      cases verdict with
      | failure => exact knows
      | outcome =>
          refine ⟨knows.1, knows.2.imp_right fun ⟨next, scheduled, live, completed⟩ => ⟨next, scheduled, live, ?_⟩⟩
          intro sub member
          obtain ⟨moment, there, rest⟩ := completed sub member
          exact ⟨moment, List.mem_append_left piece there, rest⟩
  | writing purpose => cases purpose <;> exact knows
  | ended => trivial
  | reporting _ _ ih => exact ih knows
  | _ => exact knows

theorem Knows.drift {m : Manager σ} (knows : Knows m id fetched t w l stage)
    (drifts : Chronicle.Drifts rules.others l l') (renewed : Renewed l') : Knows m id fetched t w l' stage := by
  induction stage with
  | persisting verdict => cases verdict <;> exact ⟨knows.1.drift drifts renewed, knows.2⟩
  | writing purpose =>
      cases purpose with
      | register | release => exact ⟨knows.1.drift drifts renewed, knows.2⟩
      | unlabel => trivial
  | opening | unlabelling | ended => trivial
  | reporting _ _ ih => exact ih knows
  | _ => exact ⟨knows.1.drift drifts renewed, knows.2⟩

theorem Agrees.asked (agrees : Agrees id fetched w (chronicle s)) (planned : plan w = plan fetched)
    (recorded : Recorded c.manager c.world id chronicle rules) (renewed : ∀ s, Renewed (chronicle s))
    (asked : Run.Asked c.world.cancelled (c.world.update w) (.updated w) s answer piece s') :
    Agrees id fetched w (chronicle s') ∧
      ∀ stored, answer = some (.ok stored) → Agrees id fetched (w.adoptVersion stored) (chronicle s') := by
  rcases asked.ends with ⟨rfl, _, rfl⟩ | ⟨_, ends⟩
  · exact ⟨agrees, by simp⟩
  · have spec := (core_eq.mp (plan_eq.mp planned).1).1
    exact agrees.update spec (recorded.update ends agrees.identity) (recorded.linked s') (renewed s')

theorem completed_of_progress {turnouts : List (Turnout σ)} {outcome : Outcome}
    (steady : c.manager.StepsKeep fun w => (w.metadata, w.spec, terms w)) (live : fetched.isBeingDeleted = false)
    (progress : Progress c now fetched turnouts w [] outcome) (done : outcome.isDone = true)
    (made : calls t = begun id fetched turnouts) : Completed c.manager fetched.generation t := by
  have blind : Blind c fun w => (w.generation, w.isBeingDeleted) :=
    ⟨fun sub member phase w s answer s' ends =>
        congrArg (fun seen => (seen.1.generation.getD 0, seen.1.deletionTimestamp.isSome))
          (steady sub member phase w s answer s' ends),
      fun _ _ => rfl, fun _ _ => rfl, fun _ _ => rfl⟩
  intro sub member
  obtain ⟨o, taken, rfl⟩ : ∃ o ∈ turnouts, o.sub = sub := by simpa [progress.order] using member
  obtain ⟨past, rest, split⟩ := List.append_of_mem taken
  obtain ⟨before, _, turns, _⟩ := progress.chain.split split
  have among : ∀ other ∈ past, other.sub ∈ c.manager.subroutines := by
    intro other earlier
    simp only [progress.order, split, List.map_append, List.append_nil]
    exact List.mem_append_left _ (List.mem_map_of_mem earlier)
  obtain ⟨generation, deletion⟩ := Prod.mk.inj (blind.sweeps among before)
  have phase : fetched.phase = .process := by simp [Workspace.phase, live]
  rw [phase] at turns
  obtain ⟨given, answer, result, called, same, ended, went⟩ :=
    blind.processed (deletion.trans live) turns (progress.clean o taken)
  have event : .stepped o.sub.name .process given (some answer) ∈ calls t := by
    rw [made]
    exact List.mem_cons_of_mem _ (List.mem_flatMap.mpr ⟨o, taken, called⟩)
  obtain ⟨⟨moment, there, step⟩, _⟩ := mem_calls.mp event
  rw [progress.asked] at done
  exact ⟨moment, there, given, answer, result, step, (Prod.mk.inj same).1.trans generation, ended,
    isDone_merged.mp done o taken result went⟩

theorem audited_of_course (recorded : Recorded c.manager c.world id chronicle rules)
    (renewed : ∀ s, Renewed (chronicle s)) (steady : c.manager.StepsKeep fun w => (w.metadata, w.spec, terms w))
    (course : Course c id now fetched start t stage w s) :
    Audited (Backed c.manager chronicle t) (chronicle start) (chronicle s) ∧
      Knows c.manager id fetched t w (chronicle s) stage := by
  -- The deeds are looked through as they come in. What is known of the version in memory holds from the read to the
  -- write of the status, which is the only one that has something to say of the schedule.
  induction course with
  | start => exact ⟨.start, trivial⟩
  | note _ _ ih => exact ⟨ih.1.more, ih.2.more⟩
  | unread _ asked _ ih => exact ⟨ih.1.asked asked fun ends => (recorded.get ends).1.drifts, trivial⟩
  | absent _ asked ih => exact ⟨ih.1.asked asked fun ends => (recorded.get ends).1.drifts, trivial⟩
  | skip _ asked _ _ ih => exact ⟨ih.1.asked asked fun ends => (recorded.get ends).1.drifts, trivial⟩
  | @fetch t _ _ _ s' _ asked _ _ ih =>
      refine ⟨ih.1.asked asked fun ends => (recorded.get ends).1.drifts, ?_, plan_amend _ _⟩
      obtain ⟨⟨seen, _, late, answered⟩, named⟩ := recorded.get asked.answered.2
      have there := answered (some fetched) rfl
      obtain ⟨d, member, written⟩ := Chronicle.written_of_stored there.symm
      have read : Agrees id fetched fetched seen :=
        ⟨named fetched rfl, ⟨d, member, fetched, written, rfl⟩, fun stored last _ => by
          rw [Option.some.inj (last.symm.trans there.symm)]⟩
      exact (read.drift late (renewed s')).alike (LostUpdate.stamp_amend ..)
  | stop _ _ ih => exact ⟨ih.1, trivial⟩
  | pass _ _ _ ih => exact ih
  | enter _ _ _ ih =>
      exact ⟨ih.1, ih.2.1.alike (LostUpdate.stamp_amend ..), (plan_amend _ _).trans ih.2.2⟩
  | condemned _ _ ih => exact ih
  | equipped _ _ _ ih | register _ _ _ ih => exact ⟨ih.1, ih.2.1.alike (LostUpdate.stamp_register ..), ih.2.2⟩
  | @step _ phase sub _ _ w s answer _ s' course asked ih =>
      have member := course.mem_of_agenda List.mem_cons_self
      have drifts := recorded.step sub member asked.answered.2
      have same := steady.asked member asked
      simp only [Prod.mk.injEq] at same
      obtain ⟨metadata, spec, said⟩ := same
      have version : LostUpdate.stamp answer.workspace = LostUpdate.stamp w := by
        simp [LostUpdate.stamp, Workspace.id, Workspace.displayName, metadata]
      have planned : plan answer.workspace = plan w := by
        simp [plan, core, Workspace.generation, Workspace.isBeingDeleted, metadata, spec, said]
      have knows : Agrees id fetched answer.workspace (chronicle s') ∧ plan answer.workspace = plan fetched :=
        ⟨(ih.2.1.drift drifts (renewed s')).alike version, planned.trans ih.2.2⟩
      refine ⟨ih.1.asked asked fun ends => drifts, ?_⟩
      cases phase <;> exact knows
  | drop course asked ih =>
      have member := course.mem_of_agenda List.mem_cons_self
      exact ⟨ih.1.asked asked (recorded.step _ member), trivial⟩
  | keep _ _ ih | release _ _ ih =>
      exact ⟨ih.1, ih.2.1.alike (LostUpdate.stamp_releaseIfIdle ..), (plan_releaseIfIdle ..).trans ih.2.2⟩
  | @written _ purpose _ _ _ _ s' _ asked ih =>
      refine ⟨ih.1.update recorded asked, ?_⟩
      cases purpose with
      | register | release => exact ⟨(ih.2.1.asked ih.2.2 recorded renewed asked).2 _ rfl, ih.2.2⟩
      | unlabel => trivial
  | @unwritten _ purpose _ _ _ _ s' _ _ asked _ ih =>
      refine ⟨ih.1.update recorded asked, ?_⟩
      cases purpose with
      | register | release => exact knows_breakdown ⟨(ih.2.1.asked ih.2.2 recorded renewed asked).1, ih.2.2⟩
      | unlabel => trivial
  | complete _ ih =>
      split
      · exact ⟨ih.1, ih.2.1.alike (LostUpdate.stamp_amend ..), (plan_amend _ _).trans ih.2.2⟩
      · exact ih
  | fail _ ih => exact ⟨ih.1.more, ih.2.1, ih.2.2⟩
  | @report _ error _ _ s _ _ ih =>
      have drifts := recorded.capture error c.tags s
      exact ⟨ih.1.more.drift drifts, (Knows.drift ih.2 drifts (renewed _)).more⟩
  | conceal _ _ ih => exact ih
  | abort _ ih =>
      refine ⟨ih.1, (ih.2.1.alike (LostUpdate.stamp_amend ..)).alike (LostUpdate.stamp_amend ..), ?_⟩
      rw [plan_amend, plan_amend]
      exact ih.2.2
  | conclude _ _ ih =>
      exact ⟨ih.1, ih.2.1.alike (LostUpdate.stamp_amend ..), .inl ((plan_amend _ _).trans ih.2.2)⟩
  | @schedule _ outcome w s scheduled course due drawn ih =>
      obtain ⟨done, live⟩ : outcome.isDone = true ∧ fetched.isBeingDeleted = false := by
        simp only [schedules, Workspace.phase, Bool.and_eq_true] at due
        refine ⟨due.1.1, ?_⟩
        by_contra deleted
        simp [deleted] at due
      obtain ⟨turnouts, progress, made⟩ := course.accounts
      have drifts := recorded.draw s
      have agrees := ((ih.2.1.drift drifts (renewed _)).alike (LostUpdate.stamp_scheduleNext? drawn)).alike
        (LostUpdate.stamp_amend c (Ledger.setReady now .true) scheduled)
      obtain ⟨next, _, rfl⟩ := Option.map_eq_some_iff.mp drawn
      refine ⟨ih.1.drift drifts, agrees, .inr ⟨next, ?_, live, completed_of_progress steady live progress done made⟩⟩
      obtain ⟨_, generation, _⟩ := core_eq.mp (plan_eq.mp ih.2.2).1
      obtain ⟨_, said⟩ := plan_eq.mp (plan_amend (c := c) (Ledger.setReady now .true)
        (w.modifyStatus fun s => { s with nextReconcile := some next, observedGeneration := some w.generation }))
      rw [generation] at said ⊢
      exact said
  | beyond _ _ _ ih => exact ⟨ih.1.drift (recorded.draw _), trivial⟩
  | @unchanged _ verdict _ _ _ _ ih => cases verdict <;> exact ⟨ih.1, trivial⟩
  | @persist _ verdict _ _ _ _ _ _ _ asked ih =>
      cases verdict <;> exact ⟨ih.1.updateStatus recorded renewed ih.2 asked, trivial⟩
  | @vanish _ verdict _ _ _ _ _ _ _ _ asked _ _ ih =>
      cases verdict <;> exact ⟨ih.1.updateStatus recorded renewed ih.2 asked, trivial⟩
  | refuse _ _ asked _ _ ih => exact ⟨ih.1.updateStatus recorded renewed ih.2 asked, trivial⟩
  | finish _ _ ih | unlabel _ _ ih => exact ⟨ih.1, trivial⟩

end

section

variable {m : Manager σ} {world : World σ} {chronicle : σ → Chronicle} {id : ResourceId} {s₀ s : σ}
variable {rans : List (Ran σ (Except Stop Outcome))} {backed : Chronicle → Deed → Int64 → Prop} {first l l' : Chronicle}

theorem audited_of_reconcile (recorded : Recorded m world id chronicle rules) (renewed : ∀ s, Renewed (chronicle s))
    (steady : m.StepsKeep fun w => (w.metadata, w.spec, terms w)) :
    Audited (Backed m chronicle (m.reconcile world id s).trace) (chronicle s)
      (chronicle (m.reconcile world id s).state) := by
  obtain ⟨state, metrics, trace⟩ := m.reconcile_attempt world id s
  obtain ⟨now, fetched, left, course⟩ := m.attempt_course world id s
  rw [state, trace]
  exact (Audited.start.drift (recorded.correlate s)).trans (audited_of_course recorded renewed steady course).1.more
    (course.grown recorded).1.whole

theorem audited_of_rounds (recorded : Recorded m world id chronicle rules) (renewed : ∀ s, Renewed (chronicle s))
    (steady : m.StepsKeep fun w => (w.metadata, w.spec, terms w))
    (rounds : Rounds m world id chronicle rules.others s₀ rans s) :
    Audited (fun past d generation => ∃ ran ∈ rans, Backed m chronicle ran.trace past d generation) (chronicle s₀)
      (chronicle s) := by
  induction rounds with
  | start => exact .start
  | meantime _ drifts ih => exact ih.drift drifts
  | @reconcile rans s _ ih =>
      have last := audited_of_reconcile (s := s) recorded renewed steady
      refine (ih.mono ?_).trans (last.mono fun _ _ _ backed => ⟨_, by simp, backed⟩) (recorded.reconcile_grows s)
      rintro _ _ _ ⟨ran, member, backed⟩
      exact ⟨ran, List.mem_append_left _ member, backed⟩

theorem backed_of_observed (audited : Audited backed first l) (linked : l.Linked)
    (unobserved : ∀ w, first.stored = some w → (terms w).1 = none) (early : first <+: l') (late : l' <+: l)
    {stored : Workspace} (there : l'.stored = some stored) {generation : Int64}
    (observed : (terms stored).1 = some generation) :
    ∃ past d, past ++ [d] <+: l' ∧ backed past d generation := by
  obtain ⟨more, rfl⟩ := early
  induction more using List.reverseRecOn generalizing stored with
  | nil =>
      rw [List.append_nil] at there
      simp [unobserved stored there] at observed
  | append_singleton more d ih =>
      rw [← List.append_assoc] at late there ⊢
      obtain ⟨rest, rfl⟩ := late
      rw [Chronicle.stored_snoc] at there
      have onward {found : Workspace} (was : d.found = some found) (same : terms stored = terms found) :
          ∃ past d', past ++ [d'] <+: first ++ more ++ [d] ∧ backed past d' generation := by
        rw [(Chronicle.Linked.past linked).found] at was
        obtain ⟨past, e, earlier, backing⟩ := ih (same ▸ observed) ⟨d :: rest, by simp⟩ was
        exact ⟨past, e, earlier.trans (List.prefix_append ..), backing⟩
      cases audited (first ++ more) d rest (by simp) (List.prefix_append ..) with
      | foreign _ lawful =>
          rcases was : d.found with _ | found
          · simp [(lawful stored there).2 was] at observed
          · exact onward was ((lawful stored there).1 found was)
      | kept _ found same => exact onward found (same stored there)
      | scheduled _ _ _ _ said backing =>
          rw [said stored there] at observed
          obtain rfl := Option.some.inj observed
          exact ⟨first ++ more, d, List.prefix_rfl, backing⟩

/-- A write of a reconcile that records a generation, with a time for the next reconcile, finds that generation stored
and alive, and in the same reconcile every subroutine has been done on it. So whatever generation is observed, some
reconcile has completed it. -/
theorem observed_is_completed (recorded : Recorded m world id chronicle rules) (renewed : ∀ s, Renewed (chronicle s))
    (steady : m.StepsKeep fun w => (w.metadata, w.spec, terms w))
    (unobserved : ∀ w, (chronicle s₀).stored = some w → w.currentStatus.observedGeneration = none)
    (rounds : Rounds m world id chronicle rules.others s₀ rans s) :
    (∀ past d rest, chronicle s = past ++ d :: rest → chronicle s₀ <+: past → d.own = true →
      ∀ left, d.left = some left → ∃ stored, d.found = some stored ∧
        (terms left = terms stored ∨ ∃ generation next, terms left = (some generation, some next) ∧
          stored.isBeingDeleted = false ∧ stored.generation = generation ∧
          ∃ ran ∈ rans, Backed m chronicle ran.trace past d generation)) ∧
    ∀ l : Chronicle, chronicle s₀ <+: l → l <+: chronicle s → ∀ stored, l.stored = some stored →
      ∀ generation, stored.currentStatus.observedGeneration = some generation →
        ∃ ran ∈ rans, ∃ before moment after, ran.trace = before ++ moment :: after ∧
          Completed m generation before ∧ chronicle moment.before <+: l := by
  have audited := audited_of_rounds recorded renewed steady rounds
  refine ⟨fun past d rest split early own left remains => ?_, fun l early late stored there generation observed => ?_⟩
  · cases audited past d rest split early with
    | foreign other => simp [own] at other
    | kept _ found same => exact ⟨_, found, .inl (same left remains)⟩
    | scheduled _ found live same said backing =>
        exact ⟨_, found, .inr ⟨_, _, said left remains, live, same, backing⟩⟩
  · obtain ⟨past, d, within, ran, member, before, moment, after, split, completed, begun, _⟩ :=
      backed_of_observed audited (recorded.linked s) unobserved early late there observed
    exact ⟨ran, member, before, moment, after, split, completed,
      begun.trans ((List.prefix_append past [d]).trans within)⟩

end

section

open Reconciler.Shelf

theorem renewed_of_fresh {l : Chronicle} (fresh : l.Fresh) : Renewed l := by
  rintro past d rest rfl _ v written e earlier u older same
  have whole : past ++ d :: rest = (past ++ [d]) ++ rest := by simp
  rw [whole] at fresh
  exact fresh.past.not_mem older written same.symm earlier

def planner : Manager (Shelf site) where
  operator := "converge"
  controller := "workspaces"
  subroutines := [worker "dns" ["dns"] leave leave, worker "quota" [] leave leave]
  spread := true
  faultless := by decide

def issued (generation : Int64) : Workspace :=
  { web with metadata := { web.metadata with generation := some generation } }

def early : Ran (Shelf site) (Except Stop Outcome) :=
  planner.reconcile (Shelf.world site) site (stocked (issued 3) [] .epoch)

def raised : Shelf site :=
  match early.state.stored with
  | some w => { early.state.put false false { w with metadata := { w.metadata with generation := some 4 } } with
      now := ⟨2, 0, 0, by decide⟩ }
  | none => early.state

def late : Ran (Shelf site) (Except Stop Outcome) :=
  planner.reconcile (Shelf.world site) site raised

theorem planner_answers {sub : Subroutine (Shelf site)} (member : sub ∈ planner.subroutines) {phase : Phase}
    {w : Workspace} {s s' : Shelf site} {answer : Option StepAnswer} (ends : (sub.step phase w s).Ends answer s') :
    s' = s ∧ answer = some { workspace := w, result := .ok .done } := by
  simp only [planner, List.mem_cons, List.not_mem_nil, or_false] at member
  rcases member with rfl | rfl <;> obtain ⟨same, answered⟩ := answer_of_worker ends <;>
    exact ⟨same, answered.elim (fun answered => answered) fun answered => answered⟩

theorem planner_recorded : Recorded planner (Shelf.world site) site Shelf.chronicle rules := by
  have shelved := Shelf.recorded planner fun sub member phase w s answer s' ends => by
    rw [(planner_answers member ends).1]
    exact .refl _ _
  refine shelved.mono ?_ ?_ ?_
  · rintro d ⟨edit, stored, version, found, _, written⟩ left last
    obtain rfl := Option.some.inj (written.symm.trans (Deed.written_of_left last))
    refine ⟨fun other was => ?_, by simp [found]⟩
    obtain rfl := Option.some.inj (found.symm.trans was)
    cases edit <;> rfl
  · rintro given answer d ⟨store, stored, found, version, _, written, _⟩
    refine ⟨stored, found, version, fun left last => ?_⟩
    obtain rfl := Option.some.inj (written.symm.trans (Deed.written_of_left last))
    exact ⟨rfl, fun _ => rfl⟩
  · rintro given answer d ⟨store, stored, found, version, _, written, _⟩
    refine ⟨stored, found, version, fun left last => ?_⟩
    obtain rfl := Option.some.inj (written.symm.trans (Deed.written_of_left last))
    exact ⟨.inl rfl, .inl rfl⟩

theorem drifts_raised : Chronicle.Drifts rules.others early.state.chronicle raised.chronicle := by
  obtain ⟨w, there⟩ : ∃ w, early.state.stored = some w := Option.isSome_iff_exists.mp (by decide +kernel)
  have named : ({ w with metadata := { w.metadata with generation := some 4 } } : Workspace).id = site :=
    early.state.named w there
  rw [raised, there]
  refine ⟨_, chronicle_put early.state false false named, fun d member => ?_⟩
  obtain rfl := List.mem_singleton.mp member
  refine ⟨rfl, ?_⟩
  rintro _ ⟨⟩
  refine ⟨fun stored found => ?_, by simp [there]⟩
  obtain rfl := Option.some.inj (there.symm.trans found)
  rfl

-- The next generation was raised in between, and is observed once both subroutines have been done on it.
theorem observed_is_completed_again :
    (raised.stored.map fun w => (w.generation, w.currentStatus.observedGeneration)) = some (4, some 3) ∧
      (late.state.stored.map fun w => (w.generation, w.currentStatus.observedGeneration)) = some (4, some 4) ∧
      ∃ ran ∈ [early, late], ∃ before moment after, ran.trace = before ++ moment :: after ∧
        Completed planner 4 before := by
  have rounds : Rounds planner (Shelf.world site) site Shelf.chronicle rules.others (stocked (issued 3) [] .epoch)
      [early, late] late.state :=
    .reconcile (.meantime (.reconcile .start) drifts_raised)
  have steady : planner.StepsKeep fun w => (w.metadata, w.spec, terms w) := by
    intro sub member phase w s answer s' ends
    obtain ⟨_, ⟨⟩⟩ := planner_answers member ends
    rfl
  have unobserved : ∀ w, (stocked (issued 3) [] .epoch).chronicle.stored = some w →
      w.currentStatus.observedGeneration = none := by
    intro w there
    have first : (stocked (issued 3) [] .epoch).chronicle.stored = some ((issued 3).setResourceVersion (some "1")) := by
      decide +kernel
    obtain rfl := Option.some.inj (first.symm.trans there)
    rfl
  obtain ⟨_, completed⟩ := observed_is_completed planner_recorded (fun s => renewed_of_fresh s.numbered.fresh) steady
    unobserved rounds
  have last : (late.state.stored.map fun w => (w.generation, w.currentStatus.observedGeneration)) =
      some (4, some 4) := by
    decide +kernel
  obtain ⟨w, there, shown⟩ := Option.map_eq_some_iff.mp last
  obtain ⟨ran, member, before, moment, after, split, all, _⟩ :=
    completed late.state.chronicle (by decide +kernel) List.prefix_rfl w there 4 (congrArg Prod.snd shown)
  exact ⟨by decide +kernel, last, ran, member, before, moment, after, split, all⟩

end

end ObservedGeneration

end Reconciler
