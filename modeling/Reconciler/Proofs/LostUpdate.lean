import Reconciler.Proofs.Chronicle.Shelf
import Reconciler.Proofs.Course.Complete
import Reconciler.Proofs.Course.Trace

set_option autoImplicit false

namespace Reconciler

variable {σ : Type}

def Event.obtained? : Event → Option Workspace
  | fetched _ (some (.ok found)) => found
  | updated _ (some (.ok stored)) | statusUpdated _ (some (.ok stored)) => some stored
  | _ => none

def obtained (t : List (Moment σ)) : Option Workspace :=
  (t.filterMap (·.event.obtained?)).getLast?

theorem obtained_snoc_of_none {t : List (Moment σ)} {moment : Moment σ} (h : moment.event.obtained? = none) :
    obtained (t ++ [moment]) = obtained t := by
  simp [obtained, List.filterMap_append, h]

theorem obtained_snoc_of_some {t : List (Moment σ)} {moment : Moment σ} {w : Workspace}
    (h : moment.event.obtained? = some w) : obtained (t ++ [moment]) = some w := by
  simp [obtained, List.filterMap_append, h]

namespace LostUpdate

def carries (given : Workspace) (d : Deed) : Prop :=
  ∃ stored, d.found = some stored ∧ stored.metadata.resourceVersion = given.metadata.resourceVersion

-- Others may do anything; a write takes effect on nothing but the version that it carries.
def rules : Rules where
  others _ := True
  update given _ := carries given
  updateStatus given _ := carries given

-- What takes effect at this moment replaces what was read or written last.
def Exclusive (chronicle : σ → Chronicle) (past : List (Moment σ)) (moment : Moment σ) : Prop :=
  ∀ d ∈ Chronicle.own (chronicle moment.before) (chronicle moment.after),
    moment.event.isWrite = true ∧ ∃ w, obtained past = some w ∧ d.found = some w

-- The read comes after deeds of others, own deeds follow it, and after them others have it to themselves.
structure Parted (chronicle : σ → Chronicle) (id : ResourceId) (start : σ) (t : List (Moment σ)) (l : Chronicle)
    (seen mine rest : Chronicle) : Prop where
  whole : l = seen ++ mine ++ rest
  before : Chronicle.Drifts rules.others (chronicle start) seen
  mine : ∀ d ∈ mine, d.own = true
  rest : ∀ d ∈ rest, d.own = false
  read : ∀ moment ∈ t, ∀ found, moment.event = .fetched id (some (.ok found)) →
    found = seen.stored ∧ chronicle moment.before <+: seen ∧ seen <+: chronicle moment.after

structure Opened (chronicle : σ → Chronicle) (id : ResourceId) (start : σ) (t : List (Moment σ)) (l : Chronicle) :
    Prop where
  exclusive : Throughout (Exclusive chronicle) t
  before : Chronicle.Drifts rules.others (chronicle start) l
  unread : ∀ moment ∈ t, ∀ answer, moment.event ≠ .fetched id answer

structure Told (chronicle : σ → Chronicle) (id : ResourceId) (start : σ) (t : List (Moment σ)) (l : Chronicle) :
    Prop where
  exclusive : Throughout (Exclusive chronicle) t
  parted : ∃ seen mine rest, Parted chronicle id start t l seen mine rest

structure Held (chronicle : σ → Chronicle) (id : ResourceId) (start : σ) (t : List (Moment σ)) (w : Workspace)
    (l : Chronicle) : Prop where
  exclusive : Throughout (Exclusive chronicle) t
  identity : w.id = id
  parted : ∃ seen mine rest, Parted chronicle id start t l seen mine rest ∧
    ∃ known, obtained t = some known ∧ known.metadata.resourceVersion = w.metadata.resourceVersion ∧
      ∃ d ∈ seen ++ mine, d.written = some known

def stamp (w : Workspace) : Option String × ResourceId :=
  (w.metadata.resourceVersion, w.id)

theorem stamp_register (w : Workspace) (tokens : List Finalizer.Token) : stamp (w.register tokens).1 = stamp w := rfl

theorem stamp_releaseIfIdle (w : Workspace) (tokens : List Finalizer.Token) (result : Except OperatorError Outcome) :
    stamp (w.releaseIfIdle tokens result).1 = stamp w :=
  Workspace.releaseIfIdle_keeps stamp (fun _ _ => rfl) tokens result w

theorem stamp_clearRefreshMarker (w : Workspace) : stamp (Spread.clearRefreshMarker w).1 = stamp w := rfl

theorem stamp_scheduleNext? {w scheduled : Workspace} {now : Timestamp} {minutes : Fin Spread.windowMinutes}
    (h : Spread.scheduleNext? w now minutes = some scheduled) : stamp scheduled = stamp w := by
  obtain ⟨next, _, rfl⟩ := Option.map_eq_some_iff.mp h
  rfl

theorem stamp_amend (c : Cycle σ) (change : Ledger → Ledger × Bool) (w : Workspace) :
    stamp (c.amend change w) = stamp w := by
  simp [stamp, Workspace.id, Workspace.displayName]

def renewed (w : Workspace) : Option (Except Error Workspace) → Workspace
  | some (.ok stored) => w.adoptVersion stored
  | _ => w

section

variable {chronicle : σ → Chronicle} {id : ResourceId} {start s s' : σ} {t : List (Moment σ)} {moment : Moment σ}
variable {l l' seen mine rest : Chronicle} {w w' : Workspace}

theorem exclusive_of_idle (idle : Chronicle.own (chronicle moment.before) (chronicle moment.after) = []) :
    Exclusive chronicle t moment := by
  intro d member
  simp [idle] at member

theorem Parted.drift (parted : Parted chronicle id start t l seen mine rest)
    (drifts : Chronicle.Drifts rules.others l l') : ∃ rest', Parted chronicle id start t l' seen mine rest' := by
  obtain ⟨more, rfl, foreign⟩ := drifts
  refine ⟨rest ++ more, by simp [parted.whole], parted.before, parted.mine, fun d member => ?_, parted.read⟩
  rcases List.mem_append.mp member with early | late
  · exact parted.rest d early
  · exact (foreign d late).1

theorem Parted.snoc (parted : Parted chronicle id start t l seen mine rest)
    (unread : ∀ answer, moment.event ≠ .fetched id answer) :
    Parted chronicle id start (t ++ [moment]) l seen mine rest := by
  refine ⟨parted.whole, parted.before, parted.mine, parted.rest, fun m member found read => ?_⟩
  rcases List.mem_append.mp member with earlier | last
  · exact parted.read m earlier found read
  · obtain rfl : m = moment := by simpa using last
    exact absurd read (unread _)

theorem Held.told (held : Held chronicle id start t w l) : Told chronicle id start t l := by
  obtain ⟨seen, mine, rest, parted, _⟩ := held.parted
  exact ⟨held.exclusive, seen, mine, rest, parted⟩

theorem Held.same (held : Held chronicle id start t w l) (same : stamp w' = stamp w) :
    Held chronicle id start t w' l := by
  obtain ⟨version, identity⟩ := Prod.mk.inj same
  obtain ⟨seen, mine, rest, parted, known, last, stored, written⟩ := held.parted
  exact ⟨held.exclusive, identity.trans held.identity, seen, mine, rest, parted, known, last,
    stored.trans version.symm, written⟩

theorem Held.drift (held : Held chronicle id start t w l) (drifts : Chronicle.Drifts rules.others l l') :
    Held chronicle id start t w l' := by
  obtain ⟨seen, mine, rest, parted, known⟩ := held.parted
  obtain ⟨rest', parted'⟩ := parted.drift drifts
  exact ⟨held.exclusive, held.identity, seen, mine, rest', parted', known⟩

theorem Held.snoc (held : Held chronicle id start t w l)
    (idle : Chronicle.own (chronicle moment.before) (chronicle moment.after) = [])
    (unread : ∀ answer, moment.event ≠ .fetched id answer) (unobtained : moment.event.obtained? = none) :
    Held chronicle id start (t ++ [moment]) w l := by
  obtain ⟨seen, mine, rest, parted, known, last, written⟩ := held.parted
  refine ⟨held.exclusive.snoc (exclusive_of_idle idle), held.identity, seen, mine, rest, parted.snoc unread, known, ?_,
    written⟩
  rw [obtained_snoc_of_none unobtained, last]

theorem Told.drift (told : Told chronicle id start t l) (drifts : Chronicle.Drifts rules.others l l') :
    Told chronicle id start t l' := by
  obtain ⟨seen, mine, rest, parted⟩ := told.parted
  exact ⟨told.exclusive, seen, mine, parted.drift drifts⟩

theorem Told.snoc (told : Told chronicle id start t l)
    (idle : Chronicle.own (chronicle moment.before) (chronicle moment.after) = [])
    (unread : ∀ answer, moment.event ≠ .fetched id answer) : Told chronicle id start (t ++ [moment]) l := by
  obtain ⟨seen, mine, rest, parted⟩ := told.parted
  exact ⟨told.exclusive.snoc (exclusive_of_idle idle), seen, mine, rest, parted.snoc unread⟩

theorem Told.earlier (told : Told chronicle id start t l)
    (drifts : Chronicle.Drifts rules.others (chronicle s) (chronicle start)) : Told chronicle id s t l := by
  obtain ⟨seen, mine, rest, parted⟩ := told.parted
  exact ⟨told.exclusive, seen, mine, rest, { parted with before := drifts.trans parted.before }⟩

theorem Opened.told (opened : Opened chronicle id start t l) : Told chronicle id start t l := by
  refine ⟨opened.exclusive, l, [], [], by simp, opened.before, by simp, by simp, fun moment member found read => ?_⟩
  exact absurd read (opened.unread moment member _)

theorem Held.effect {past : Chronicle} {d : Deed} (held : Held chronicle id start t w l) (linked : l'.Linked)
    (fresh : l'.Fresh) (early : Chronicle.Drifts rules.others l past) (own : d.own = true) (effect : carries w d)
    (late : Chronicle.Drifts rules.others (past ++ [d]) l') :
    ∃ seen mine rest known, Parted chronicle id start t l' seen (mine ++ [d]) rest ∧ obtained t = some known ∧
      d.found = some known ∧ known.metadata.resourceVersion = w.metadata.resourceVersion ∧
      ∃ e ∈ seen ++ mine, e.written = some known := by
  obtain ⟨seen, mine, rest, parted, known, last, same, e, member, older⟩ := held.parted
  obtain ⟨more, rfl, foreign⟩ := early
  obtain ⟨further, rfl, alien⟩ := late
  obtain ⟨stored, found, carried⟩ := effect
  have replaced : Chronicle.stored ((seen ++ mine) ++ (rest ++ more)) = some stored := by
    rw [← found, linked.past.found, parted.whole]
    simp
  have unbroken : ((seen ++ mine) ++ (rest ++ more)).Fresh := by
    have shorter := fresh.past.past
    rw [parted.whole] at shorter
    simpa using shorter
  obtain ⟨alone, rfl⟩ := unbroken.eq_of_version member older replaced (carried.trans same.symm)
  obtain ⟨rfl, rfl⟩ := List.append_eq_nil_iff.mp alone
  refine ⟨seen, mine, further, stored, ⟨?_, parted.before, ?_, fun d member => (alien d member).1, parted.read⟩, last,
    found, same, e, member, older⟩
  · simp [parted.whole]
  · intro d' mem
    rcases List.mem_append.mp mem with before | now
    · exact parted.mine d' before
    · obtain rfl : d' = d := by simpa using now
      exact own

theorem Held.write {answer : Option (Except Error Workspace)} {event : Event}
    (held : Held chronicle id start t w (chronicle s))
    (linked : (chronicle s').Linked) (fresh : (chronicle s').Fresh)
    (writes : Chronicle.Writes rules.others (carries w) answer (chronicle s) (chronicle s'))
    (isWrite : event.isWrite = true) (gained : event.obtained? = answer.bind Except.toOption) :
    Held chronicle id start (t ++ [⟨event, s, s'⟩]) (renewed w answer) (chronicle s') := by
  have unread : ∀ answer, event ≠ .fetched id answer := by
    rintro _ rfl
    simp [Event.isWrite] at isWrite
  cases writes with
  | idle drifts refused =>
      have nothing : answer.bind Except.toOption = none ∧ renewed w answer = w := by
        rcases answer with _ | (_ | stored)
        · exact ⟨rfl, rfl⟩
        · exact ⟨rfl, rfl⟩
        · exact absurd rfl (refused stored)
      rw [nothing.2]
      exact (held.drift drifts).snoc drifts.own unread (gained.trans nothing.1)
  | done past d early own effect written late =>
      obtain ⟨seen, mine, rest, known, parted, last, found, same, older⟩ :=
        held.effect linked fresh early own effect late
      have exclusive : Exclusive chronicle t ⟨event, s, s'⟩ := by
        intro d' member
        simp only [Chronicle.own_done early own late, List.mem_singleton] at member
        exact ⟨isWrite, known, last, member ▸ found⟩
      have kept : ∃ e ∈ seen ++ (mine ++ [d]), e.written = some known := by
        obtain ⟨e, member, wrote⟩ := older
        refine ⟨e, ?_, wrote⟩
        rw [← List.append_assoc]
        exact List.mem_append_left [d] member
      refine ⟨held.exclusive.snoc exclusive, ?_, seen, mine ++ [d], rest, parted.snoc unread, ?_⟩
      · rcases answer with _ | (_ | stored) <;> exact held.identity
      · rcases answer with _ | (error | stored)
        · exact ⟨known, (obtained_snoc_of_none gained).trans last, same, kept⟩
        · exact ⟨known, (obtained_snoc_of_none gained).trans last, same, kept⟩
        · exact ⟨stored, obtained_snoc_of_some gained, rfl, d, by simp, written stored rfl⟩

theorem Opened.parted {found : Option (Except Error (Option Workspace))}
    (opened : Opened chronicle id start t (chronicle moment.before)) (asked : moment.event = .fetched id found)
    (reads : Chronicle.Reads rules.others found (chronicle moment.before) (chronicle moment.after)) :
    ∃ seen rest, Parted chronicle id start (t ++ [moment]) (chronicle moment.after) seen [] rest ∧
      ∀ w, found = some (.ok w) → w = seen.stored := by
  obtain ⟨seen, early, late, answered⟩ := reads
  obtain ⟨rest, whole, foreign⟩ := late
  refine ⟨seen, rest, ?_, answered⟩
  refine ⟨by simp [whole], opened.before.trans early, by simp, fun d member => (foreign d member).1, ?_⟩
  intro m member answer read
  rcases List.mem_append.mp member with earlier | last
  · exact absurd read (opened.unread m earlier _)
  · obtain rfl : m = moment := by simpa using last
    obtain ⟨more, begun, _⟩ := early
    exact ⟨answered answer (by simpa [asked] using read), ⟨more, begun.symm⟩, ⟨rest, whole.symm⟩⟩

theorem Opened.answered {found : Option (Except Error (Option Workspace))}
    (opened : Opened chronicle id start t (chronicle moment.before)) (asked : moment.event = .fetched id found)
    (reads : Chronicle.Reads rules.others found (chronicle moment.before) (chronicle moment.after)) :
    Told chronicle id start (t ++ [moment]) (chronicle moment.after) := by
  obtain ⟨seen, rest, parted, _⟩ := opened.parted asked reads
  exact ⟨opened.exclusive.snoc (exclusive_of_idle reads.drifts.own), seen, [], rest, parted⟩

theorem Opened.held {found : Workspace} (opened : Opened chronicle id start t (chronicle moment.before))
    (asked : moment.event = .fetched id (some (.ok (some found)))) (identity : found.id = id)
    (reads : Chronicle.Reads rules.others (some (.ok (some found))) (chronicle moment.before)
      (chronicle moment.after)) :
    Held chronicle id start (t ++ [moment]) found (chronicle moment.after) := by
  obtain ⟨seen, rest, parted, answered⟩ := opened.parted asked reads
  have written := Chronicle.written_of_stored (answered (some found) rfl).symm
  have last : obtained (t ++ [moment]) = some found := obtained_snoc_of_some (by rw [asked]; rfl)
  exact ⟨opened.exclusive.snoc (exclusive_of_idle reads.drifts.own), identity, seen, [], rest, parted, found, last, rfl,
    by simpa using written⟩

end

def Position (chronicle : σ → Chronicle) (id : ResourceId) (start : σ) (t : List (Moment σ)) (w : Workspace)
    (l : Chronicle) : Stage σ → Prop
  | .opening => Opened chronicle id start t l
  | .ended _ => Told chronicle id start t l
  | .reporting _ next => Position chronicle id start t w l next
  | _ => Held chronicle id start t w l

section

variable {chronicle : σ → Chronicle} {id : ResourceId} {start s : σ} {t : List (Moment σ)} {moment : Moment σ}
variable {l l' : Chronicle} {w : Workspace} {stage : Stage σ}

theorem Position.told (position : Position chronicle id start t w l stage) : Told chronicle id start t l := by
  induction stage with
  | opening => exact Opened.told position
  | ended => exact position
  | reporting _ _ ih => exact ih position
  | _ => exact Held.told position

theorem Position.drift (position : Position chronicle id start t w l stage)
    (drifts : Chronicle.Drifts rules.others l l') : Position chronicle id start t w l' stage := by
  induction stage with
  | opening => exact ⟨position.exclusive, position.before.trans drifts, position.unread⟩
  | ended => exact Told.drift position drifts
  | reporting _ _ ih => exact ih position
  | _ => exact Held.drift position drifts

theorem Position.snoc (position : Position chronicle id start t w l stage)
    (idle : Chronicle.own (chronicle moment.before) (chronicle moment.after) = [])
    (unread : ∀ answer, moment.event ≠ .fetched id answer) (unobtained : moment.event.obtained? = none) :
    Position chronicle id start (t ++ [moment]) w l stage := by
  induction stage with
  | opening =>
      refine ⟨position.exclusive.snoc (exclusive_of_idle idle), position.before, fun m member => ?_⟩
      rcases List.mem_append.mp member with earlier | last
      · exact position.unread m earlier
      · obtain rfl : m = moment := by simpa using last
        exact unread
  | ended => exact Told.snoc position idle unread
  | reporting _ _ ih => exact ih position
  | _ => exact Held.snoc position idle unread unobtained

theorem Held.breakdown (held : Held chronicle id start t w l) (subroutine : String) (error : Error) :
    Position chronicle id start t w l (.breakdown subroutine error) := by
  unfold Stage.breakdown
  split
  · exact held.told
  · exact held

theorem Held.refused (held : Held chronicle id start t w l) (purpose : Purpose σ) (error : Error) :
    Position chronicle id start t w l (purpose.refused error) := by
  cases purpose with
  | register s todo outcome => exact held.breakdown s.name error
  | release s todo outcome result => exact held.breakdown s.name error
  | unlabel outcome => exact held.told

theorem Held.next (held : Held chronicle id start t w l) (purpose : Purpose σ) :
    Position chronicle id start t w l purpose.next := by
  cases purpose with
  | unlabel outcome => exact held.told
  | _ => exact held

theorem Held.verdict (held : Held chronicle id start t w l) (verdict : Verdict) :
    Position chronicle id start t w l verdict.next := by
  cases verdict with
  | outcome _ => exact held
  | failure _ => exact held.told

theorem Held.afterStep (held : Held chronicle id start t w l) (phase : Phase) (sub : Subroutine σ)
    (todo : List (Subroutine σ)) (outcome : Outcome) (result : Except OperatorError Outcome) :
    Position chronicle id start t w l (.afterStep phase sub todo outcome result) := by
  cases phase <;> exact held

end

theorem renewed_of_error {answer : Option (Except Error Workspace)} {error : Error}
    (refused : answer.getD (.error .cancelled) = .error error) (w : Workspace) : renewed w answer = w := by
  rcases answer with _ | (_ | stored)
  · rfl
  · rfl
  · simp at refused

section

variable {c : Cycle σ} {chronicle : σ → Chronicle} {id : ResourceId} {now : Timestamp} {fetched : Workspace}
variable {start s s' : σ} {t piece : List (Moment σ)} {w : Workspace} {stage : Stage σ}

theorem Held.updated {answer : Option (Except Error Workspace)} (held : Held chronicle id start t w (chronicle s))
    (recorded : Recorded c.manager c.world id chronicle rules) (fresh : ∀ s, (chronicle s).Fresh)
    (asked : Run.Asked c.world.cancelled (c.world.update w) (.updated w) s answer piece s') :
    Held chronicle id start (t ++ piece) (renewed w answer) (chronicle s') := by
  rcases asked.ends with ⟨rfl, rfl, rfl⟩ | ⟨rfl, ends⟩
  · simpa [renewed] using held
  · refine held.write (recorded.linked s') (fresh s') (recorded.update ends held.identity) rfl ?_
    rcases answer with _ | (_ | _) <;> rfl

theorem Held.statusUpdated {answer : Option (Except Error Workspace)}
    (held : Held chronicle id start t w (chronicle s))
    (recorded : Recorded c.manager c.world id chronicle rules) (fresh : ∀ s, (chronicle s).Fresh)
    (asked : Run.Asked c.world.cancelled (c.world.updateStatus w) (.statusUpdated w) s answer piece s') :
    Held chronicle id start (t ++ piece) (renewed w answer) (chronicle s') := by
  rcases asked.ends with ⟨rfl, rfl, rfl⟩ | ⟨rfl, ends⟩
  · simpa [renewed] using held
  · refine held.write (recorded.linked s') (fresh s') (recorded.updateStatus ends held.identity) rfl ?_
    rcases answer with _ | (_ | _) <;> rfl

theorem Held.stepped {sub : Subroutine σ} {phase : Phase} {answer : Option StepAnswer}
    (held : Held chronicle id start t w (chronicle s)) (recorded : Recorded c.manager c.world id chronicle rules)
    (member : sub ∈ c.manager.subroutines)
    (asked : Run.Asked c.world.cancelled (sub.step phase w) (.stepped sub.name phase w) s answer piece s') :
    Held chronicle id start (t ++ piece) w (chronicle s') := by
  rcases asked.ends with ⟨_, rfl, rfl⟩ | ⟨rfl, ends⟩
  · simpa using held
  · have drifts := recorded.step sub member ends
    exact (held.drift drifts).snoc drifts.own (by simp) rfl

theorem Opened.ended {found : Option (Except Error (Option Workspace))}
    (opened : Opened chronicle id start t (chronicle s))
    (recorded : Recorded c.manager c.world id chronicle rules)
    (asked : Run.Asked c.world.cancelled (c.world.get id) (.fetched id) s found piece s') :
    Told chronicle id start (t ++ piece) (chronicle s') := by
  rcases asked.ends with ⟨rfl, rfl, rfl⟩ | ⟨rfl, ends⟩
  · simpa using opened.told
  · exact opened.answered rfl (recorded.get ends).1

theorem Opened.begun {found : Workspace} (opened : Opened chronicle id start t (chronicle s))
    (recorded : Recorded c.manager c.world id chronicle rules)
    (asked : Run.Asked c.world.cancelled (c.world.get id) (.fetched id) s (some (.ok (some found))) piece s') :
    Held chronicle id start (t ++ piece) found (chronicle s') := by
  obtain ⟨rfl, ends⟩ := asked.answered
  exact opened.held rfl ((recorded.get ends).2 found rfl) (recorded.get ends).1

theorem position_of_course (recorded : Recorded c.manager c.world id chronicle rules)
    (fresh : ∀ s, (chronicle s).Fresh) (steady : c.manager.StepsKeep stamp)
    (course : Course c id now fetched start t stage w s) :
    Position chronicle id start t w (chronicle s) stage := by
  -- Step by step: in memory is the version that was obtained last, so that a write from it finds that or nothing.
  induction course with
  | start => exact ⟨.nil, .refl _ _, by simp⟩
  | note record _ ih => exact ih.snoc (by simp [Chronicle.own]) (by simp) rfl
  | unread _ asked _ ih => exact ih.ended recorded asked
  | absent _ asked ih => exact ih.ended recorded asked
  | skip _ asked _ _ ih => exact ih.ended recorded asked
  | fetch _ asked _ _ ih => exact (ih.begun recorded asked).same (stamp_amend ..)
  | stop _ _ ih => exact ih.told
  | pass _ _ _ ih => exact ih
  | enter _ _ _ ih => exact ih.same (stamp_amend ..)
  | condemned _ _ ih => exact ih
  | equipped _ _ _ ih => exact ih.same (stamp_register ..)
  | register _ _ _ ih => exact ih.same (stamp_register ..)
  | step course asked ih =>
      have member := course.mem_of_agenda List.mem_cons_self
      exact ((ih.stepped recorded member asked).same (steady.asked member asked)).afterStep ..
  | drop course asked ih => exact (ih.stepped recorded (course.mem_of_agenda List.mem_cons_self) asked).told
  | keep _ _ ih => exact ih.same (stamp_releaseIfIdle ..)
  | release _ _ ih => exact ih.same (stamp_releaseIfIdle ..)
  | written _ asked ih => exact (ih.updated recorded fresh asked).next _
  | unwritten _ asked answered ih =>
      have held := ih.updated recorded fresh asked
      rw [renewed_of_error answered] at held
      exact held.refused _ _
  | complete _ ih =>
      refine ih.same ?_
      split
      · exact stamp_amend ..
      · rfl
  | fail _ ih => exact ih.snoc (by simp [Chronicle.own]) (by simp) rfl
  | @report _ error _ _ s _ _ ih =>
      have drifts := recorded.capture error c.tags s
      exact (ih.drift drifts).snoc drifts.own (by simp) rfl
  | conceal _ _ ih => exact ih
  | abort _ ih => exact ih.same ((stamp_amend ..).trans (stamp_amend ..))
  | conclude _ _ ih => exact ih.same (stamp_amend ..)
  | schedule _ _ drawn ih =>
      exact (ih.drift (recorded.draw _)).same ((stamp_amend ..).trans (stamp_scheduleNext? drawn))
  | beyond _ _ _ ih => exact ih.told.drift (recorded.draw _)
  | unchanged _ _ ih => exact ih.verdict _
  | persist _ _ asked ih => exact (ih.statusUpdated recorded fresh asked).verdict _
  | vanish _ _ asked answered _ ih =>
      have held := ih.statusUpdated recorded fresh asked
      rw [renewed_of_error answered] at held
      exact held.verdict _
  | refuse _ _ asked answered _ ih =>
      have held := ih.statusUpdated recorded fresh asked
      rw [renewed_of_error answered] at held
      exact held.told
  | finish _ _ ih => exact ih.told
  | unlabel _ _ ih => exact ih.same (stamp_clearRefreshMarker ..)

end

/-- Every write of a reconcile that takes effect replaces what the reconcile read or wrote last, and from the first
change by others after its read none takes effect. -/
theorem writes_exclusive {m : Manager σ} {world : World σ} {id : ResourceId} {chronicle : σ → Chronicle}
    (recorded : Recorded m world id chronicle rules) (fresh : ∀ s, (chronicle s).Fresh) (steady : m.StepsKeep stamp)
    (s : σ) :
    Throughout (Exclusive chronicle) (m.reconcile world id s).trace ∧
      ∃ seen mine rest, Parted chronicle id s (m.reconcile world id s).trace
        (chronicle (m.reconcile world id s).state) seen mine rest := by
  obtain ⟨now, fetched, left, course⟩ := m.attempt_course world id s
  have told := Position.told (position_of_course recorded fresh steady course)
  have whole := Manager.reconcile_of_attempt (P := (Told chronicle id s · _)) (told.earlier (recorded.correlate s))
    fun _ _ _ earlier => earlier.snoc (by simp [Chronicle.own]) (by simp)
  rw [← (m.reconcile_attempt world id s).1] at whole
  exact ⟨whole.exclusive, whole.parted⟩

section

open Reconciler.Shelf

def pair : Manager (Shelf site) where
  operator := "converge"
  controller := "workspaces"
  subroutines := [worker "volume" ["volume"] leave leave, worker "proxy" ["proxy"] leave leave]
  conditions := true
  faultless := by decide

def contested : Shelf site :=
  stocked web [none, none, some (.retarget "shop")] .epoch

theorem writes_exclusive_contested :
    (pair.reconcile (Shelf.world site) site contested).state.chronicle.map (·.own) = [false, true, false] ∧
      Throughout (Exclusive Shelf.chronicle) (pair.reconcile (Shelf.world site) site contested).trace ∧
      ∃ seen mine rest, Parted Shelf.chronicle site contested (pair.reconcile (Shelf.world site) site contested).trace
        (pair.reconcile (Shelf.world site) site contested).state.chronicle seen mine rest := by
  have still : ∀ sub ∈ pair.subroutines, ∀ phase w s answer s', (sub.step phase w s).Ends answer s' →
      s' = s ∧ answer = some (leave w s) := by
    intro sub member phase w s answer s' ends
    simp only [pair, List.mem_cons, List.not_mem_nil, or_false] at member
    rcases member with rfl | rfl <;> simpa using answer_of_worker ends
  refine ⟨by decide +kernel, writes_exclusive ?_ (fun s => s.numbered.fresh) ?_ contested⟩
  · refine (Shelf.recorded pair ?_).mono (fun _ _ => trivial) ?_ ?_
    · intro sub member phase w s answer s' ends
      rw [(still sub member phase w s answer s' ends).1]
      exact .refl _ _
    · rintro given answer d ⟨store, stored, found, version, _⟩
      exact ⟨stored, found, version⟩
    · rintro given answer d ⟨store, stored, found, version, _⟩
      exact ⟨stored, found, version⟩
  · intro sub member phase w s answer s' ends
    have same := (still sub member phase w s (some answer) s' ends).2
    cases same
    rfl

end

end LostUpdate

end Reconciler
