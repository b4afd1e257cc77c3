import Reconciler.Proofs.Chronicle.Attribution
import Reconciler.Proofs.LostUpdate
import Reconciler.Proofs.Ownership

set_option autoImplicit false

namespace Reconciler

open Reconcile

variable {σ : Type}

-- The write leaves these labels of those that it finds. It neither condemns what it finds nor takes
-- it away, unless that is being deleted already.
def Deed.Puts (labels : Labels → Labels) (d : Deed) : Prop :=
  ∃ found written, d.found = some found ∧ d.written = some written ∧ written.labels = labels found.labels ∧
    written.isBeingDeleted = found.isBeingDeleted ∧ (d.leaves = true → found.isBeingDeleted = true)

def Event.isRefused : Event → Bool
  | updated _ (some (.error _)) | statusUpdated _ (some (.error _)) => true
  | _ => false

theorem Deed.Puts.alter {d : Deed} {labels labels' : Labels → Labels} {found : Workspace} (puts : d.Puts labels)
    (here : d.found = some found) (same : labels found.labels = labels' found.labels) : d.Puts labels' := by
  obtain ⟨_, written, there, wrote, put, deleted, leaves⟩ := puts
  obtain rfl := Option.some.inj (here.symm.trans there)
  exact ⟨found, written, here, wrote, put.trans same, deleted, leaves⟩

namespace RefreshMarker

open Ownership (Strips Relabels)

def Marked (stored : Option Workspace) : Prop :=
  stored.any Spread.hasRefreshMarker = true

instance : DecidablePred Marked :=
  fun stored => inferInstanceAs (Decidable (stored.any Spread.hasRefreshMarker = true))

abbrev Keeps : Deed → Prop :=
  Deed.Puts fun labels => labels

structure Clears (d : Deed) : Prop where
  puts : d.Puts fun labels => labels.erase Spread.refreshLabel
  live : ∃ found, d.found = some found ∧ found.isBeingDeleted = false ∧ Spread.hasRefreshMarker found = true

-- Others may do anything; a write replaces the version that it carries. One of the metadata stores the labels that it
-- was given, one of the status keeps the stored ones.
def rules : Rules where
  others _ := True
  update given _ d := LostUpdate.carries given d ∧ d.Puts fun _ => given.labels
  updateStatus given _ d := LostUpdate.carries given d ∧ Keeps d

def Failsafe (chronicle : σ → Chronicle) (t : List (Moment σ)) : Prop :=
  ∀ moment ∈ t, moment.event.isRefused = true → moment.deeds chronicle = []

-- The last call took the label off what was stored, and no write before it did.
structure Cleared (chronicle : σ → Chronicle) (s : σ) (ran : Ran σ (Except Stop Outcome)) (w : Workspace)
    (front : List Event) (given stored : Workspace) (upto rest : Chronicle) (d : Deed) : Prop where
  last : calls ran.trace = front ++ [.updated given (some (.ok stored))]
  earlier : ∀ event ∈ front, event.isWrite = true → ∀ other, event.given? = some other → other.labels = w.labels
  whole : chronicle ran.state = upto ++ d :: rest
  grows : chronicle s <+: upto
  kept : ∀ e ∈ Chronicle.own (chronicle s) upto, Keeps e
  clears : d.own = true ∧ Clears d
  left : d.left = some stored
  labels : stored.labels = w.labels.erase Spread.refreshLabel
  alone : ∀ e ∈ rest, e.own = false
  after : ∀ kept : Option Workspace → Prop, kept (some stored) → (∀ e ∈ rest, kept e.found → kept e.left) →
    kept (chronicle ran.state).stored

def Effect (event : Event) (given : Workspace) (d : Deed) : Prop :=
  (∃ answer, event = .updated given answer) ∧ d.Puts (fun _ => given.labels) ∨
    (∃ answer, event = .statusUpdated given answer) ∧ Keeps d

structure Made (past : List (Moment σ)) (event : Event) (d : Deed) : Prop where
  write : event.isWrite = true
  known : ∃ found, obtained past = some found ∧ d.found = some found
  answered : ∀ stored, event.obtained? = some stored → d.written = some stored
  effect : ∃ given, event.given? = some given ∧ Effect event given d

theorem write_cases {event : Event} (write : event.isWrite = true) :
    ∃ given answer, event = .updated given answer ∨ event = .statusUpdated given answer := by
  cases event <;> simp_all [Event.isWrite]

theorem answer_of_obtained {given stored : Workspace} {answer : Option (Except Error Workspace)}
    (obtained : (Event.updated given answer).obtained? = some stored ∨
      (Event.statusUpdated given answer).obtained? = some stored) : answer = some (.ok stored) := by
  rcases answer with _ | _ | _ <;> simp_all [Event.obtained?]

theorem left_of_puts {d : Deed} {labels : Labels → Labels} {found : Workspace} (puts : d.Puts labels)
    (here : d.found = some found) (live : found.isBeingDeleted = false) :
    ∃ written, d.left = some written ∧ written.labels = labels found.labels := by
  obtain ⟨_, written, there, wrote, put, _, leaves⟩ := puts
  obtain rfl := Option.some.inj (here.symm.trans there)
  have stays : d.leaves = false := by
    by_contra gone
    simp [leaves (by simpa using gone)] at live
  exact ⟨written, by simp [Deed.left, stays, wrote], put⟩

theorem marked_iff {stored : Option Workspace} :
    Marked stored ↔ ∃ w, stored = some w ∧ Spread.hasRefreshMarker w = true := by
  simp [Marked, Option.any_eq_true]

theorem labels_of_metadata {w w' : Workspace} (same : w.metadata.labels = w'.metadata.labels) : w.labels = w'.labels :=
  congrArg (·.getD .empty) same

structure Alike (fetched w : Workspace) : Prop where
  labels : w.labels = fetched.labels
  deleted : w.isBeingDeleted = fetched.isBeingDeleted

theorem Alike.hasRefreshMarker {fetched w : Workspace} (alike : Alike fetched w) :
    Spread.hasRefreshMarker w = Spread.hasRefreshMarker fetched :=
  congrArg (·.contains Spread.refreshLabel) alike.labels

theorem Alike.written {fetched found written : Workspace} {d : Deed} {labels : Labels → Labels}
    (alike : Alike fetched found) (puts : d.Puts labels) (here : d.found = some found)
    (wrote : d.written = some written) (same : labels found.labels = fetched.labels) : Alike fetched written := by
  obtain ⟨_, _, there, wrote', put, deleted, _⟩ := puts
  obtain rfl := Option.some.inj (here.symm.trans there)
  obtain rfl := Option.some.inj (wrote.symm.trans wrote')
  exact ⟨put.trans same, deleted.trans alike.deleted⟩

theorem strips_of_relabels {m : Manager σ} {fetched given : Workspace} {event : Event}
    (relabels : Relabels m fetched event given) : Strips fetched event := by
  obtain ⟨answer, update⟩ := relabels.update
  refine ⟨given, answer, update, fun same => ?_⟩
  have marked := Ownership.hasRefreshMarker_eq same
  simp [relabels.marked, Ownership.hasRefreshMarker_of_erased relabels.labels] at marked

section

variable {c : Cycle σ} {chronicle : σ → Chronicle} {id : ResourceId} {now : Timestamp} {fetched w left : Workspace}
variable {start s : σ} {t past rest : List (Moment σ)} {stage : Stage σ} {moment : Moment σ} {d : Deed}
variable {value : Except Stop Finished}

variable (recorded : Recorded c.manager c.world id chronicle rules) (fresh : ∀ s, (chronicle s).Fresh)
variable (steady : c.manager.StepsKeep fun w => (w.metadata, w.spec))

include recorded fresh steady

theorem position_of_course (course : Course c id now fetched start t stage w s) :
    LostUpdate.Position chronicle id start t w (chronicle s) stage := by
  have stamps : c.manager.StepsKeep LostUpdate.stamp := by
    intro sub member phase w s answer s' ends
    have metadata := Ownership.metadata_of_steady steady sub member phase w s answer s' ends
    simp [LostUpdate.stamp, Workspace.id, Workspace.displayName, metadata]
  have weaker : Recorded c.manager c.world id chronicle LostUpdate.rules :=
    recorded.mono (fun _ _ => trivial) (fun _ _ _ effect => effect.1) (fun _ _ _ effect => effect.1)
  exact LostUpdate.position_of_course weaker fresh stamps course

theorem named_of_course (course : Course c id now fetched start t stage w s) :
    Throughout (fun _ moment => moment.event.isWrite = true → ∀ given, moment.event.given? = some given →
      given.id = id) t := by
  refine course.throughout ?_ ?_ ?_ (fun course => ?_) (fun course => ?_)
  · exact fun past moment quiet write => absurd write (by simp [isWrite_of_not_isCall quiet])
  · intro t w s answer s' _ write
    simp [Event.isWrite] at write
  · intro t phase sub todo outcome w s answer s' _ write
    simp [Event.isWrite] at write
  · rintro _ given ⟨⟩
    exact (position_of_course recorded fresh steady course).identity
  · rintro _ given ⟨⟩
    exact (position_of_course recorded fresh steady course).identity

theorem writes_of_course (course : Course c id now fetched start t stage w s) (split : t = past ++ moment :: rest)
    (write : moment.event.isWrite = true) :
    ∃ given answer, moment.event.given? = some given ∧
      (∀ stored, moment.event.obtained? = some stored → answer = some (.ok stored)) ∧
      Chronicle.Writes (fun _ => True) (Effect moment.event given) answer (chronicle moment.before)
        (chronicle moment.after) := by
  have effects := (course.attributed recorded).effects moment (by simp [split])
  have named := named_of_course recorded fresh steady course past moment rest split write
  obtain ⟨given, answer, update | restate⟩ := write_cases write
  · simp only [Effects, update] at effects
    rw [update] at named ⊢
    refine ⟨given, answer, rfl, fun stored answered => answer_of_obtained (.inl answered), ?_⟩
    exact (effects (named given rfl)).mono (fun _ _ => trivial) fun d ⟨_, puts⟩ => .inl ⟨⟨answer, rfl⟩, puts⟩
  · simp only [Effects, restate] at effects
    rw [restate] at named ⊢
    refine ⟨given, answer, rfl, fun stored answered => answer_of_obtained (.inr answered), ?_⟩
    exact (effects (named given rfl)).mono (fun _ _ => trivial) fun d ⟨_, puts⟩ => .inr ⟨⟨answer, rfl⟩, puts⟩

theorem deed_of_answer {stored : Workspace} (course : Course c id now fetched start t stage w s)
    (split : t = past ++ moment :: rest) (write : moment.event.isWrite = true)
    (answered : moment.event.obtained? = some stored) : ∃ d, moment.deeds chronicle = [d] := by
  obtain ⟨given, answer, _, told, writes⟩ := writes_of_course recorded fresh steady course split write
  obtain rfl := told stored answered
  exact writes.of_ok

theorem made_of_course (course : Course c id now fetched start t stage w s) (split : t = past ++ moment :: rest)
    (member : d ∈ moment.deeds chronicle) : Made past moment.event d := by
  obtain ⟨write, found, known, here⟩ :=
    (position_of_course recorded fresh steady course).told.exclusive past moment rest split d member
  obtain ⟨given, answer, gave, told, writes⟩ := writes_of_course recorded fresh steady course split write
  obtain ⟨_, effect, wrote⟩ := writes.of_own member
  exact ⟨write, ⟨found, known, here⟩, fun stored answered => wrote stored (told stored answered), given, gave, effect⟩

omit recorded fresh steady in
theorem reads_of_course (course : Course c id now fetched start t stage w s) :
    Throughout (fun _ moment => ∀ other answer, moment.event = .fetched other answer → other = id) t := by
  refine course.throughout ?_ ?_ ?_ (fun _ => ?_) fun _ => ?_
  · rintro past moment quiet other answer read
    simp [read, Event.isCall] at quiet
  · rintro t w s answer s' _ other found ⟨⟩
    rfl
  · rintro t phase sub todo outcome w s answer s' _ other found ⟨⟩
  · rintro other found ⟨⟩
  · rintro other found ⟨⟩

theorem alike_of_obtained (course : Course c id now fetched start t (.ended value) left s) (split : t = past ++ rest)
    (unstripped : ∀ moment ∈ past, ¬Strips fetched moment.event) (known : obtained past = some w) :
    Alike fetched w := by
  -- Each answer is made of the one before it: a write takes effect on nothing else.
  induction past using List.reverseRecOn generalizing rest w with
  | nil => simp [obtained] at known
  | append_singleton past moment ih =>
      have here : t = past ++ moment :: rest := by simpa using split
      have before {w : Workspace} : obtained past = some w → Alike fetched w :=
        ih here fun m member => unstripped m (by simp [member])
      rcases gained : moment.event.obtained? with _ | stored
      · exact before (obtained_snoc_of_none gained ▸ known)
      obtain rfl : stored = w := by simpa [obtained_snoc_of_some gained] using known
      by_cases write : moment.event.isWrite = true
      · obtain ⟨d, alone⟩ := deed_of_answer recorded fresh steady course here write gained
        obtain ⟨_, ⟨found, last, there⟩, answered, given, _, puts⟩ :=
          made_of_course recorded fresh steady course here (alone ▸ List.mem_singleton_self d)
        have wrote := answered stored gained
        rcases puts with ⟨⟨answer, update⟩, puts⟩ | ⟨_, puts⟩
        · have same : given.metadata.labels = fetched.metadata.labels := by
            by_contra other
            exact unstripped moment (by simp) ⟨given, answer, update, other⟩
          exact (before last).written puts there wrote (labels_of_metadata same)
        · exact (before last).written puts there wrote (before last).labels
      · have read : moment.event = .fetched id (some (.ok (some stored))) := by
          have named := reads_of_course course past moment rest here
          rcases event : moment.event with ⟨other, _ | _ | found⟩ | _ | _ | _ | _ | _ | _ <;>
            simp_all [Event.obtained?, Event.isWrite]
        obtain ⟨rfl, _⟩ := course.found_eq ⟨by simp [here], read⟩
        exact ⟨rfl, rfl⟩

omit recorded fresh in
theorem unstripped_of_course (course : Course c id now fetched start t stage w s)
    (split : t = past ++ moment :: rest) (call : moment.event.isCall = true) :
    ∀ earlier ∈ past, ¬Strips fetched earlier.event := by
  intro earlier among strips
  obtain ⟨front, back, rfl⟩ := List.append_of_mem among
  have last := Ownership.last_of_course steady course front earlier (back ++ moment :: rest) (by simp [split]) strips
  rw [calls_split call] at last
  simp at last

omit recorded fresh in
theorem labels_of_course (course : Course c id now fetched start t stage w s)
    (split : t = past ++ moment :: rest) (call : moment.event.isCall = true) :
    ∀ earlier ∈ past, earlier.event.isWrite = true → ∀ given, earlier.event.given? = some given →
      given.labels = fetched.labels := by
  intro earlier among write given gave
  have unstripped := unstripped_of_course steady course split call earlier among
  obtain ⟨front, back, rfl⟩ := List.append_of_mem among
  rcases (Ownership.writes_of_course steady course front earlier (back ++ moment :: rest) (by simp [split]) write given
    gave).2 with same | relabels
  · exact labels_of_metadata same
  · exact absurd (strips_of_relabels relabels) unstripped

theorem deed_of_course (course : Course c id now fetched start t (.ended value) left s)
    (split : t = past ++ moment :: rest) (member : d ∈ moment.deeds chronicle) :
    (∃ found, d.found = some found ∧ Alike fetched found) ∧ (¬Strips fetched moment.event → Keeps d) ∧
      (Strips fetched moment.event → c.manager.spread = true ∧ Clears d) := by
  obtain ⟨write, ⟨found, last, here⟩, _, given, gave, puts⟩ := made_of_course recorded fresh steady course split member
  -- It is not preceded by the write that takes the label off, since no call comes after that one.
  have unstripped := unstripped_of_course steady course split (Ownership.isCall_of_isWrite write)
  have alike := alike_of_obtained recorded fresh steady course split unstripped last
  refine ⟨⟨found, here, alike⟩, ?_⟩
  rcases puts with ⟨⟨answer, update⟩, puts⟩ | ⟨⟨answer, restate⟩, puts⟩
  · rcases (Ownership.writes_of_course steady course past moment rest split write given gave).2 with same | relabels
    · refine ⟨fun _ => puts.alter here ((labels_of_metadata same).trans alike.labels.symm), ?_⟩
      rintro ⟨_, _, again, other⟩
      cases update.symm.trans again
      exact absurd same other
    · have strips := strips_of_relabels relabels
      refine ⟨fun kept => absurd strips kept, fun _ => ⟨relabels.spread, ?_, found, here, ?_, ?_⟩⟩
      · refine puts.alter here ?_
        rw [alike.labels, Workspace.labels, relabels.labels]
        rfl
      · exact alike.deleted.trans relabels.live
      · exact alike.hasRefreshMarker.trans relabels.marked
  · exact ⟨fun _ => puts, fun strips => absurd strips (Ownership.unstripped_of_ne (by simp [restate]))⟩

theorem kept_of_failure {stop : Stop} (course : Course c id now fetched start t (.ended (.error stop)) left s)
    (uncancelled : stop ≠ .error .cancelled) (failsafe : Failsafe chronicle t) (split : t = past ++ moment :: rest)
    (member : d ∈ moment.deeds chronicle) : Keeps d := by
  refine (deed_of_course recorded fresh steady course split member).2.1 ?_
  rintro ⟨given, answer, update, other⟩
  have strips : Strips fetched moment.event := ⟨given, answer, update, other⟩
  rcases (Ownership.decided_of_course steady answer course past moment rest split ⟨strips, given, update⟩).2 with
    ⟨_, finished, well⟩ | ⟨error, refused, failed⟩
  · simp at well
  · obtain rfl : stop = .error error := by simpa using failed
    -- Without an answer the reconcile was cancelled, and an error has done nothing.
    rcases answer with _ | _ | stored
    · simp_all
    · have nothing := failsafe moment (by simp [split]) (by rw [update]; rfl)
      simp [nothing] at member
    · simp at refused

theorem idle_of_course (course : Course c id now fetched start t stage w s) (split : t = past ++ rest)
    (quiet : calls rest = []) : rest.flatMap (Moment.deeds chronicle) = [] := by
  refine List.flatMap_eq_nil_iff.mpr fun moment among => List.eq_nil_iff_forall_not_mem.mpr fun d member => ?_
  obtain ⟨front, back, rfl⟩ := List.append_of_mem among
  have here : t = (past ++ front) ++ moment :: back := by simp [split]
  have call := Ownership.isCall_of_isWrite (made_of_course recorded fresh steady course here member).write
  simp [calls_split call] at quiet

theorem clearing_of_course {stored : Workspace} (course : Course c id now fetched start t (.ended value) left s)
    (live : fetched.isBeingDeleted = false) (split : t = past ++ moment :: rest) (strips : Strips fetched moment.event)
    (gained : moment.event.obtained? = some stored) (last : calls rest = []) :
    ∃ d, t.flatMap (Moment.deeds chronicle) = past.flatMap (Moment.deeds chronicle) ++ [d] ∧ Clears d ∧
      d.left = some stored ∧ stored.labels = fetched.labels.erase Spread.refreshLabel := by
  have write : moment.event.isWrite = true := by
    obtain ⟨_, _, update, _⟩ := strips
    rw [update]
    rfl
  obtain ⟨d, alone⟩ := deed_of_answer recorded fresh steady course split write gained
  have mine : d ∈ moment.deeds chronicle := by simp [alone]
  have before : t = (past ++ [moment]) ++ rest := by simp [split]
  have still := idle_of_course recorded fresh steady course before last
  obtain ⟨⟨found, here, alike⟩, _, clears⟩ := deed_of_course recorded fresh steady course split mine
  obtain ⟨_, clears⟩ := clears strips
  obtain ⟨written, left, labels⟩ := left_of_puts clears.puts here (alike.deleted.trans live)
  have wrote := (made_of_course recorded fresh steady course split mine).answered stored gained
  obtain rfl := Option.some.inj (wrote.symm.trans (Deed.written_of_left left))
  refine ⟨d, ?_, clears, left, alike.labels ▸ labels⟩
  rw [split, List.flatMap_append, List.flatMap_cons, alone, still, List.append_nil]

end

section

variable {m : Manager σ} {world : World σ} {chronicle : σ → Chronicle} {id : ResourceId} {s : σ} {read : Moment σ}
variable {w : Workspace}

variable (recorded : Recorded m world id chronicle rules) (fresh : ∀ s, (chronicle s).Fresh)
variable (steady : m.StepsKeep fun w => (w.metadata, w.spec))

include recorded fresh steady

theorem keeps_or_clears {d : Deed}
    (member : d ∈ Chronicle.own (chronicle s) (chronicle (m.attempt world id s).state)) :
    Keeps d ∨ m.spread = true ∧ Clears d := by
  obtain ⟨_, fetched, _, course⟩ := m.attempt_course world id s
  obtain ⟨past, moment, rest, split, here⟩ := (recorded.attributed s).exists_moment member
  have deed := deed_of_course recorded fresh steady course split here
  by_cases strips : Strips fetched moment.event
  · exact .inr (deed.2.2 strips)
  · exact .inl (deed.2.1 strips)

theorem cleared_of_attempt {finished : Finished} (spread : m.spread = true)
    (found : Finds id (m.attempt world id s).trace read w) (live : w.isBeingDeleted = false)
    (marked : Spread.hasRefreshMarker w = true) (ended : (m.attempt world id s).value = .ok finished) :
    ∃ front given stored upto rest d,
      Cleared chronicle s (m.reconcile world id s) w front given stored upto rest d := by
  obtain ⟨⟨_, course⟩, _⟩ := Manager.attempt_finds found
  have attributed := recorded.attributed s
  obtain ⟨front, given, stored, made, unmarked⟩ :=
    Ownership.unmarked_of_attempt steady spread found live marked ended
  obtain ⟨past, moment, rest, split, update, rfl, last⟩ := moment_of_calls made
  -- What was given has lost the label, so that its labels are not those that were read.
  have strips : Strips w moment.event := by
    refine ⟨given, _, update, fun same => ?_⟩
    simp [Ownership.hasRefreshMarker_eq same, marked] at unmarked
  have call : moment.event.isCall = true := by rw [update]; rfl
  obtain ⟨d, deeds, clears, left, labels⟩ :=
    clearing_of_course recorded fresh steady course live split strips (by rw [update]; rfl) last
  obtain ⟨upto, more, whole, grows, earlier, foreign⟩ :=
    Chronicle.last_own attributed.whole (attributed.own.trans deeds)
  have state := (m.reconcile_attempt world id s).1
  refine ⟨calls past, given, stored, upto, more, d, ?last, ?earlier, ?whole, grows, ?kept, ?clears, left, labels,
    foreign, ?after⟩
  case last => rw [calls_reconcile, made]
  case whole => rw [state, whole]
  case earlier =>
    intro event asked write other gave
    obtain ⟨⟨m', among, rfl⟩, _⟩ := mem_calls.mp asked
    exact labels_of_course steady course split call m' among write other gave
  case kept =>
    intro e member
    obtain ⟨m', among, mine⟩ := List.mem_flatMap.mp (earlier ▸ member)
    obtain ⟨front, back, rfl⟩ := List.append_of_mem among
    have here : (m.attempt world id s).trace = front ++ m' :: (back ++ moment :: rest) := by simp [split]
    exact (deed_of_course recorded fresh steady course here mine).2.1
      (unstripped_of_course steady course split call m' among)
  case clears =>
    have mine : d ∈ Chronicle.own (chronicle s) (chronicle (m.attempt world id s).state) := by
      rw [attributed.own, deeds]
      simp
    exact ⟨(List.mem_filter.mp mine).2, clears⟩
  case after =>
    intro kept first each
    have linked := recorded.linked (m.attempt world id s).state
    rw [whole, List.append_cons] at linked
    rw [state, whole, List.append_cons]
    exact Chronicle.stored_append kept linked (by rwa [Chronicle.stored_snoc, left]) each

theorem marked_of_failure {stop : Stop} (failed : (m.attempt world id s).value = .error stop)
    (uncancelled : stop ≠ .error .cancelled) (failsafe : Failsafe chronicle (m.attempt world id s).trace)
    (live : ∀ read w, Finds id (m.attempt world id s).trace read w → w.isBeingDeleted = false) {seen : Chronicle}
    (since : chronicle s <+: seen) (grows : seen <+: chronicle (m.attempt world id s).state)
    (others : ∀ e ∈ (chronicle (m.attempt world id s).state).drop seen.length, e.own = false →
      Marked e.found → Marked e.left)
    (marked : Marked seen.stored) : Marked (chronicle (m.attempt world id s).state).stored := by
  obtain ⟨_, fetched, _, course⟩ := m.attempt_course world id s
  rw [failed] at course
  have linked := recorded.linked (m.attempt world id s).state
  have attributed := recorded.attributed s
  have whole := Chronicle.own_trans since grows
  obtain ⟨more, same⟩ := grows
  rw [← same] at linked others whole ⊢
  rw [List.drop_left] at others
  refine Chronicle.stored_append Marked linked marked fun e member => ?_
  rcases mine : e.own
  · exact others e member mine
  · -- What it finds is live, as what was read is, so that it leaves something with the labels found.
    intro there
    obtain ⟨v, here, there⟩ := marked_iff.mp there
    have deed : e ∈ Chronicle.own (chronicle s) (chronicle (m.attempt world id s).state) := by
      rw [← same, whole, Chronicle.own_append]
      exact List.mem_append_right _ (List.mem_filter.mpr ⟨member, mine⟩)
    obtain ⟨past, moment, rest, split, mine⟩ := attributed.exists_moment deed
    have keeps := kept_of_failure recorded fresh steady course uncancelled failsafe split mine
    obtain ⟨⟨found, before, alike⟩, _⟩ := deed_of_course recorded fresh steady course split mine
    obtain rfl := Option.some.inj (here.symm.trans before)
    have write := (made_of_course recorded fresh steady course split mine).write
    obtain ⟨read, finds⟩ := Ownership.found_of_writing course past moment rest split write
    have alive := live read fetched ⟨by simp [split, finds.1], finds.2⟩
    obtain ⟨written, left, labels⟩ := left_of_puts keeps here (alike.deleted.trans alive)
    refine marked_iff.mpr ⟨written, left, ?_⟩
    rwa [Spread.hasRefreshMarker, labels]

omit fresh steady in
theorem seen_of_finds (found : Finds id (m.attempt world id s).trace read w) :
    ∃ seen : Chronicle, chronicle s <+: seen ∧ seen <+: chronicle (m.attempt world id s).state ∧
      seen.stored = some w := by
  obtain ⟨_, _, _, course⟩ := m.attempt_course world id s
  have grown := (course.grown recorded).1
  obtain ⟨before, seen, early, late, answered⟩ := grown.read read found.1 _ found.2
  have start := (recorded.correlate s).grows.trans before.grows
  exact ⟨seen, start.trans early.grows, late.grows.trans (grown.past read found.1), (answered (some w) rfl).symm⟩

end

/-- A live workspace with the label is reconciled. If that goes well, the label is taken off by the last call, which
leaves all other labels; if it fails, the label stays. With spreading off, or from a workspace that is being deleted, it
is never taken off. -/
theorem cleared_last_or_kept {m : Manager σ} {world : World σ} {id : ResourceId} {chronicle : σ → Chronicle}
    (recorded : Recorded m world id chronicle rules) (fresh : ∀ s, (chronicle s).Fresh)
    (steady : m.StepsKeep fun w => (w.metadata, w.spec)) (s : σ) :
    let ran := m.reconcile world id s
    (∀ d ∈ Chronicle.own (chronicle s) (chronicle ran.state), Keeps d ∨ m.spread = true ∧ Clears d) ∧
    (∀ read w, Finds id ran.trace read w → m.spread = true → w.isBeingDeleted = false →
      Spread.hasRefreshMarker w = true →
      (∃ seen : Chronicle, chronicle s <+: seen ∧ seen <+: chronicle ran.state ∧ seen.stored = some w) ∧
      (∀ outcome, (m.attempt world id s).value ≠ .ok (.skipped outcome)) ∧
      ∀ outcome, ran.value = .ok outcome →
        ∃ front given stored upto rest d, Cleared chronicle s ran w front given stored upto rest d) ∧
    ∀ stop, ran.value = .error stop → stop ≠ .error .cancelled → Failsafe chronicle ran.trace →
      (∀ read w, Finds id ran.trace read w → w.isBeingDeleted = false) →
      ∀ seen : Chronicle, chronicle s <+: seen → seen <+: chronicle ran.state →
        (∀ e ∈ (chronicle ran.state).drop seen.length, e.own = false → Marked e.found → Marked e.left) →
        Marked seen.stored → Marked (chronicle ran.state).stored := by
  intro ran
  obtain ⟨state, metrics, trace⟩ := m.reconcile_attempt world id s
  have value := m.value_reconcile world id s
  refine ⟨fun d member => ?deeds, fun read w found spread live marked => ⟨?seen, ?due, fun outcome fine => ?fine⟩,
    fun stop failed uncancelled failsafe live seen since grows others marked => ?failed⟩
  case deeds => exact keeps_or_clears recorded fresh steady (state ▸ member)
  case seen => exact state ▸ seen_of_finds recorded (finds_reconcile.mp found)
  case due => exact Ownership.unskipped_of_marked (finds_reconcile.mp found) marked
  case fine =>
    obtain ⟨finished, ended⟩ : ∃ finished, (m.attempt world id s).value = .ok finished := by
      rcases ended : (m.attempt world id s).value with stop | finished
      · simp [ran, value, ended, Except.map] at fine
      · exact ⟨finished, rfl⟩
    exact cleared_of_attempt recorded fresh steady spread (finds_reconcile.mp found) live marked ended
  case failed =>
    have ended : (m.attempt world id s).value = .error stop := by
      rcases ended : (m.attempt world id s).value with _ | finished
      · simpa [ran, value, ended, Except.map] using failed
      · simp [ran, value, ended, Except.map] at failed
    rw [state] at grows others ⊢
    refine marked_of_failure recorded fresh steady ended uncancelled (fun moment among => ?_)
      (fun read w found => live read w (finds_reconcile.mpr found)) since grows others marked
    exact failsafe moment (trace ▸ List.mem_append_left _ among)

section

open Reconciler.Shelf
open Ownership (spreader labelled)

theorem recorded_spreader : Recorded spreader (Shelf.world site) site Shelf.chronicle rules ∧
    spreader.StepsKeep fun w => (w.metadata, w.spec) := by
  have still : ∀ sub ∈ spreader.subroutines, ∀ phase w s answer s', (sub.step phase w s).Ends answer s' →
      s' = s ∧ answer = some (leave w s) := by
    intro sub member phase w s answer s' ends
    simp only [spreader, List.mem_cons, List.not_mem_nil, or_false] at member
    rcases member with rfl | rfl <;> simpa using answer_of_worker ends
  constructor
  · refine (Shelf.recorded spreader ?_).mono (fun _ _ => trivial) ?_ ?_
    · intro sub member phase w s answer s' ends
      rw [(still sub member phase w s answer s' ends).1]
      exact .refl _ _
    · rintro given answer d ⟨store, stored, found, version, _, written, leaves⟩
      refine ⟨⟨stored, found, version⟩, stored, _, found, written, rfl, rfl, fun gone => ?_⟩
      simp_all
    · rintro given answer d ⟨store, stored, found, version, _, written, leaves⟩
      refine ⟨⟨stored, found, version⟩, stored, _, found, written, rfl, rfl, fun gone => ?_⟩
      simp_all
  · intro sub member phase w s answer s' ends
    cases (still sub member phase w s (some answer) s' ends).2
    rfl

def outrun : Shelf site :=
  stocked labelled [none, none, none, none, some (.retarget "shop")] .epoch

theorem cleared_last_or_kept_outrun :
    let fine := spreader.reconcile (Shelf.world site) site (stocked labelled [] .epoch)
    let late := spreader.reconcile (Shelf.world site) site outrun
    fine.value = .ok .done ∧
      (∃ front given stored upto rest d, Cleared Shelf.chronicle (stocked labelled [] .epoch) fine
        (labelled.setResourceVersion (some "1")) front given stored upto rest d) ∧
      late.state.chronicle.map (·.own) = [false, true, true, true, false] ∧
      late.value = .error (.error (.client (.api ⟨"Failure", "Conflict from shelf", "Conflict", 409⟩))) ∧
      Marked late.state.chronicle.stored := by
  intro fine late
  obtain ⟨recorded, steady⟩ := recorded_spreader
  have fresh (s : Shelf site) : s.chronicle.Fresh := s.numbered.fresh
  have found : Finds site fine.trace (fine.trace.get ⟨1, by decide +kernel⟩)
      (labelled.setResourceVersion (some "1")) := finds_get (by decide +kernel)
  have value : fine.value = .ok .done := by decide +kernel
  obtain ⟨_, cleared, _⟩ := cleared_last_or_kept recorded fresh steady (stocked labelled [] .epoch)
  obtain ⟨_, _, kept⟩ := cleared_last_or_kept recorded fresh steady outrun
  have failed : late.value = .error (.error (.client (.api ⟨"Failure", "Conflict from shelf", "Conflict", 409⟩))) := by
    decide +kernel
  have alive : ∀ moment ∈ late.trace, (moment.event.found? site).any (·.isBeingDeleted) = false := by decide +kernel
  have failsafe : Failsafe Shelf.chronicle late.trace := by
    unfold Failsafe
    decide +kernel
  refine ⟨value, (cleared _ _ found rfl rfl (by decide)).2.2 .done value, by decide +kernel, failed, ?_⟩
  refine kept _ failed (by decide) failsafe ?_ outrun.chronicle List.prefix_rfl ?_ ?_ (by decide +kernel)
  · rintro read w ⟨member, found⟩
    simpa [Event.found?, found] using alive read member
  · exact recorded.reconcile_grows outrun
  · decide +kernel

end

end RefreshMarker

end Reconciler
