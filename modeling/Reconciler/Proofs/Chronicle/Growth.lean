import Reconciler.Proofs.Chronicle.Basic
import Reconciler.Proofs.Course.Turnout

set_option autoImplicit false

namespace Reconciler

open Reconcile

variable {σ : Type}

structure Grown (chronicle : σ → Chronicle) (others : Deed → Prop) (id : ResourceId) (start : σ) (t : List (Moment σ))
    (l : Chronicle) : Prop where
  whole : chronicle start <+: l
  since : ∀ moment ∈ t, chronicle start <+: chronicle moment.before ∧ chronicle moment.before <+: chronicle moment.after
  past : ∀ moment ∈ t, chronicle moment.after <+: l
  read : ∀ moment ∈ t, ∀ answer, moment.event = .fetched id answer →
    Chronicle.Drifts others (chronicle start) (chronicle moment.before) ∧
      Chronicle.Reads others answer (chronicle moment.before) (chronicle moment.after)

def Opened (c : Cycle σ) (id : ResourceId) (now : Timestamp) (fetched : Workspace) (done : List Event) :
    Stage σ → Prop
  | .opening => done = []
  | .ended (.ok .notFound) => done = [.fetched id (some (.ok none))]
  | .ended (.ok (.skipped outcome)) =>
      done = [.fetched id (some (.ok (some fetched)))] ∧ (skips c now fetched).map .requeueAfter = some outcome
  | .ended (.error (.error error)) => ∃ answer, answer.getD (.error .cancelled) = .error error ∧
      (done = [.fetched id answer] ∨ done = [] ∧ answer = none)
  | .reporting _ next => Opened c id now fetched done next
  | _ => False

section

variable {c : Cycle σ} {chronicle : σ → Chronicle} {rules : Rules} {others : Deed → Prop} {id : ResourceId}
variable {now : Timestamp} {fetched : Workspace} {start s s' : σ} {t piece : List (Moment σ)} {w : Workspace}
variable {stage : Stage σ} {moment : Moment σ} {l l' : Chronicle}

theorem Grown.grow (grown : Grown chronicle others id start t l) (more : l <+: l') :
    Grown chronicle others id start t l' :=
  ⟨grown.whole.trans more, grown.since, fun moment member => (grown.past moment member).trans more, grown.read⟩

theorem Grown.snoc (grown : Grown chronicle others id start t l)
    (since : chronicle start <+: chronicle moment.before ∧ chronicle moment.before <+: chronicle moment.after)
    (last : chronicle moment.after <+: l)
    (read : ∀ answer, moment.event = .fetched id answer →
      Chronicle.Drifts others (chronicle start) (chronicle moment.before) ∧
        Chronicle.Reads others answer (chronicle moment.before) (chronicle moment.after)) :
    Grown chronicle others id start (t ++ [moment]) l := by
  refine ⟨grown.whole, ?_, ?_, ?_⟩
  · intro m member
    rcases List.mem_append.mp member with earlier | final
    · exact grown.since m earlier
    · exact List.mem_singleton.mp final ▸ since
  · intro m member
    rcases List.mem_append.mp member with earlier | final
    · exact grown.past m earlier
    · exact List.mem_singleton.mp final ▸ last
  · intro m member answer asked
    rcases List.mem_append.mp member with earlier | final
    · exact grown.read m earlier answer asked
    · obtain rfl := List.mem_singleton.mp final
      exact read answer asked

theorem Grown.asked {α : Type} {stop : σ → Bool} {call : σ → Call σ α} {event : Option α → Event} {answer : Option α}
    (grown : Grown chronicle others id start t (chronicle s)) (asked : Run.Asked stop call event s answer piece s')
    (more : (call s).Ends answer s' → chronicle s <+: chronicle s')
    (other : ∀ answer found, event answer ≠ .fetched id found) :
    Grown chronicle others id start (t ++ piece) (chronicle s') := by
  rcases asked.ends with ⟨_, rfl, rfl⟩ | ⟨rfl, ends⟩
  · simpa using grown
  · exact (grown.grow (more ends)).snoc ⟨grown.whole, more ends⟩ List.prefix_rfl fun found read =>
      absurd read (other _ _)

theorem Recorded.update_grows (recorded : Recorded c.manager c.world id chronicle rules)
    {answer : Option (Except Error Workspace)} (ends : (c.world.update w s).Ends answer s') :
    chronicle s <+: chronicle s' := by
  by_cases here : w.id = id
  · exact (recorded.update ends here).grows
  · exact (recorded.elsewhere here (.inl ends)).grows

theorem Recorded.updateStatus_grows (recorded : Recorded c.manager c.world id chronicle rules)
    {answer : Option (Except Error Workspace)} (ends : (c.world.updateStatus w s).Ends answer s') :
    chronicle s <+: chronicle s' := by
  by_cases here : w.id = id
  · exact (recorded.updateStatus ends here).grows
  · exact (recorded.elsewhere here (.inr ends)).grows

theorem Grown.get {found : Option (Except Error (Option Workspace))}
    (grown : Grown chronicle rules.others id start t (chronicle s))
    (before : Chronicle.Drifts rules.others (chronicle start) (chronicle s))
    (recorded : Recorded c.manager c.world id chronicle rules)
    (asked : Run.Asked c.world.cancelled (c.world.get id) (.fetched id) s found piece s') :
    Grown chronicle rules.others id start (t ++ piece) (chronicle s') := by
  rcases asked.ends with ⟨_, rfl, rfl⟩ | ⟨rfl, ends⟩
  · simpa using grown
  · have reads := (recorded.get ends).1
    refine (grown.grow reads.drifts.grows).snoc ⟨grown.whole, reads.drifts.grows⟩ List.prefix_rfl fun answer read => ?_
    obtain rfl : found = answer := by simpa using read
    exact ⟨before, reads⟩

def Untouched (chronicle : σ → Chronicle) (others : Deed → Prop) (start : σ) (l : Chronicle) : Stage σ → Prop
  | .opening => Chronicle.Drifts others (chronicle start) l
  | .reporting _ next => Untouched chronicle others start l next
  | _ => True

theorem untouched_of_amid (amid : stage.Amid) : Untouched chronicle others start l stage := by
  induction stage with
  | opening => exact amid.elim
  | reporting _ _ ih => exact ih amid
  | _ => trivial

theorem Untouched.drift (untouched : Untouched chronicle others start l stage)
    (drifts : Chronicle.Drifts others l l') : Untouched chronicle others start l' stage := by
  induction stage with
  | opening => exact Chronicle.Drifts.trans untouched drifts
  | reporting _ _ ih => exact ih untouched
  | _ => trivial

theorem Course.grown (recorded : Recorded c.manager c.world id chronicle rules)
    (course : Course c id now fetched start t stage w s) :
    Grown chronicle rules.others id start t (chronicle s) ∧
      Untouched chronicle rules.others start (chronicle s) stage := by
  induction course with
  | start => exact ⟨⟨List.prefix_rfl, by simp, by simp, by simp⟩, .refl _ _⟩
  | note record _ ih => exact ⟨ih.1.snoc ⟨ih.1.whole, List.prefix_rfl⟩ List.prefix_rfl (by simp), ih.2⟩
  | unread _ asked _ ih => exact ⟨ih.1.get ih.2 recorded asked, trivial⟩
  | absent _ asked ih => exact ⟨ih.1.get ih.2 recorded asked, trivial⟩
  | skip _ asked _ _ ih => exact ⟨ih.1.get ih.2 recorded asked, trivial⟩
  | fetch _ asked _ _ ih => exact ⟨ih.1.get ih.2 recorded asked, trivial⟩
  | stop _ _ ih => exact ⟨ih.1, trivial⟩
  | pass _ _ _ ih => exact ih
  | enter _ _ _ ih => exact ih
  | condemned _ _ ih => exact ih
  | equipped _ _ _ ih => exact ih
  | register _ _ _ ih => exact ih
  | step course asked ih =>
      have member := course.mem_of_agenda List.mem_cons_self
      exact ⟨ih.1.asked asked (fun ends => (recorded.step _ member ends).grows) (by simp),
        untouched_of_amid (amid_afterStep ..)⟩
  | drop course asked ih =>
      have member := course.mem_of_agenda List.mem_cons_self
      exact ⟨ih.1.asked asked (fun ends => (recorded.step _ member ends).grows) (by simp), trivial⟩
  | keep _ _ ih => exact ih
  | release _ _ ih => exact ih
  | written _ asked ih =>
      exact ⟨ih.1.asked asked recorded.update_grows (by simp), untouched_of_amid (amid_next _)⟩
  | unwritten _ asked _ ih =>
      exact ⟨ih.1.asked asked recorded.update_grows (by simp), untouched_of_amid (amid_refused _ _)⟩
  | complete _ ih => exact ih
  | fail _ ih => exact ⟨ih.1.snoc ⟨ih.1.whole, List.prefix_rfl⟩ List.prefix_rfl (by simp), trivial⟩
  | @report _ error _ _ s _ _ ih =>
      have drifts := recorded.capture error c.tags s
      exact ⟨(ih.1.grow drifts.grows).snoc ⟨ih.1.whole, drifts.grows⟩ List.prefix_rfl (by simp),
        Untouched.drift ih.2 drifts⟩
  | conceal _ _ ih => exact ih
  | abort _ ih => exact ih
  | conclude _ _ ih => exact ih
  | schedule _ _ _ ih => exact ⟨ih.1.grow (recorded.draw _).grows, trivial⟩
  | beyond _ _ _ ih => exact ⟨ih.1.grow (recorded.draw _).grows, trivial⟩
  | unchanged _ _ ih => exact ⟨ih.1, untouched_of_amid (amid_verdict _)⟩
  | persist _ _ asked ih =>
      exact ⟨ih.1.asked asked recorded.updateStatus_grows (by simp), untouched_of_amid (amid_verdict _)⟩
  | vanish _ _ asked _ _ ih =>
      exact ⟨ih.1.asked asked recorded.updateStatus_grows (by simp), untouched_of_amid (amid_verdict _)⟩
  | refuse _ _ asked _ _ ih => exact ⟨ih.1.asked asked recorded.updateStatus_grows (by simp), trivial⟩
  | finish _ _ ih => exact ⟨ih.1, trivial⟩
  | unlabel _ _ ih => exact ih

theorem isWrite_of_not_isCall {event : Event} (quiet : event.isCall = false) : event.isWrite = false := by
  cases event <;> simp_all [Event.isCall, Event.isWrite]

theorem calls_of_read {found : Option (Except Error (Option Workspace))} (unread : calls t = [])
    (asked : Run.Asked c.world.cancelled (c.world.get id) (.fetched id) s found piece s') :
    calls (t ++ piece) = [.fetched id found] ∨ calls (t ++ piece) = [] ∧ found = none := by
  rcases asked.ends with ⟨missing, rfl, _⟩ | ⟨rfl, _⟩
  · exact .inr ⟨by simpa using unread, missing⟩
  · left
    rw [calls, List.map_append, List.filter_append]
    exact congrArg (· ++ _) unread

theorem Course.due_or_opened (recorded : Recorded c.manager c.world id chronicle rules)
    (course : Course c id now fetched start t stage w s) :
    Due c id now fetched t ∨
      Opened c id now fetched (calls t) stage ∧ Chronicle.Drifts rules.others (chronicle start) (chronicle s) := by
  have read {t piece : List (Moment σ)} {w : Workspace} {s s' : σ} {found : Option (Except Error (Option Workspace))}
      (course : Course c id now fetched start t .opening w s)
      (asked : Run.Asked c.world.cancelled (c.world.get id) (.fetched id) s found piece s') :
      Chronicle.Drifts rules.others (chronicle start) (chronicle s') := by
    have before : Chronicle.Drifts rules.others (chronicle start) (chronicle s) := (course.grown recorded).2
    rcases asked.ends with ⟨_, _, rfl⟩ | ⟨_, ends⟩
    · exact before
    · exact before.trans (recorded.get ends).1.drifts
  have further {t : List (Moment σ)} {moment : Moment σ} {next stage : Stage σ} {l l' : Chronicle}
      (call : moment.event.isCall = false) (drifts : Chronicle.Drifts rules.others l l')
      (onward : Opened c id now fetched (calls t) stage → Opened c id now fetched (calls t) next)
      (before : Due c id now fetched t ∨
        Opened c id now fetched (calls t) stage ∧ Chronicle.Drifts rules.others (chronicle start) l) :
      Due c id now fetched (t ++ [moment]) ∨
        Opened c id now fetched (calls (t ++ [moment])) next ∧ Chronicle.Drifts rules.others (chronicle start) l' := by
    rcases before with due | ⟨opened, untouched⟩
    · exact .inl ⟨due.1.snoc (ne_fetched_of_quiet call), due.2⟩
    · rw [calls_snoc_of_not call]
      exact .inr ⟨onward opened, untouched.trans drifts⟩
  -- Only up to the read, and where its failure is reported, has a course not found anything to go on with.
  induction course with
  | start => exact .inr ⟨rfl, .refl _ _⟩
  | note _ _ ih => exact further rfl (.refl _ _) (fun opened => opened) ih
  | unread course asked answered _ =>
      exact .inr ⟨⟨_, answered, calls_of_read course.accounts asked⟩, read course asked⟩
  | absent course asked _ =>
      exact .inr ⟨(calls_of_read course.accounts asked).resolve_right (by simp), read course asked⟩
  | skip course asked _ skips _ =>
      exact .inr ⟨⟨(calls_of_read course.accounts asked).resolve_right (by simp), by simp [skips]⟩, read course asked⟩
  | fetch course asked time due _ => exact .inl (Course.fetch course asked time due).outset
  | step course asked _ => exact .inl (Due.asked course.outset asked (by simp))
  | drop course asked _ => exact .inl (Due.asked course.outset asked (by simp))
  | written course asked _ => exact .inl (Due.asked course.outset asked (by simp))
  | unwritten course asked _ _ => exact .inl (Due.asked course.outset asked (by simp))
  | fail course _ => exact .inl (Course.fail course).outset
  | report _ _ ih => exact further rfl (recorded.capture _ _ _) (fun opened => opened) ih
  | conceal _ _ ih => exact ih
  | persist course _ asked _ => exact .inl (Due.asked course.outset asked (by simp))
  | vanish course _ asked _ _ _ => exact .inl (Due.asked course.outset asked (by simp))
  | refuse course _ asked _ _ _ => exact .inl (Due.asked course.outset asked (by simp))
  | stop course | pass course | enter course | condemned course | equipped course | register course | keep course
  | release course | complete course | abort course | conclude course | schedule course | beyond course
  | unchanged course | finish course | unlabel course => exact .inl course.outset

theorem Opened.reads {done : List Event} (opened : Opened c id now fetched done stage) :
    done = [] ∨ ∃ answer, done = [.fetched id answer] := by
  induction stage with
  | opening => exact .inl opened
  | reporting _ _ ih => exact ih opened
  | ended result =>
      rcases result with (_ | _) | _ | _ | _
      · obtain ⟨answer, _, read | ⟨nothing, _⟩⟩ := opened
        · exact .inr ⟨answer, read⟩
        · exact .inl nothing
      · exact opened.elim
      · exact .inr ⟨_, opened⟩
      · exact .inr ⟨_, opened.1⟩
      · exact opened.elim
  | _ => exact opened.elim

theorem Course.due_or_idle (recorded : Recorded c.manager c.world id chronicle rules)
    (course : Course c id now fetched start t stage w s) :
    Due c id now fetched t ∨
      (∀ moment ∈ t, moment.event.isWrite = false) ∧ Chronicle.Drifts rules.others (chronicle start) (chronicle s) := by
  refine (course.due_or_opened recorded).imp_right fun ⟨opened, untouched⟩ => ⟨fun moment member => ?_, untouched⟩
  by_cases call : moment.event.isCall = true
  · have among : moment.event ∈ calls t := mem_calls.mpr ⟨⟨moment, member, rfl⟩, call⟩
    rcases opened.reads with nothing | ⟨answer, read⟩
    · simp [nothing] at among
    · obtain event : moment.event = _ := by simpa [read] using among
      rw [event]
      rfl
  · exact isWrite_of_not_isCall (by simpa using call)

theorem Recorded.reconcile_grows {m : Manager σ} {world : World σ} (recorded : Recorded m world id chronicle rules)
    (s : σ) : chronicle s <+: chronicle (m.reconcile world id s).state := by
  obtain ⟨_, _, _, course⟩ := m.attempt_course world id s
  rw [(m.reconcile_attempt world id s).1]
  exact (recorded.correlate s).grows.trans (course.grown recorded).1.whole

theorem Rounds.grows {m : Manager σ} {world : World σ} {rans : List (Ran σ (Except Stop Outcome))}
    (rounds : Rounds m world id chronicle rules.others s rans s') (recorded : Recorded m world id chronicle rules) :
    chronicle s <+: chronicle s' := by
  induction rounds with
  | start => exact List.prefix_rfl
  | meantime _ drifts ih => exact ih.trans drifts.grows
  | reconcile _ ih => exact ih.trans (recorded.reconcile_grows _)

end

end Reconciler
