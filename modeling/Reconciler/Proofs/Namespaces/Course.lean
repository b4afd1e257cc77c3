import Reconciler.Namespace.Subroutine
import Reconciler.Proofs.Chronicle.Growth

set_option autoImplicit false

namespace Reconciler

open Reconcile

variable {σ : Type}

namespace NamespaceCleanup

def Applies (namespaces : Namespaces σ) (name : String) (moment : Moment σ) : Prop :=
  ∃ given answer, moment.event = .stepped "namespace" .process given (some answer) ∧
    Text.trim given.spec.target = name ∧ name ≠ "" ∧
    (namespaces.apply name (Namespaces.labels given) moment.before).Ends (some (.ok ())) moment.after

def Deletes (namespaces : Namespaces σ) (name : String) (moment : Moment σ) : Prop :=
  ∃ given answer, moment.event = .stepped "namespace" .finalize given (some answer) ∧
    given.currentStatus.provided = some name ∧
    (namespaces.delete name moment.before).Ends (some (.ok true)) moment.after

-- Others keep the name in the status and the token, and do not make the workspace anew. A call that fails has no
-- effect. A write of metadata puts its finalizers in place, and lets the workspace go only when there are none; a
-- write of the status may leave the name open.
def rules : Rules where
  others d := ∃ stored, d.found = some stored ∧ ∀ left, d.left = some left →
    left.currentStatus.provided = stored.currentStatus.provided ∧
      (Namespaces.finalizer ∈ left.finalizers ↔ Namespaces.finalizer ∈ stored.finalizers)
  update given answer d := (∀ error, answer ≠ some (.error error)) ∧ ∃ stored, d.found = some stored ∧
    ((d.left.map (·.finalizers)).getD [] = given.finalizers) ∧
      ∀ left, d.left = some left → left.currentStatus.provided = stored.currentStatus.provided
  updateStatus given answer d := (∀ error, answer ≠ some (.error error)) ∧ ∃ stored left, d.found = some stored ∧
    d.left = some left ∧ left.finalizers = stored.finalizers ∧
    (left.currentStatus.provided = given.currentStatus.provided ∨
      given.currentStatus.provided = none ∧ left.currentStatus.provided = stored.currentStatus.provided)

def Keeps (provided : Option String) (l : Chronicle) : Prop :=
  ∀ stored, l.stored = some stored → stored.currentStatus.provided = provided

def Noted (namespaces : Namespaces σ) (fetched : Workspace) (t : List (Moment σ)) (provided : Option String) : Prop :=
  (provided = fetched.currentStatus.provided ∧ ∀ moment ∈ t, ∀ name, ¬Applies namespaces name moment) ∨
    fetched.isBeingDeleted = false ∧ ∃ name, provided = some name ∧ (∃ moment ∈ t, Applies namespaces name moment) ∧
      ∀ moment ∈ t, ∀ other, Applies namespaces other moment → other = name

def Told (namespaces : Namespaces σ) (t : List (Moment σ)) (l : Chronicle) : Prop :=
  ∀ moment ∈ t, ∀ name, Applies namespaces name moment → Keeps (some name) l

def Unstepped (t : List (Moment σ)) : Prop :=
  ∀ moment ∈ t, ∀ name phase given answer, moment.event ≠ .stepped name phase given answer

structure Amid (namespaces : Namespaces σ) (id : ResourceId) (fetched : Workspace) (t : List (Moment σ))
    (w : Workspace) (l : Chronicle) : Prop where
  identity : w.id = id
  deletion : w.isBeingDeleted = fetched.isBeingDeleted
  noted : Noted namespaces fetched t w.currentStatus.provided
  keeps : Keeps fetched.currentStatus.provided l

structure Early (namespaces : Namespaces σ) (id : ResourceId) (fetched : Workspace) (t : List (Moment σ))
    (w : Workspace) (l : Chronicle) : Prop extends Amid namespaces id fetched t w l where
  same : w.currentStatus.provided = fetched.currentStatus.provided
  unstepped : Unstepped t

def Known (namespaces : Namespaces σ) (id : ResourceId) (fetched : Workspace) (t : List (Moment σ)) (w : Workspace)
    (l : Chronicle) : Stage σ → Prop
  | .sweeping todo _ => Amid namespaces id fetched t w l ∧ (todo ≠ [] → Early namespaces id fetched t w l)
  | .turning .. => Early namespaces id fetched t w l
  | .writing (.register ..) => Early namespaces id fetched t w l ∧ fetched.isBeingDeleted = false
  | .stepping phase .. => Early namespaces id fetched t w l ∧ phase = fetched.phase
  | .cleaned .. | .settled .. | .writing (.release ..) | .failed .. | .persisting _ => Amid namespaces id fetched t w l
  | .unlabelling _ => w.id = id ∧ Told namespaces t l
  | .writing (.unlabel _) => w.id = id ∧ Told namespaces t l ∧ fetched.isBeingDeleted = false
  | .ended (.ok (.reconciled _)) => Told namespaces t l
  | .ended (.ok .notFound) | .ended (.ok (.skipped _)) => Unstepped t
  | .opening | .ended (.error _) => True
  | .reporting _ next => Known namespaces id fetched t w l next

section

variable {namespaces : Namespaces σ} {c : Cycle σ} {chronicle : σ → Chronicle} {id : ResourceId} {now : Timestamp}
variable {fetched w w' : Workspace} {start s s' : σ} {t piece : List (Moment σ)} {stage : Stage σ}
variable {l l' : Chronicle} {provided : Option String} {answer : StepAnswer} {given : Workspace} {moment : Moment σ}

theorem process_ends (ends : (namespaces.process w s).Ends (some answer) s') :
    (answer.workspace = w ∧ ∀ name, Text.trim w.spec.target = name → name ≠ "" →
      ¬(namespaces.apply name (Namespaces.labels w) s).Ends (some (.ok ())) s') ∨
    ∃ name, Text.trim w.spec.target = name ∧ name ≠ "" ∧
      (namespaces.apply name (Namespaces.labels w) s).Ends (some (.ok ())) s' ∧
      answer.workspace = w.modifyStatus fun status => { status with provided := some name } := by
  simp only [Namespaces.process] at ends
  split at ends
  · rename_i blank
    obtain ⟨same, rfl⟩ := Call.ends_done ends
    obtain rfl := Option.some.inj same
    exact .inl ⟨rfl, fun name target filled => absurd (target.symm.trans blank) filled⟩
  · rename_i filled
    obtain ⟨applied, there, rfl⟩ := Call.ends_map ends
    rcases applied with error | _
    · refine .inl ⟨rfl, ?_⟩
      rintro _ rfl _ again
      have both := there.finish.symm.trans again.finish
      simp at both
    · exact .inr ⟨_, rfl, filled, there, rfl⟩

theorem finalize_ends (ends : (namespaces.finalize w s).Ends (some answer) s') :
    answer.workspace = w ∧ ∀ outcome name, answer.result = .ok outcome → outcome.isDone = true →
      w.currentStatus.provided = some name → (namespaces.delete name s).Ends (some (.ok true)) s' := by
  unfold Namespaces.finalize at ends
  split at ends
  · rename_i nothing
    obtain ⟨same, rfl⟩ := Call.ends_done ends
    obtain rfl := Option.some.inj same
    exact ⟨rfl, by simp [nothing]⟩
  · rename_i name provided
    obtain ⟨deleted, there, rfl⟩ := Call.ends_map ends
    rcases deleted with error | _ | _
    · exact ⟨rfl, by simp⟩
    · refine ⟨rfl, ?_⟩
      rintro _ _ ⟨⟩ done _
      exact absurd done (by decide)
    · refine ⟨rfl, ?_⟩
      rintro _ other _ _ again
      rw [provided] at again
      exact Option.some.inj again ▸ there

theorem isBeingDeleted_iff_phase : fetched.phase = .finalize ↔ fetched.isBeingDeleted = true := by
  cases deleted : fetched.isBeingDeleted <;> simp [Workspace.phase, deleted]

theorem not_applies_of_unstepped (unstepped : Unstepped t) {moment : Moment σ} (member : moment ∈ t) (name : String) :
    ¬Applies namespaces name moment := by
  rintro ⟨given, answer, event, _⟩
  exact unstepped moment member _ _ _ _ event

theorem Unstepped.append (before : Unstepped t) (after : Unstepped piece) : Unstepped (t ++ piece) := by
  intro moment member
  rcases List.mem_append.mp member with earlier | later
  · exact before moment earlier
  · exact after moment later

theorem unstepped_of_quiet (quiet : ∀ moment ∈ t, moment.event.isCall = false) : Unstepped t := by
  intro moment member name phase given answer event
  have still := quiet moment member
  simp [event, Event.isCall] at still

theorem unstepped_of_asked {α : Type} {stop : σ → Bool} {call : σ → Call σ α} {event : Option α → Event}
    {answer : Option α} (asked : Run.Asked stop call event s answer piece s')
    (other : ∀ name phase given result, event answer ≠ .stepped name phase given result) : Unstepped piece := by
  intro moment member
  rcases asked.ends with ⟨_, rfl, _⟩ | ⟨rfl, _⟩
  · simp at member
  · obtain rfl := List.mem_singleton.mp member
    exact other

theorem Noted.append (noted : Noted namespaces fetched t provided) (unstepped : Unstepped piece) :
    Noted namespaces fetched (t ++ piece) provided := by
  have none : ∀ moment ∈ piece, ∀ name, ¬Applies namespaces name moment := fun _ member name =>
    not_applies_of_unstepped unstepped member name
  rcases noted with ⟨same, never⟩ | ⟨live, name, named, ⟨moment, member, applied⟩, only⟩
  · refine .inl ⟨same, fun moment member name => ?_⟩
    rcases List.mem_append.mp member with earlier | later
    · exact never moment earlier name
    · exact none moment later name
  · have still : moment ∈ t ++ piece := List.mem_append_left _ member
    refine .inr ⟨live, name, named, ⟨moment, still, applied⟩, fun moment member other again => ?_⟩
    rcases List.mem_append.mp member with earlier | later
    · exact only moment earlier other again
    · exact absurd again (none moment later other)

theorem told_of_unstepped (unstepped : Unstepped t) (l : Chronicle) : Told namespaces t l :=
  fun _ member name applied => absurd applied (not_applies_of_unstepped unstepped member name)

theorem Told.append (told : Told namespaces t l) (unstepped : Unstepped piece) : Told namespaces (t ++ piece) l := by
  intro moment member name applied
  rcases List.mem_append.mp member with earlier | later
  · exact told moment earlier name applied
  · exact told_of_unstepped unstepped l moment later name applied

theorem Keeps.drift (keeps : Keeps provided l) (drifts : Chronicle.Drifts rules.others l l')
    (linked : Chronicle.Linked l') : Keeps provided l' := by
  refine drifts.stored (fun found => ∀ stored, found = some stored → stored.currentStatus.provided = provided) linked
    ?_ keeps
  rintro d ⟨stored, found, kept⟩ before left becomes
  exact (kept left becomes).1.trans (before stored found)

theorem Told.drift (told : Told namespaces t l) (drifts : Chronicle.Drifts rules.others l l')
    (linked : Chronicle.Linked l') : Told namespaces t l' := fun moment member name applied =>
  (told moment member name applied).drift drifts linked

theorem Keeps.update {answer : Option (Except Error Workspace)} (keeps : Keeps provided l)
    (writes : Chronicle.Writes rules.others (rules.update given answer) answer l l')
    (linked : Chronicle.Linked l') : Keeps provided l' := by
  cases writes with
  | idle drifts _ => exact keeps.drift drifts linked
  | done past d early _ effective _ late =>
      have before := late.linked linked
      have kept : Keeps provided past := keeps.drift early before.past
      obtain ⟨_, stored, found, _, same⟩ := effective
      rw [before.found] at found
      refine Keeps.drift (fun left becomes => ?_) late linked
      rw [Chronicle.stored_snoc] at becomes
      exact (same left becomes).trans (kept stored found)

theorem Noted.updateStatus {answer : Option (Except Error Workspace)}
    (noted : Noted namespaces fetched t given.currentStatus.provided)
    (writes : Chronicle.Writes rules.others (rules.updateStatus given answer) answer l l')
    (linked : Chronicle.Linked l') (answered : ∃ stored, answer = some (.ok stored)) : Told namespaces t l' := by
  obtain ⟨stored, answered⟩ := answered
  cases writes with
  | idle _ refused => exact absurd answered (refused stored)
  | done past d early _ effective _ late =>
      have before := late.linked linked
      obtain ⟨_, stored, left, found, becomes, _, put⟩ := effective
      rcases noted with ⟨_, never⟩ | ⟨_, name, named, _, only⟩
      · exact fun moment member name applied => absurd applied (never moment member name)
      · intro moment member other applied
        obtain rfl := only moment member other applied
        refine Keeps.drift (fun left' becomes' => ?_) late linked
        rw [Chronicle.stored_snoc, becomes] at becomes'
        obtain rfl := Option.some.inj becomes'
        rcases put with same | ⟨empty, _⟩
        · exact same.trans named
        · simp [named] at empty

theorem Noted.told_of_deleted (noted : Noted namespaces fetched t provided) (deleted : fetched.isBeingDeleted = true)
    (l : Chronicle) : Told namespaces t l := by
  intro moment member name applied
  rcases noted with ⟨_, never⟩ | ⟨live, _⟩
  · exact absurd applied (never moment member name)
  · simp [deleted] at live

theorem Noted.told_of_same (noted : Noted namespaces fetched t provided) (keeps : Keeps provided l) :
    Told namespaces t l := by
  intro moment member name applied
  rcases noted with ⟨_, never⟩ | ⟨_, other, named, _, only⟩
  · exact absurd applied (never moment member name)
  · obtain rfl := only moment member name applied
    exact named ▸ keeps

theorem Amid.alike (amid : Amid namespaces id fetched t w l) (identity : w'.id = w.id)
    (deletion : w'.isBeingDeleted = w.isBeingDeleted)
    (provided : w'.currentStatus.provided = w.currentStatus.provided) : Amid namespaces id fetched t w' l :=
  ⟨identity.trans amid.identity, deletion.trans amid.deletion, provided ▸ amid.noted, amid.keeps⟩

theorem Early.alike (early : Early namespaces id fetched t w l) (identity : w'.id = w.id)
    (deletion : w'.isBeingDeleted = w.isBeingDeleted)
    (provided : w'.currentStatus.provided = w.currentStatus.provided) : Early namespaces id fetched t w' l :=
  ⟨early.toAmid.alike identity deletion provided, provided.trans early.same, early.unstepped⟩

theorem Amid.onward (amid : Amid namespaces id fetched t w l) (unstepped : Unstepped piece)
    (keeps : Keeps fetched.currentStatus.provided l') : Amid namespaces id fetched (t ++ piece) w l' :=
  ⟨amid.identity, amid.deletion, amid.noted.append unstepped, keeps⟩

theorem Early.onward (early : Early namespaces id fetched t w l) (unstepped : Unstepped piece)
    (keeps : Keeps fetched.currentStatus.provided l') : Early namespaces id fetched (t ++ piece) w l' :=
  ⟨early.toAmid.onward unstepped keeps, early.same, early.unstepped.append unstepped⟩

theorem amid_amend (amid : Amid namespaces id fetched t w l) (change : Ledger → Ledger × Bool) :
    Amid namespaces id fetched t (c.amend change w) l := by
  unfold Cycle.amend
  split
  · exact amid.alike rfl rfl rfl
  · exact amid

theorem early_amend (early : Early namespaces id fetched t w l) (change : Ledger → Ledger × Bool) :
    Early namespaces id fetched t (c.amend change w) l := by
  unfold Cycle.amend
  split
  · exact early.alike rfl rfl rfl
  · exact early

theorem Known.onward (known : Known namespaces id fetched t w l stage) (unstepped : Unstepped piece)
    (drifts : Chronicle.Drifts rules.others l l') (linked : Chronicle.Linked l') :
    Known namespaces id fetched (t ++ piece) w l' stage := by
  have amid (there : Amid namespaces id fetched t w l) : Amid namespaces id fetched (t ++ piece) w l' :=
    there.onward unstepped (there.keeps.drift drifts linked)
  have early (there : Early namespaces id fetched t w l) : Early namespaces id fetched (t ++ piece) w l' :=
    there.onward unstepped (there.keeps.drift drifts linked)
  have told (there : Told namespaces t l) : Told namespaces (t ++ piece) l' :=
    (there.append unstepped).drift drifts linked
  induction stage with
  | opening => trivial
  | sweeping todo => exact ⟨amid known.1, fun ahead => early (known.2 ahead)⟩
  | turning => exact early known
  | stepping => exact ⟨early known.1, known.2⟩
  | cleaned | settled | failed | persisting => exact amid known
  | writing purpose =>
      cases purpose with
      | register => exact ⟨early known.1, known.2⟩
      | release => exact amid known
      | unlabel => exact ⟨known.1, told known.2.1, known.2.2⟩
  | unlabelling => exact ⟨known.1, told known.2⟩
  | ended result =>
      rcases result with _ | _ | _ | _
      · trivial
      · exact Unstepped.append known unstepped
      · exact Unstepped.append known unstepped
      · exact told known
  | reporting _ _ ih => exact ih known

theorem only_of_agenda (only : c.manager.subroutines = [namespaces.subroutine])
    (course : Course c id now fetched start t stage w s) {sub : Subroutine σ} {todo : List (Subroutine σ)}
    (ahead : stage.agenda = sub :: todo) : sub = namespaces.subroutine ∧ todo = [] := by
  have suffix : sub :: todo <:+ [namespaces.subroutine] := by
    rw [← ahead, ← only]
    exact course.agenda_suffix
  simpa [List.suffix_cons_iff] using suffix

theorem Early.step (early : Early namespaces id fetched t w l)
    (ends : (namespaces.subroutine.step fetched.phase w s).Ends (some answer) s')
    (keeps : Keeps fetched.currentStatus.provided l') :
    Amid namespaces id fetched (t ++ [⟨.stepped namespaces.subroutine.name fetched.phase w (some answer), s, s'⟩])
      answer.workspace l' := by
  have before : ∀ moment ∈ t, ∀ name, ¬Applies namespaces name moment := fun _ member =>
    not_applies_of_unstepped early.unstepped member
  have never {last : Moment σ} (refused : ∀ name, ¬Applies namespaces name last) :
      ∀ moment ∈ t ++ [last], ∀ name, ¬Applies namespaces name moment := by
    intro moment member
    rcases List.mem_append.mp member with earlier | here
    · exact before moment earlier
    · exact List.mem_singleton.mp here ▸ refused
  rcases phase : fetched.phase with _ | _
  · rw [phase] at ends
    rcases process_ends ends with ⟨same, refused⟩ | ⟨name, target, filled, applied, same⟩
    · rw [same]
      refine ⟨early.identity, early.deletion, .inl ⟨early.same, never ?_⟩, keeps⟩
      rintro name ⟨given, again, ⟨⟩, target, filled, applied⟩
      exact refused name target filled applied
    · have live : fetched.isBeingDeleted = false := by
        by_contra deleted
        simp [isBeingDeleted_iff_phase.mpr (by simpa using deleted)] at phase
      rw [same]
      refine ⟨early.identity, early.deletion, .inr ⟨live, name, rfl, ?_, fun moment member other again => ?_⟩, keeps⟩
      · exact ⟨_, List.mem_append_right _ List.mem_cons_self, w, answer, rfl, target, filled, applied⟩
      · rcases List.mem_append.mp member with earlier | last
        · exact absurd again (before moment earlier other)
        · obtain rfl := List.mem_singleton.mp last
          obtain ⟨given, _, ⟨⟩, aim, _⟩ := again
          exact aim.symm.trans target
  · rw [phase] at ends
    rw [(finalize_ends ends).1]
    refine ⟨early.identity, early.deletion, .inl ⟨early.same, never ?_⟩, keeps⟩
    rintro name ⟨given, again, ⟨⟩, _⟩

theorem Amid.updated {result : Option (Except Error Workspace)} (amid : Amid namespaces id fetched t w (chronicle s))
    (recorded : Recorded c.manager c.world id chronicle rules)
    (asked : Run.Asked c.world.cancelled (c.world.update w) (.updated w) s result piece s') :
    Amid namespaces id fetched (t ++ piece) w (chronicle s') := by
  refine amid.onward (unstepped_of_asked asked (by simp)) ?_
  rcases asked.ends with ⟨_, _, rfl⟩ | ⟨_, ends⟩
  · exact amid.keeps
  · exact amid.keeps.update (recorded.update ends amid.identity) (recorded.linked s')

theorem known_breakdown (amid : Amid namespaces id fetched t w l) (subroutine : String) (error : Error) :
    Known namespaces id fetched t w l (.breakdown subroutine error) := by
  unfold Stage.breakdown
  split
  · trivial
  · exact amid

theorem known_of_course (only : c.manager.subroutines = [namespaces.subroutine])
    (recorded : Recorded c.manager c.world id chronicle rules)
    (course : Course c id now fetched start t stage w s) :
    Known namespaces id fetched t w (chronicle s) stage := by
  -- There is one subroutine, and so at most one step; what the status names changes at no other stage but the write
  -- of the status.
  induction course with
  | start => trivial
  | note _ _ ih => exact ih.onward (unstepped_of_quiet (by simp [Event.isCall])) (.refl _ _) (recorded.linked _)
  | unread => trivial
  | absent course asked _ => exact (unstepped_of_quiet course.outset).append (unstepped_of_asked asked (by simp))
  | skip course asked _ _ _ => exact (unstepped_of_quiet course.outset).append (unstepped_of_asked asked (by simp))
  | @fetch t w s piece s' course asked _ _ _ =>
      obtain ⟨⟨seen, early, late, answered⟩, named⟩ := recorded.get asked.answered.2
      have unstepped : Unstepped (t ++ piece) :=
        (unstepped_of_quiet course.outset).append (unstepped_of_asked asked (by simp))
      have there : Keeps fetched.currentStatus.provided seen := by
        intro stored found
        rw [← answered _ rfl] at found
        rw [Option.some.inj found]
      have before : Early namespaces id fetched (t ++ piece) fetched (chronicle s') :=
        ⟨⟨named fetched rfl, rfl, .inl ⟨rfl, fun _ member => not_applies_of_unstepped unstepped member⟩,
          there.drift late (recorded.linked s')⟩, rfl, unstepped⟩
      exact ⟨amid_amend before.toAmid _, fun _ => early_amend before _⟩
  | stop => trivial
  | pass course _ _ ih => exact ⟨ih.1, fun ahead => absurd (only_of_agenda only course rfl).2 ahead⟩
  | enter _ _ _ ih => exact early_amend (ih.2 (by simp)) _
  | condemned _ deleted ih =>
      have marked : fetched.isBeingDeleted = true := ih.deletion.symm.trans deleted
      exact ⟨ih, (isBeingDeleted_iff_phase.mpr marked).symm⟩
  | equipped _ live _ ih =>
      have unmarked : fetched.isBeingDeleted = false := ih.deletion.symm.trans live
      exact ⟨ih.alike rfl rfl rfl, by simp [Workspace.phase, unmarked]⟩
  | register _ live _ ih => exact ⟨ih.alike rfl rfl rfl, ih.deletion.symm.trans live⟩
  | @step t phase sub todo outcome w s answer piece s' course asked ih =>
      obtain ⟨rfl, _⟩ := only_of_agenda only course rfl
      obtain ⟨rfl, ends⟩ := asked.answered
      obtain ⟨early, rfl⟩ := ih
      have drifts := recorded.step _ (course.mem_of_agenda List.mem_cons_self) ends
      have after := early.step ends (early.keeps.drift drifts (recorded.linked s'))
      unfold Stage.afterStep
      split <;> exact after
  | drop => trivial
  | keep _ _ ih =>
      exact ih.alike (Workspace.releaseIfIdle_keeps Workspace.id (fun _ _ => rfl) ..)
        (Workspace.releaseIfIdle_keeps Workspace.isBeingDeleted (fun _ _ => rfl) ..)
        (Workspace.releaseIfIdle_keeps (·.currentStatus.provided) (fun _ _ => rfl) ..)
  | release _ _ ih =>
      exact ih.alike (Workspace.releaseIfIdle_keeps Workspace.id (fun _ _ => rfl) ..)
        (Workspace.releaseIfIdle_keeps Workspace.isBeingDeleted (fun _ _ => rfl) ..)
        (Workspace.releaseIfIdle_keeps (·.currentStatus.provided) (fun _ _ => rfl) ..)
  | @written _ purpose _ _ _ _ s' _ asked ih =>
      have unstepped := unstepped_of_asked asked (by simp)
      have ends := asked.answered.2
      cases purpose with
      | register sub todo outcome =>
          obtain ⟨early, live⟩ := ih
          have keeps := early.keeps.update (recorded.update ends early.identity) (recorded.linked s')
          exact ⟨(early.onward unstepped keeps).alike rfl rfl rfl, by simp [Workspace.phase, live]⟩
      | release sub todo outcome result =>
          have keeps := Keeps.update ih.keeps (recorded.update ends ih.identity) (recorded.linked s')
          exact (Amid.onward ih unstepped keeps).alike rfl rfl rfl
      | unlabel outcome =>
          obtain ⟨identity, told, _⟩ := ih
          have kept : Told namespaces _ (chronicle s') := fun moment member name applied =>
            (told moment member name applied).update (recorded.update ends identity) (recorded.linked s')
          exact kept.append unstepped
  | @unwritten _ purpose _ _ _ _ _ error _ asked _ ih =>
      cases purpose with
      | register sub todo outcome => exact known_breakdown (ih.1.toAmid.updated recorded asked) sub.name error
      | release sub todo outcome result => exact known_breakdown (Amid.updated ih recorded asked) sub.name error
      | unlabel => trivial
  | complete course ih =>
      refine ⟨?_, fun ahead => absurd (only_of_agenda only course rfl).2 ahead⟩
      split
      · exact amid_amend ih _
      · exact ih
  | fail _ ih => exact Known.onward ih (unstepped_of_quiet (by simp [Event.isCall])) (.refl _ _) (recorded.linked _)
  | report _ _ ih =>
      exact Known.onward ih (unstepped_of_quiet (by simp [Event.isCall])) (recorded.capture _ _ _) (recorded.linked _)
  | conceal _ _ ih => exact ih
  | abort _ ih => exact amid_amend (amid_amend ih _) _
  | conclude _ _ ih => exact amid_amend ih.1 _
  | schedule _ _ planned ih =>
      obtain ⟨next, _, rfl⟩ := Option.map_eq_some_iff.mp planned
      obtain ⟨identity, deletion, noted, keeps⟩ := ih.1
      refine amid_amend ?_ _
      exact ⟨identity, deletion, noted, keeps.drift (recorded.draw _) (recorded.linked _)⟩
  | beyond => trivial
  | @unchanged _ verdict _ _ _ same ih =>
      cases verdict with
      | outcome outcome =>
          refine ⟨ih.identity, ih.noted.told_of_same ?_⟩
          rw [same]
          exact ih.keeps
      | failure error => trivial
  | @persist _ verdict _ _ stored _ s' _ _ asked ih =>
      cases verdict with
      | outcome outcome =>
          have writes := recorded.updateStatus asked.answered.2 ih.identity
          have told := ih.noted.updateStatus writes (recorded.linked s') ⟨stored, rfl⟩
          exact ⟨ih.identity, told.append (unstepped_of_asked asked (by simp))⟩
      | failure error => trivial
  | @vanish _ verdict _ _ _ _ s' _ _ _ asked _ gone ih =>
      cases verdict with
      | outcome outcome =>
          -- Only a workspace that is being deleted may be gone, and for that nothing was applied.
          have deleted : fetched.isBeingDeleted = true := ih.deletion ▸ gone.deleted
          exact ⟨ih.identity, (ih.noted.told_of_deleted deleted _).append (unstepped_of_asked asked (by simp))⟩
      | failure error => trivial
  | refuse => trivial
  | finish _ _ ih => exact ih.2
  | unlabel _ marked ih =>
      refine ⟨ih.1, ih.2, ?_⟩
      by_contra deleted
      simp [unlabels, isBeingDeleted_iff_phase.mpr (by simpa using deleted)] at marked

-- A step that was taken is the one that the workspace was due for, and it was given the name that was fetched.
def Stepped (namespaces : Namespaces σ) (fetched : Workspace) (event : Event) (before after : σ) : Prop :=
  ∀ name phase given answer, event = .stepped name phase given answer →
    phase = fetched.phase ∧ given.currentStatus.provided = fetched.currentStatus.provided ∧
      (namespaces.subroutine.step phase given before).Ends answer after

def Updated (chronicle : σ → Chronicle) (fetched : Workspace) (event : Event) (before after : σ) : Prop :=
  (∃ given answer, event = .updated given answer) → fetched.isBeingDeleted = true →
    ∀ d ∈ Chronicle.own (chronicle before) (chronicle after), ∀ stored, d.found = some stored →
      stored.currentStatus.provided = fetched.currentStatus.provided

structure Fair (namespaces : Namespaces σ) (t : List (Moment σ)) (d : Deed) : Prop where
  found : d.found ≠ none
  provided : ∀ stored left, d.found = some stored → d.left = some left →
    left.currentStatus.provided = stored.currentStatus.provided ∨
      d.own = true ∧ ∃ name, left.currentStatus.provided = some name ∧ ∃ moment ∈ t, Applies namespaces name moment

def Fairly (namespaces : Namespaces σ) (t : List (Moment σ)) (l l' : Chronicle) : Prop :=
  ∃ more, l' = l ++ more ∧ ∀ d ∈ more, Fair namespaces t d

structure Reckoned (namespaces : Namespaces σ) (chronicle : σ → Chronicle) (fetched : Workspace) (before : Chronicle)
    (t : List (Moment σ)) (l : Chronicle) : Prop where
  steps : ∀ moment ∈ t, Stepped namespaces fetched moment.event moment.before moment.after
  updates : ∀ moment ∈ t, Updated chronicle fetched moment.event moment.before moment.after
  deeds : Fairly namespaces t before l

theorem Fair.more {d : Deed} {t' : List (Moment σ)} (fair : Fair namespaces t d) (more : ∀ moment ∈ t, moment ∈ t') :
    Fair namespaces t' d := by
  refine ⟨fair.found, fun stored left was becomes => ?_⟩
  rcases fair.provided stored left was becomes with same | ⟨own, name, named, moment, member, applied⟩
  · exact .inl same
  · exact .inr ⟨own, name, named, moment, more moment member, applied⟩

theorem Fairly.more {t' : List (Moment σ)} (fairly : Fairly namespaces t l l') (more : ∀ moment ∈ t, moment ∈ t') :
    Fairly namespaces t' l l' := by
  obtain ⟨deeds, rfl, fair⟩ := fairly
  exact ⟨deeds, rfl, fun d member => (fair d member).more more⟩

theorem Fairly.refl (namespaces : Namespaces σ) (t : List (Moment σ)) (l : Chronicle) : Fairly namespaces t l l :=
  ⟨[], by simp, by simp⟩

theorem Fairly.trans {l'' : Chronicle} (first : Fairly namespaces t l l') (second : Fairly namespaces t l' l'') :
    Fairly namespaces t l l'' := by
  obtain ⟨early, rfl, earlier⟩ := first
  obtain ⟨late, rfl, later⟩ := second
  refine ⟨early ++ late, by simp, fun d member => ?_⟩
  rcases List.mem_append.mp member with old | new
  · exact earlier d old
  · exact later d new

theorem Fairly.grows (fairly : Fairly namespaces t l l') : l <+: l' := by
  obtain ⟨more, rfl, _⟩ := fairly
  exact List.prefix_append l more

theorem fairly_of_drifts (namespaces : Namespaces σ) (t : List (Moment σ))
    (drifts : Chronicle.Drifts rules.others l l') : Fairly namespaces t l l' := by
  obtain ⟨more, rfl, foreign⟩ := drifts
  refine ⟨more, rfl, fun d member => ?_⟩
  obtain ⟨_, stored, found, kept⟩ := foreign d member
  refine ⟨by simp [found], fun before left was becomes => ?_⟩
  obtain rfl := Option.some.inj (found.symm.trans was)
  exact .inl (kept left becomes).1

theorem fairly_of_done {past : Chronicle} {d : Deed} (early : Chronicle.Drifts rules.others l past)
    (fair : Fair namespaces t d) (late : Chronicle.Drifts rules.others (past ++ [d]) l') :
    Fairly namespaces t l l' := by
  have here : Fairly namespaces t past (past ++ [d]) := ⟨[d], rfl, by simpa using fair⟩
  exact ((fairly_of_drifts namespaces t early).trans here).trans (fairly_of_drifts namespaces t late)

theorem fairly_of_update {answer : Option (Except Error Workspace)} (t : List (Moment σ))
    (writes : Chronicle.Writes rules.others (rules.update given answer) answer l l') :
    Fairly namespaces t l l' := by
  cases writes with
  | idle drifts _ => exact fairly_of_drifts namespaces t drifts
  | done past d early _ effective _ late =>
      obtain ⟨_, stored, found, _, same⟩ := effective
      refine fairly_of_done early ⟨by simp [found], fun before left was becomes => ?_⟩ late
      obtain rfl := Option.some.inj (found.symm.trans was)
      exact .inl (same left becomes)

theorem fairly_of_updateStatus {answer : Option (Except Error Workspace)}
    (noted : Noted namespaces fetched t given.currentStatus.provided) (keeps : Keeps fetched.currentStatus.provided l)
    (writes : Chronicle.Writes rules.others (rules.updateStatus given answer) answer l l')
    (linked : Chronicle.Linked l') : Fairly namespaces t l l' := by
  cases writes with
  | idle drifts _ => exact fairly_of_drifts namespaces t drifts
  | done past d early own effective _ late =>
      have before := late.linked linked
      have kept : Keeps fetched.currentStatus.provided past := keeps.drift early before.past
      obtain ⟨_, stored, left, found, becomes, _, put⟩ := effective
      refine fairly_of_done early ⟨by simp [found], fun stored' left' was becomes' => ?_⟩ late
      obtain rfl := Option.some.inj (found.symm.trans was)
      obtain rfl := Option.some.inj (becomes.symm.trans becomes')
      rw [before.found] at found
      rcases put with put | ⟨_, same⟩
      · rcases noted with ⟨same, _⟩ | ⟨_, name, named, applied, _⟩
        · exact .inl ((put.trans same).trans (kept stored found).symm)
        · exact .inr ⟨own, name, put.trans named, applied⟩
      · exact .inl same

theorem updated_of_keeps {answer : Option (Except Error Workspace)} (keeps : Keeps fetched.currentStatus.provided l)
    (writes : Chronicle.Writes rules.others (rules.update given answer) answer l l') (linked : Chronicle.Linked l') :
    ∀ d ∈ Chronicle.own l l', ∀ stored, d.found = some stored →
      stored.currentStatus.provided = fetched.currentStatus.provided := by
  intro d member stored found
  cases writes with
  | idle drifts _ => simp [drifts.own] at member
  | done past e early own _ _ late =>
      rw [Chronicle.own_done early own late] at member
      obtain rfl := List.mem_singleton.mp member
      have before := late.linked linked
      rw [before.found] at found
      exact keeps.drift early before.past stored found

theorem not_stepped {event : Event} (other : ∀ name phase given answer, event ≠ .stepped name phase given answer)
    (before after : σ) : Stepped namespaces fetched event before after :=
  fun name phase given answer same => absurd same (other name phase given answer)

theorem not_updated {event : Event} (other : ∀ given answer, event ≠ .updated given answer) (before after : σ) :
    Updated chronicle fetched event before after := by
  rintro ⟨given, answer, same⟩
  exact absurd same (other given answer)

section

variable {before : Chronicle}

theorem Reckoned.snoc (reckoned : Reckoned namespaces chronicle fetched before t l)
    (steps : Stepped namespaces fetched moment.event moment.before moment.after)
    (updates : Updated chronicle fetched moment.event moment.before moment.after)
    (deeds : Fairly namespaces t l l') :
    Reckoned namespaces chronicle fetched before (t ++ [moment]) l' := by
  refine ⟨fun m member => ?_, fun m member => ?_, ?_⟩
  · rcases List.mem_append.mp member with earlier | last
    · exact reckoned.steps m earlier
    · exact List.mem_singleton.mp last ▸ steps
  · rcases List.mem_append.mp member with earlier | last
    · exact reckoned.updates m earlier
    · exact List.mem_singleton.mp last ▸ updates
  · exact (reckoned.deeds.trans deeds).more fun m member => List.mem_append_left _ member

theorem Reckoned.idle (reckoned : Reckoned namespaces chronicle fetched before t l)
    (step : ∀ name phase given answer, moment.event ≠ .stepped name phase given answer)
    (update : ∀ given answer, moment.event ≠ .updated given answer)
    (drifts : Chronicle.Drifts rules.others l l') :
    Reckoned namespaces chronicle fetched before (t ++ [moment]) l' :=
  reckoned.snoc (not_stepped step _ _) (not_updated update _ _) (fairly_of_drifts namespaces t drifts)

theorem Reckoned.asked {α : Type} {stop : σ → Bool} {call : σ → Call σ α} {event : Option α → Event}
    {answer : Option α} (reckoned : Reckoned namespaces chronicle fetched before t (chronicle s))
    (asked : Run.Asked stop call event s answer piece s')
    (steps : (call s).Ends answer s' → Stepped namespaces fetched (event answer) s s')
    (updates : (call s).Ends answer s' → Updated chronicle fetched (event answer) s s')
    (deeds : (call s).Ends answer s' → Fairly namespaces t (chronicle s) (chronicle s')) :
    Reckoned namespaces chronicle fetched before (t ++ piece) (chronicle s') := by
  rcases asked.ends with ⟨_, rfl, rfl⟩ | ⟨rfl, ends⟩
  · simpa using reckoned
  · exact reckoned.snoc (steps ends) (updates ends) (deeds ends)

theorem Reckoned.drift (reckoned : Reckoned namespaces chronicle fetched before t l)
    (drifts : Chronicle.Drifts rules.others l l') : Reckoned namespaces chronicle fetched before t l' :=
  ⟨reckoned.steps, reckoned.updates, reckoned.deeds.trans (fairly_of_drifts namespaces t drifts)⟩

variable (recorded : Recorded c.manager c.world id chronicle rules)

include recorded

theorem Reckoned.read {found : Option (Except Error (Option Workspace))}
    (reckoned : Reckoned namespaces chronicle fetched before t (chronicle s))
    (asked : Run.Asked c.world.cancelled (c.world.get id) (.fetched id) s found piece s') :
    Reckoned namespaces chronicle fetched before (t ++ piece) (chronicle s') :=
  reckoned.asked asked (fun _ => not_stepped (by simp) _ _) (fun _ => not_updated (by simp) _ _)
    fun ends => fairly_of_drifts namespaces t (recorded.get ends).1.drifts

variable (only : c.manager.subroutines = [namespaces.subroutine])

include only

theorem Reckoned.step {phase : Phase} {sub : Subroutine σ} {todo : List (Subroutine σ)} {outcome : Outcome}
    {answer : Option StepAnswer} (course : Course c id now fetched start t (.stepping phase sub todo outcome) w s)
    (reckoned : Reckoned namespaces chronicle fetched before t (chronicle s))
    (asked : Run.Asked c.world.cancelled (sub.step phase w) (.stepped sub.name phase w) s answer piece s') :
    Reckoned namespaces chronicle fetched before (t ++ piece) (chronicle s') := by
  obtain ⟨rfl, _⟩ := only_of_agenda only course rfl
  obtain ⟨early, due⟩ := known_of_course only recorded course
  refine reckoned.asked asked (fun ends => ?_) (fun _ => not_updated (by simp) _ _)
    fun ends => fairly_of_drifts namespaces t (recorded.step _ (course.mem_of_agenda List.mem_cons_self) ends)
  rintro _ _ _ _ ⟨⟩
  exact ⟨due, early.same, ends⟩

theorem Reckoned.update {purpose : Purpose σ} {answer : Option (Except Error Workspace)}
    (course : Course c id now fetched start t (.writing purpose) w s)
    (reckoned : Reckoned namespaces chronicle fetched before t (chronicle s))
    (asked : Run.Asked c.world.cancelled (c.world.update w) (.updated w) s answer piece s') :
    Reckoned namespaces chronicle fetched before (t ++ piece) (chronicle s') := by
  have there : w.id = id ∧ (fetched.isBeingDeleted = true → Keeps fetched.currentStatus.provided (chronicle s)) := by
    have stands := known_of_course only recorded course
    cases purpose with
    | register => exact ⟨stands.1.identity, fun _ => stands.1.keeps⟩
    | release => exact ⟨stands.identity, fun _ => stands.keeps⟩
    | unlabel => exact ⟨stands.1, fun deleted => by simp [stands.2.2] at deleted⟩
  exact reckoned.asked asked (fun _ => not_stepped (by simp) _ _)
    (fun ends _ deleted => updated_of_keeps (there.2 deleted) (recorded.update ends there.1) (recorded.linked s'))
    fun ends => fairly_of_update t (recorded.update ends there.1)

theorem Reckoned.updateStatus {verdict : Verdict} {answer : Option (Except Error Workspace)}
    (course : Course c id now fetched start t (.persisting verdict) w s)
    (reckoned : Reckoned namespaces chronicle fetched before t (chronicle s))
    (asked : Run.Asked c.world.cancelled (c.world.updateStatus w) (.statusUpdated w) s answer piece s') :
    Reckoned namespaces chronicle fetched before (t ++ piece) (chronicle s') := by
  have amid : Amid namespaces id fetched t w (chronicle s) := known_of_course only recorded course
  exact reckoned.asked asked (fun _ => not_stepped (by simp) _ _) (fun _ => not_updated (by simp) _ _)
    fun ends => fairly_of_updateStatus amid.noted amid.keeps (recorded.updateStatus ends amid.identity)
      (recorded.linked s')

theorem reckoned_of_course (course : Course c id now fetched start t stage w s) :
    Reckoned namespaces chronicle fetched (chronicle start) t (chronicle s) := by
  induction course with
  | start => exact ⟨by simp, by simp, .refl _ _ _⟩
  | note _ _ ih => exact ih.idle (by simp) (by simp) (.refl _ _)
  | unread _ asked _ ih => exact ih.read recorded asked
  | absent _ asked ih => exact ih.read recorded asked
  | skip _ asked _ _ ih => exact ih.read recorded asked
  | fetch _ asked _ _ ih => exact ih.read recorded asked
  | step course asked ih => exact ih.step recorded only course asked
  | drop course asked ih => exact ih.step recorded only course asked
  | written course asked ih => exact ih.update recorded only course asked
  | unwritten course asked _ ih => exact ih.update recorded only course asked
  | fail _ ih => exact ih.idle (by simp) (by simp) (.refl _ _)
  | report _ _ ih => exact ih.idle (by simp) (by simp) (recorded.capture _ _ _)
  | schedule _ _ _ ih => exact ih.drift (recorded.draw _)
  | beyond _ _ _ ih => exact ih.drift (recorded.draw _)
  | persist course _ asked ih => exact ih.updateStatus recorded only course asked
  | vanish course _ asked _ _ ih => exact ih.updateStatus recorded only course asked
  | refuse course _ asked _ _ ih => exact ih.updateStatus recorded only course asked
  | _ => assumption

end

end

end NamespaceCleanup

end Reconciler
