import Reconciler.Proofs.FinalizerProtocol
import Reconciler.Proofs.SweepOrder

set_option autoImplicit false

namespace Reconciler

variable {σ : Type}

namespace SharedTokens

def Cleaned (events : List Event) (sub : Subroutine σ) : Prop :=
  ∃ event ∈ events, event.cleans sub.name = true

-- Each of its tokens on the resource is also one of an earlier subroutine, which has cleaned up.
def Relieved (fetched : Workspace) (events : List Event) (earlier : List (Subroutine σ)) (sub : Subroutine σ) : Prop :=
  ∀ token ∈ sub.finalizers, token ∈ fetched.finalizers →
    ∃ other ∈ earlier, token ∈ other.finalizers ∧ Cleaned events other

def cleanups (events : List Event) (sub : Subroutine σ) : Nat :=
  events.countP (·.step? == some (sub.name, .finalize))

end SharedTokens

namespace Turnout

def done (o : Turnout σ) : Bool :=
  match o.result with
  | some (.ok outcome) => outcome.isDone
  | _ => false

end Turnout

namespace SharedTokens

open SweepOrder

section

variable {c : Cycle σ} {now : Timestamp} {fetched w : Workspace} {sub : Subroutine σ} {event : Event}
variable {turnouts past rest : List (Turnout σ)} {o : Turnout σ} {own closing : List Event} {token : Finalizer.Token}

theorem mem_remaining_iff (present : List Finalizer.Token) (turnouts : List (Turnout σ)) :
    token ∈ remaining present turnouts ↔
      token ∈ present ∧ ∀ o ∈ turnouts, o.done = true → token ∉ o.sub.finalizers := by
  induction turnouts using List.reverseRecOn with
  | nil => simp [remaining]
  | append_singleton turnouts o ih =>
      have last : token ∈ remaining (remaining present turnouts) [o] ↔
          token ∈ remaining present turnouts ∧ (o.done = true → token ∉ o.sub.finalizers) := by
        rcases result : o.result with _ | _ | outcome
        · simp [remaining, Turnout.done, result]
        · simp [remaining, Turnout.done, result]
        · by_cases done : outcome.isDone = true <;> simp [remaining, Turnout.done, result, done]
      rw [remaining_snoc, last, ih]
      simp [or_imp, forall_and, and_assoc]

theorem step?_of_cleans {subroutine : String} (cleans : event.cleans subroutine = true) :
    event.step? = some (subroutine, .finalize) := by
  obtain ⟨given, answer, outcome, rfl, _⟩ := Event.exists_of_cleans cleans
  rfl

theorem cleanups_of_once {result : Option (Except Error Outcome)} (once : Once .finalize sub own result) :
    cleanups own sub = if result.isSome then 1 else 0 := by
  have none {writes : List Event} (stored : ∀ event ∈ writes, event.stores = true) : cleanups writes sub = 0 :=
    List.countP_eq_zero.mpr fun event member => by simp [step?_of_stores (stored event member)]
  cases once with
  | passed => rfl
  | unregistered process => simp at process
  | @stepped before after _ _ stored =>
      have early := none fun event member => stored event (List.mem_append_left after member)
      have late := none fun event member => stored event (List.mem_append_right before member)
      rw [cleanups] at early late
      rw [cleanups, List.countP_append, List.countP_cons, early, late]
      simp [Event.step?]
  | unreleased => simp [cleanups, Event.step?]

theorem cleaned_of_once (once : Once .finalize o.sub o.calls o.result) (fine : o.failed = false) :
    Cleaned o.calls o.sub ↔ o.done = true := by
  obtain ⟨sub, found, own, result, left⟩ := o
  dsimp only at once ⊢
  have still {event : Event} (stores : event.stores = true) : event.cleans sub.name = false := by
    by_contra cleans
    have step := step?_of_cleans (by simpa using cleans)
    simp [step?_of_stores stores] at step
  cases once with
  | passed => simp [Cleaned, Turnout.done]
  | unregistered process => simp at process
  | @stepped before after given answer stored =>
      have only : Cleaned (before ++ .stepped sub.name .finalize given (some answer) :: after) sub ↔
          (Event.stepped sub.name .finalize given (some answer)).cleans sub.name = true := by
        refine ⟨fun ⟨event, member, cleans⟩ => ?_, fun cleans => ⟨_, by simp, cleans⟩⟩
        rcases List.mem_append.mp member with early | late
        · simp [still (stored event (by simp [early]))] at cleans
        · rcases List.mem_cons.mp late with rfl | late
          · exact cleans
          · simp [still (stored event (by simp [late]))] at cleans
      rw [only]
      rcases ended : answer.result with error | outcome <;>
        simp [Turnout.done, Event.cleans, Except.mapError, ended]
  | unreleased => simp [Turnout.failed] at fine

theorem isSome_iff_of_orderly {m : Manager σ} (orderly : Orderly m w turnouts) (condemned : w.isBeingDeleted = true)
    (split : turnouts = past ++ o :: rest) :
    o.result.isSome = true ↔ ∃ token ∈ o.sub.finalizers, token ∈ w.finalizers ∧
      ∀ other ∈ past, other.done = true → token ∉ other.sub.finalizers := by
  rw [orderly.applicable o (by simp [split]), Applicable, orderly.tokens condemned past o rest split]
  simp [condemned, mem_remaining_iff]

theorem filter_calls {m : Manager σ} {id : ResourceId} {phase : Phase} {p : Event → Bool}
    (orderly : Orderly m w turnouts) (writes : ∀ event ∈ closing, event.isWrite = true)
    (split : turnouts = past ++ o :: rest) (steps : ∀ event, p event = true → event.step? = some (o.sub.name, phase)) :
    (begun id w turnouts ++ closing).filter p = o.calls.filter p := by
  have names : (turnouts.map fun o => o.sub.name).Nodup := by
    simpa [Function.comp_def] using (orderly.order.map (·.name)).sublist.nodup m.names_nodup
  have others : ∀ other ∈ past ++ rest, other.sub.name ≠ o.sub.name := by
    rw [split, List.map_append, List.map_cons, List.nodup_middle, List.nodup_cons, ← List.map_append] at names
    exact fun other member same => names.1 (same ▸ List.mem_map_of_mem (f := fun o => o.sub.name) member)
  have nothing {events : List Event} (apart : ∀ event ∈ events, event.step? ≠ some (o.sub.name, phase)) :
      events.filter p = [] :=
    List.filter_eq_nil_iff.mpr fun event member holds => apart event member (steps event holds)
  have elsewhere (turns : List (Turnout σ)) (among : turns ⊆ past ++ rest) :
      (turns.flatMap (·.calls)).filter p = [] := by
    refine nothing fun event member step => ?_
    obtain ⟨other, there, called⟩ := List.mem_flatMap.mp member
    have taken : other ∈ turnouts := by
      rcases List.mem_append.mp (among there) with earlier | later
      · simp [split, earlier]
      · simp [split, later]
    exact others other (among there) (step_of_once (orderly.once other taken) called step).1.symm
  have unread : [Event.fetched id (some (.ok (some w)))].filter p = [] := nothing (by simp [Event.step?])
  have last : closing.filter p = [] := nothing fun event member => by simp [step?_of_isWrite (writes event member)]
  calc
    _ = [Event.fetched id (some (.ok (some w)))].filter p ++ (past.flatMap (·.calls)).filter p ++ o.calls.filter p ++
          (rest.flatMap (·.calls)).filter p ++ closing.filter p := by
      rw [split, begun, ← List.singleton_append]
      simp only [List.filter_append, List.flatMap_append, List.flatMap_cons, List.append_assoc]
    _ = o.calls.filter p := by
      rw [unread, elsewhere past (by simp), elsewhere rest (by simp), last]
      simp

theorem updated_of_turns {phase : Phase} {given : Workspace} {answer : Option (Except Error Workspace)}
    {front back : List Event} (turns : Turns c phase now o.sub o.found o.calls o.result o.left)
    (fine : o.failed = false) (condemned : o.found.isBeingDeleted = true)
    (split : o.calls = front ++ .updated given answer :: back) :
    given.finalizers = o.left.finalizers ∧ ∀ event ∈ o.calls, event.cleans o.sub.name = true → event ∈ front := by
  obtain ⟨sub, found, own, result, left⟩ := o
  dsimp only at turns condemned split ⊢
  cases turns with
  | passed => simp at split
  | taken _ taken =>
      rw [finalizers_of_metadata (metadata_concluded _)]
      cases taken with
      | processed live _ _ => simp [live] at condemned
      | finalized _ _ persisted =>
          cases persisted with
          | spared =>
              have member : .updated given answer ∈ front ++ .updated given answer :: back := by simp
              simp [← split] at member
          | written =>
              obtain ⟨rfl, same⟩ | ⟨middle, early⟩ := split_snoc (l := [_]) split
              · cases same
                exact ⟨rfl, by simp [Event.cleans]⟩
              · have member : .updated given answer ∈ front ++ .updated given answer :: middle := by simp
                simp [← early] at member
  | unregistered | unreleased => simp [Turnout.failed] at fine

theorem progress_of_account {s : σ} {finished : Finished}
    (account : Account c now fetched turnouts s closing (.ok finished))
    (condemned : fetched.phase = .finalize) :
    (∃ left outcome, Progress c now fetched turnouts left [] outcome) ∧
      ∀ event ∈ closing, ∃ given answer, event = .statusUpdated given answer := by
  have marked {w : Workspace} : Reconcile.unlabels c fetched.phase w = false := by
    simp [Reconcile.unlabels, condemned]
  cases account with
  | closed closes close =>
      cases close with
      | finished kept _ =>
          have status : ∀ event ∈ closing, ∃ given answer, event = .statusUpdated given answer := by
            cases kept <;> simp
          cases closes with
          | whole progress _ | scheduled progress _ _ => exact ⟨⟨_, _, progress⟩, status⟩
      | unlabelled _ unlabels => simp [marked] at unlabels

structure Swept (c : Cycle σ) (now : Timestamp) (w : Workspace) (turnouts : List (Turnout σ)) : Prop where
  sweeps : ∃ left, Sweeps c w.phase now (first c now w) turnouts left
  clean : ∀ o ∈ turnouts, o.failed = false
  orderly : Orderly c.manager w turnouts
  condemned : w.isBeingDeleted = true

variable {id : ResourceId}

namespace Swept

theorem phase (swept : Swept c now w turnouts) : w.phase = .finalize := by
  simp [Workspace.phase, swept.condemned]

theorem cleaned_iff (swept : Swept c now w turnouts) (writes : ∀ event ∈ closing, event.isWrite = true)
    (member : o ∈ turnouts) : Cleaned (begun id w turnouts ++ closing) o.sub ↔ o.done = true := by
  obtain ⟨past, rest, split⟩ := List.append_of_mem member
  have once := swept.orderly.once o member
  rw [swept.phase] at once
  have steps : (begun id w turnouts ++ closing).filter (·.cleans o.sub.name) = o.calls.filter (·.cleans o.sub.name) :=
    filter_calls swept.orderly writes split fun _ => step?_of_cleans
  have among (events : List Event) : Cleaned events o.sub ↔ events.filter (·.cleans o.sub.name) ≠ [] := by
    simp [Cleaned]
  rw [← cleaned_of_once once (swept.clean o member), among, among, steps]

theorem cleanups_calls (swept : Swept c now w turnouts) (writes : ∀ event ∈ closing, event.isWrite = true)
    (split : turnouts = past ++ o :: rest) :
    cleanups (begun id w turnouts ++ closing) o.sub = if o.result.isSome then 1 else 0 := by
  have once := swept.orderly.once o (by simp [split])
  rw [swept.phase] at once
  rw [← cleanups_of_once once, cleanups, cleanups, List.countP_eq_length_filter, List.countP_eq_length_filter,
    filter_calls swept.orderly writes split fun _ => eq_of_beq]

theorem relieved_iff (swept : Swept c now w turnouts) (writes : ∀ event ∈ closing, event.isWrite = true)
    (split : turnouts = past ++ o :: rest) :
    Relieved w (begun id w turnouts ++ closing) (past.map (·.sub)) o.sub ↔ o.result.isSome = false := by
  have cleaned {other : Turnout σ} (earlier : other ∈ past) :
      Cleaned (begun id w turnouts ++ closing) other.sub ↔ other.done = true :=
    swept.cleaned_iff writes (by simp [split, earlier])
  have called := isSome_iff_of_orderly swept.orderly swept.condemned split
  rw [← Bool.not_eq_true, called]
  simp only [Relieved, List.mem_map, not_exists, not_and]
  constructor
  · intro relieved token owned present untaken
    obtain ⟨_, ⟨other, earlier, rfl⟩, shared, done⟩ := relieved token owned present
    exact untaken other earlier ((cleaned earlier).mp done) shared
  · intro taken token owned present
    have off := taken token owned present
    push Not at off
    obtain ⟨other, earlier, done, shared⟩ := off
    exact ⟨other.sub, ⟨other, earlier, rfl⟩, shared, (cleaned earlier).mpr done⟩

theorem cleaned_before_update (swept : Swept c now w turnouts) (steady : c.manager.StepsKeep Workspace.metadata)
    {before after : List Event} {given : Workspace} {answer : Option (Except Error Workspace)}
    (split : turnouts.flatMap (·.calls) = before ++ .updated given answer :: after)
    (present : token ∈ w.finalizers) (removed : token ∉ given.finalizers) :
    ∃ sub ∈ c.manager.subroutines, token ∈ sub.finalizers ∧ Cleaned before sub := by
  obtain ⟨past, o, rest, front, back, rfl, here, rfl⟩ := split_flatMap split
  obtain ⟨left, sweeps⟩ := swept.sweeps
  obtain ⟨chain, _, turns, _⟩ := sweeps.split rfl
  have among : ∀ other ∈ past ++ o :: rest, other.sub ∈ c.manager.subroutines :=
    fun other member => swept.orderly.order.subset (List.mem_map_of_mem member)
  have deleted : o.found.isBeingDeleted = true :=
    (isBeingDeleted_sweeps steady (fun other member => among other (by simp [member])) chain).trans swept.condemned
  have fine := swept.clean o (by simp)
  obtain ⟨same, ahead⟩ := updated_of_turns turns fine deleted here
  have tokens : given.finalizers = remaining w.finalizers (past ++ [o]) :=
    calc
      _ = o.left.finalizers := same
      _ = remaining o.found.finalizers [o] := finalizers_turns steady (among o (by simp)) turns fine deleted
      _ = remaining w.finalizers (past ++ [o]) := by
        rw [swept.orderly.tokens swept.condemned past o rest rfl, remaining_snoc]
  rw [tokens, mem_remaining_iff] at removed
  push Not at removed
  obtain ⟨other, member, done, owned⟩ := removed present
  have taken : other ∈ past ++ o :: rest := by
    rcases List.mem_append.mp member with earlier | last
    · simp [earlier]
    · simp [List.mem_singleton.mp last]
  have once := swept.orderly.once other taken
  rw [swept.phase] at once
  obtain ⟨event, called, cleans⟩ := (cleaned_of_once once (swept.clean other taken)).mpr done
  refine ⟨other.sub, among other taken, owned, event, ?_, cleans⟩
  rcases List.mem_append.mp member with earlier | last
  · exact List.mem_append_left _ (List.mem_flatMap.mpr ⟨other, earlier, called⟩)
  · obtain rfl := List.mem_singleton.mp last
    exact List.mem_append_right _ (ahead event called cleans)

end Swept

end

section

variable {m : Manager σ} {world : World σ} {id : ResourceId} {s : σ} {read : Moment σ} {w : Workspace}

/-- A resource that is being deleted is cleaned up after by each subroutine with a token that none before it has taken
off, once, and no token is taken off before a subroutine of that token has cleaned up. -/
theorem cleaned_unless_relieved {finished : Finished} (steady : m.StepsKeep Workspace.metadata)
    (found : Finds id (m.attempt world id s).trace read w) (condemned : w.isBeingDeleted = true)
    (ended : (m.attempt world id s).value = .ok finished) :
    (∀ past sub rest, m.subroutines = past ++ sub :: rest →
      (Relieved w (calls (m.attempt world id s).trace) past sub →
        cleanups (calls (m.attempt world id s).trace) sub = 0) ∧
      (¬Relieved w (calls (m.attempt world id s).trace) past sub →
        cleanups (calls (m.attempt world id s).trace) sub = 1)) ∧
    ∀ before given answer after, calls (m.attempt world id s).trace = before ++ .updated given answer :: after →
      ∀ token ∈ w.finalizers, token ∉ given.finalizers →
        ∃ sub ∈ m.subroutines, token ∈ sub.finalizers ∧ Cleaned before sub := by
  have phase : w.phase = .finalize := by simp [Workspace.phase, condemned]
  have due : ∀ outcome, (m.attempt world id s).value ≠ .ok (.skipped outcome) := by
    intro outcome skipped
    have idle := (Manager.attempt_finds found).2.1.mp ⟨outcome, skipped⟩
    simp [Reconcile.skips, condemned] at idle
  obtain ⟨turnouts, closing, account, made⟩ := Manager.attempt_accounts found due
  rw [ended] at account
  obtain ⟨⟨left, outcome, progress⟩, status⟩ := progress_of_account account phase
  have whole : turnouts.map (·.sub) = m.subroutines := by simpa using progress.order.symm
  have swept : Swept (m.cycle world id (world.correlate s).1) (world.now read.after) w turnouts :=
    ⟨⟨left, progress.chain⟩, progress.clean,
      orderly_of_sweeps steady (whole ▸ List.prefix_refl _) (fun _ => whole) progress.chain, condemned⟩
  have writes : ∀ event ∈ closing, event.isWrite = true := by
    intro event member
    obtain ⟨given, answer, rfl⟩ := status event member
    rfl
  rw [made]
  refine ⟨fun past sub rest split => ?_, fun before given answer after split token present removed => ?_⟩
  · rw [← whole] at split
    obtain ⟨past, there, rfl, rfl, turned⟩ := List.map_eq_append_iff.mp split
    obtain ⟨o, rest, rfl, rfl, rfl⟩ := List.map_eq_cons_iff.mp turned
    rw [swept.relieved_iff writes rfl, swept.cleanups_calls writes rfl]
    simp
  · rcases split_append split with ⟨back, turns⟩ | ⟨front, _, close⟩
    · rcases before with _ | ⟨first, before⟩
      · simp [begun] at turns
      · obtain ⟨sub, member, owned, event, called, cleans⟩ :=
          swept.cleaned_before_update steady (List.cons.inj turns).2 present removed
        exact ⟨sub, member, owned, event, by simp [called], cleans⟩
    · obtain ⟨_, _, ⟨⟩⟩ := status (.updated given answer) (by simp [close])

end

section

open Reconciler.Shelf

def pair : Manager (Shelf site) where
  operator := "converge"
  controller := "workspaces"
  subroutines := [worker "volume" ["data"] leave leave, worker "backup" ["data"] leave leave]
  faultless := by decide

def bound : Workspace :=
  Edit.apply (.condemn .epoch) (web.setFinalizers ["data", "audit"])

def cleared : Ran (Shelf site) (Except Stop Finished) :=
  pair.attempt (Shelf.world site) site (stocked bound [] .epoch)

theorem cleaned_unless_relieved_pair :
    cleared.value = .ok (.reconciled .done) ∧
      cleanups (calls cleared.trace) (worker "volume" ["data"] leave leave : Subroutine (Shelf site)) = 1 ∧
      cleanups (calls cleared.trace) (worker "backup" ["data"] leave leave : Subroutine (Shelf site)) = 0 := by
  have value : cleared.value = .ok (.reconciled .done) := by decide +kernel
  have steady : pair.StepsKeep Workspace.metadata := by
    intro sub member phase w s answer s' ends
    simp only [pair, List.mem_cons, List.not_mem_nil, or_false] at member
    rcases member with rfl | rfl <;> obtain ⟨_, same | same⟩ := answer_of_worker ends <;> cases same <;> rfl
  have found : Finds site cleared.trace (cleared.trace.get ⟨1, by decide +kernel⟩)
      (bound.setResourceVersion (some "1")) := finds_get (by decide +kernel)
  obtain ⟨once, _⟩ := cleaned_unless_relieved steady found (by decide +kernel) value
  have cleaned : Cleaned (calls cleared.trace) (worker "volume" ["data"] leave leave : Subroutine (Shelf site)) := by
    unfold Cleaned
    decide +kernel
  refine ⟨value, (once [] _ [worker "backup" ["data"] leave leave] rfl).2 fun relieved => ?_,
    (once [worker "volume" ["data"] leave leave] _ [] rfl).1 fun _ owned _ =>
      ⟨_, List.mem_singleton_self _, owned, cleaned⟩⟩
  obtain ⟨_, earlier, _⟩ := relieved "data" (by decide +kernel) (by decide +kernel)
  simp at earlier

end

end SharedTokens

end Reconciler
