import Reconciler.Reconcile.Basic

set_option autoImplicit false

namespace Reconciler

variable {σ α β : Type}

def Workspace.plain (w : Workspace) : Workspace :=
  w.setResourceVersion none

namespace Event

def told? : Event → Option Event
  | fetched id answer => some (.fetched id (answer.map (·.map (·.map Workspace.plain))))
  | updated given answer => some (.updated given.plain (answer.map (·.map Workspace.plain)))
  | statusUpdated given answer => some (.statusUpdated given.plain (answer.map (·.map Workspace.plain)))
  | stepped subroutine phase given answer =>
      some (.stepped subroutine phase given.plain
        (answer.map fun answer => { workspace := answer.workspace.plain, result := answer.result }))
  | logged _ => none
  | reported error tags => some (.reported error { tags with correlation := "" })
  | counted metric => some (.counted metric)

end Event

namespace Independence

def told (t : List (Moment σ)) : List Event :=
  t.filterMap (·.event.told?)

structure Rule where
  written : Workspace → Workspace → Workspace
  leaves : Workspace → Workspace → Bool
  missing : ResourceId → Error

structure View (σ : Type) where
  now : σ → Timestamp
  content : σ → ResourceId → Option Workspace

structure Still (view : View σ) (s s' : σ) : Prop where
  content : view.content s' = view.content s
  clock : view.now s' = view.now s

structure Obeys (view : View σ) (rule : Rule)
    (write : Workspace → σ → Call σ (Except Error Workspace)) : Prop where
  stored : ∀ w s v, view.content s w.id = some v → v.metadata.resourceVersion = w.metadata.resourceVersion →
    ∃ version, let written := (rule.written v.plain w.plain).setResourceVersion version
      (write w s).finish.1 = .ok written ∧
        view.content (write w s).finish.2 w.id = if rule.leaves v.plain w.plain then none else some written
  missing : ∀ w s, view.content s w.id = none →
    (write w s).finish.1 = .error (rule.missing w.id) ∧ view.content (write w s).finish.2 w.id = none
  elsewhere : ∀ w s id, id ≠ w.id → view.content (write w s).finish.2 id = view.content s id
  clock : ∀ w s, view.now (write w s).finish.2 = view.now s

-- A world whose store does not fail and whose clock stands still.
structure Dependable (world : World σ) (view : View σ) (update restate : Rule) :
    Prop where
  clock : world.now = view.now
  get : ∀ id s, (world.get id s).finish.1 = .ok (view.content s id) ∧ Still view s (world.get id s).finish.2
  update : Obeys view update world.update
  updateStatus : Obeys view restate world.updateStatus
  correlate : ∀ s, Still view s (world.correlate s).2
  capture : ∀ error tags s, Still view s (world.capture error tags s).2

-- Steps that go by the workspace alone, its version apart, and change nothing of it but its status.
def Plainly (m : Manager σ) (view : View σ) : Prop :=
  ∀ sub ∈ m.subroutines, ∀ phase, ∃ (status : Workspace → Option Workspace.Status)
    (result : Workspace → Except OperatorError Outcome), ∀ w s,
      let ended := (sub.step phase w s).finish
      ended.1.workspace = { w with status := status w.plain } ∧ ended.1.result = result w.plain ∧
        Still view s ended.2

structure Settled (m : Manager σ) (world : World σ) (view : View σ)
    (update restate : Rule) (cancelled : Bool) : Prop where
  dependable : Dependable world view update restate
  steps : Plainly m view
  unspread : m.spread = false
  token : world.cancelled = fun _ => cancelled

section

variable {w w' v v' : Workspace}

theorem plain_eq_iff : w.plain = w'.plain ↔ ∃ version, w' = w.setResourceVersion version := by
  constructor
  · intro alike
    refine ⟨w'.metadata.resourceVersion, ?_⟩
    calc
      w' = w'.plain.setResourceVersion w'.metadata.resourceVersion := rfl
      _ = w.plain.setResourceVersion w'.metadata.resourceVersion := by rw [alike]
  · rintro ⟨version, rfl⟩
    rfl

structure Indifferent (change : Workspace → Workspace) : Prop where
  version : ∀ w version, change (w.setResourceVersion version) = (change w).setResourceVersion version
  id : ∀ w, (change w).id = w.id

theorem Indifferent.kept {change : Workspace → Workspace} (indifferent : Indifferent change) (w : Workspace) :
    (change w).metadata.resourceVersion = w.metadata.resourceVersion :=
  congrArg (·.metadata.resourceVersion) (indifferent.version w w.metadata.resourceVersion)

theorem Indifferent.alike {change : Workspace → Workspace} (indifferent : Indifferent change)
    (alike : w.plain = w'.plain) : (change w).plain = (change w').plain := by
  obtain ⟨version, rfl⟩ := plain_eq_iff.mp alike
  rw [indifferent.version]
  rfl

theorem isGone_eq {error : Error} (alike : w.plain = w'.plain) : Cycle.isGone w error = Cycle.isGone w' error := by
  obtain ⟨_, rfl⟩ := plain_eq_iff.mp alike
  rfl

theorem currentStatus_eq (alike : w.plain = w'.plain) : w.currentStatus = w'.currentStatus := by
  obtain ⟨_, rfl⟩ := plain_eq_iff.mp alike
  rfl

theorem changed_eq (alike : w.plain = w'.plain) (tokens : List Finalizer.Token)
    (result : Except OperatorError Outcome) :
    (w.releaseIfIdle tokens result).2 = (w'.releaseIfIdle tokens result).2 := by
  obtain ⟨_, rfl⟩ := plain_eq_iff.mp alike
  rw [Workspace.changed_releaseIfIdle, Workspace.changed_releaseIfIdle]
  rfl

theorem indifferent_amend (c : Cycle σ) (change : Ledger → Ledger × Bool) : Indifferent (c.amend change) where
  version w version := by
    unfold Cycle.amend
    split <;> rfl
  id w := by
    unfold Cycle.amend
    split <;> rfl

theorem indifferent_register (tokens : List Finalizer.Token) : Indifferent fun w => (w.register tokens).1 where
  version _ _ := rfl
  id _ := rfl

theorem indifferent_releaseIfIdle (tokens : List Finalizer.Token) (result : Except OperatorError Outcome) :
    Indifferent fun w => (w.releaseIfIdle tokens result).1 where
  version w version := by
    rcases result with failure | outcome
    · rfl
    · by_cases done : outcome.isDone = true <;> simp [Workspace.releaseIfIdle, done]; rfl
  id w := Workspace.releaseIfIdle_keeps Workspace.id (fun _ _ => rfl) tokens result w

theorem indifferent_status (status : Option Workspace.Status) :
    Indifferent fun w => { w with status := status } where
  version _ _ := rfl
  id _ := rfl

end

def Filed (view : View σ) (id : ResourceId) (s : σ) : Prop :=
  ∀ w, view.content s id = some w → w.id = id

structure Level (view : View σ) (id : ResourceId) (s s' : σ) : Prop where
  clock : view.now s = view.now s'
  stored : (view.content s id).map Workspace.plain = (view.content s' id).map Workspace.plain

structure Local (view : View σ) (id : ResourceId) (s s' : σ) : Prop where
  clock : view.now s' = view.now s
  elsewhere : ∀ other, other ≠ id → view.content s' other = view.content s other

structure Paired (view : View σ) (id : ResourceId) (w w' : Workspace) (s s' : σ) : Prop where
  level : Level view id s s'
  alike : w.plain = w'.plain
  own : w.id = id
  version : ∀ v, view.content s id = some v → v.metadata.resourceVersion = w.metadata.resourceVersion
  version' : ∀ v, view.content s' id = some v → v.metadata.resourceVersion = w'.metadata.resourceVersion

def Lasting (view : View σ) (before : σ → σ → Prop) : Prop :=
  ∀ s s' s₁ s₁', before s s' → Still view s s₁ → Still view s' s₁' → before s₁ s₁'

-- Two runs that tell the same: what holds of the states before them leads to what holds of their
-- answers and of the states after them, and neither changes another resource.
def InStep (view : View σ) (id : ResourceId) (before : σ → σ → Prop) (run run' : Run σ α)
    (after : α → α → σ → σ → Prop) : Prop :=
  ∀ s s', before s s' → told (run s).trace = told (run' s').trace ∧
    after (run s).value (run' s').value (run s).state (run' s').state ∧
      Local view id s (run s).state ∧ Local view id s' (run' s').state

def Agreed (view : View σ) (id : ResourceId) (a a' : α) (s s' : σ) : Prop :=
  a = a' ∧ Level view id s s'

inductive Both (good : α → α → σ → σ → Prop) (bad : σ → σ → Prop) :
    Except Error α → Except Error α → σ → σ → Prop where
  | ok {a a' s s'} : good a a' s s' → Both good bad (.ok a) (.ok a') s s'
  | error {error s s'} : bad s s' → Both good bad (.error error) (.error error) s s'

section

variable {view : View σ} {id : ResourceId} {s s' s₁ s₁' : σ}
variable {before : σ → σ → Prop} {mid : α → α → σ → σ → Prop} {after : β → β → σ → σ → Prop} {w w' : Workspace}
variable {rule : Rule}

theorem Local.refl (s : σ) : Local view id s s := ⟨rfl, fun _ _ => rfl⟩

theorem Local.trans (first : Local view id s s') (second : Local view id s' s₁) :
    Local view id s s₁ :=
  ⟨second.clock.trans first.clock,
    fun other apart => (second.elsewhere other apart).trans (first.elsewhere other apart)⟩

theorem Still.local (still : Still view s s') : Local view id s s' :=
  ⟨still.clock, fun other _ => congrFun still.content other⟩

theorem Filed.still (filed : Filed view id s) (still : Still view s s') : Filed view id s' := by
  rw [Filed, still.content]
  exact filed

theorem Level.lasting : Lasting view (Level view id) :=
  fun _ _ _ _ level still still' => ⟨still.clock.trans (level.clock.trans still'.clock.symm), by
    rw [still.content, still'.content]
    exact level.stored⟩

theorem Paired.lasting : Lasting view (Paired view id w w') :=
  fun _ _ _ _ paired still still' => ⟨Level.lasting _ _ _ _ paired.level still still', paired.alike, paired.own,
    still.content ▸ paired.version, still'.content ▸ paired.version'⟩

theorem Paired.change {change : Workspace → Workspace} (paired : Paired view id w w' s s')
    (indifferent : Indifferent change) : Paired view id (change w) (change w') s s' where
  level := paired.level
  alike := indifferent.alike paired.alike
  own := (indifferent.id w).trans paired.own
  version v there := (paired.version v there).trans (indifferent.kept w).symm
  version' v there := (paired.version' v there).trans (indifferent.kept w').symm

namespace InStep

theorem pure {a a' : β} (same : ∀ s s', before s s' → after a a' s s') :
    InStep view id before (Pure.pure a) (Pure.pure a') after :=
  fun s s' there => ⟨rfl, same s s' there, .refl s, .refl s'⟩

theorem bind {run run' : Run σ α} {next next' : α → Run σ β} (first : InStep view id before run run' mid)
    (second : ∀ a a', InStep view id (mid a a') (next a) (next' a') after) :
    InStep view id before (run >>= next) (run' >>= next') after := by
  intro s s' there
  obtain ⟨told₁, between, own₁, own₁'⟩ := first s s' there
  obtain ⟨told₂, last, own₂, own₂'⟩ := second _ _ _ _ between
  refine ⟨?_, last, own₁.trans own₂, own₁'.trans own₂'⟩
  simp only [Run.bind_apply, told, List.filterMap_append] at *
  rw [told₁, told₂]

theorem given {run run' : Run σ β} {fact : Prop} (known : ∀ s s', before s s' → fact)
    (follows : fact → InStep view id before run run' after) :
    InStep view id before run run' after :=
  fun s s' there => follows (known s s' there) s s' there

theorem same {next next' : α → Run σ β} (rest : ∀ a, InStep view id before (next a) (next' a) after) (a a' : α) :
    InStep view id (fun s s' => a = a' ∧ before s s') (next a) (next' a') after := by
  rintro s s' ⟨rfl, there⟩
  exact rest a s s' there

theorem either {good : α → α → σ → σ → Prop} {bad : σ → σ → Prop} {next next' : Except Error α → Run σ β}
    (ok : ∀ a a', InStep view id (good a a') (next (.ok a)) (next' (.ok a')) after)
    (error : ∀ error, InStep view id bad (next (.error error)) (next' (.error error)) after)
    (answer answer' : Except Error α) :
    InStep view id (Both good bad answer answer') (next answer) (next' answer') after := by
  intro s s' both
  cases both with
  | ok there => exact ok _ _ s s' there
  | error there => exact error _ s s' there

theorem onward {run run' : Run σ β} {first : σ → σ → Prop} (rest : InStep view id before run run' after)
    (onward : ∀ s s', first s s' → before s s') : InStep view id first run run' after :=
  fun s s' there => rest s s' (onward s s' there)

theorem log (c c' : Cycle σ) (note note' : Log.Note) :
    InStep view id before (c.log note) (c'.log note') fun _ _ => before :=
  fun s s' there => ⟨rfl, there, .refl s, .refl s'⟩

theorem logAll (c c' : Cycle σ) (notes notes' : List Log.Note) :
    InStep view id before (c.logAll notes) (c'.logAll notes') fun _ _ => before := by
  intro s s' there
  have silent (c : Cycle σ) (notes : List Log.Note) (s : σ) : told (c.logAll notes s).trace = [] := by
    simp [told, Cycle.logAll, Event.told?]
  exact ⟨(silent c notes s).trans (silent c' notes' s').symm, there, .refl s, .refl s'⟩

theorem counted (metric : Metric) :
    InStep view id before (Run.emit (.counted metric)) (Run.emit (.counted metric)) fun _ _ => before :=
  fun s s' there => ⟨rfl, there, .refl s, .refl s'⟩

theorem guarded {stop : σ → Bool} {cancelled : Bool} {call call' : σ → Call σ α} {event event' : Option α → Event}
    {after : Option α → Option α → σ → σ → Prop} (token : stop = fun _ => cancelled)
    (unasked : ∀ s s', before s s' → after none none s s')
    (asked : ∀ s s', before s s' →
      (event (some (call s).finish.1)).told? = (event' (some (call' s').finish.1)).told? ∧
        after (some (call s).finish.1) (some (call' s').finish.1) (call s).finish.2 (call' s').finish.2 ∧
          Local view id s (call s).finish.2 ∧ Local view id s' (call' s').finish.2) :
    InStep view id before (Run.guarded stop call event) (Run.guarded stop call' event') after := by
  subst token
  intro s s' there
  cases cancelled with
  | true => exact ⟨rfl, unasked s s' there, .refl s, .refl s'⟩
  | false =>
      obtain ⟨same, holds, own, own'⟩ := asked s s' there
      have ended (call : σ → Call σ α) (event : Option α → Event) (s : σ) :
          Run.guarded (fun _ => false) call event s =
            ⟨some (call s).finish.1, (call s).finish.2, [⟨event (some (call s).finish.1), s, (call s).finish.2⟩]⟩ := by
        simp [Run.guarded, Call.finishUnless_never]
      rw [ended call event, ended call' event']
      exact ⟨by simp [told, List.filterMap_cons, same], holds, own, own'⟩

end InStep

theorem write_obeyed {write : Workspace → σ → Call σ (Except Error Workspace)}
    (obeys : Obeys view rule write) (paired : Paired view id w w' s s') :
    (write w s).finish.1.map Workspace.plain = (write w' s').finish.1.map Workspace.plain ∧
      Both (fun stored stored' => Paired view id (w.adoptVersion stored) (w'.adoptVersion stored'))
        (Paired view id w w') (write w s).finish.1 (write w' s').finish.1 (write w s).finish.2
        (write w' s').finish.2 ∧
      Local view id s (write w s).finish.2 ∧ Local view id s' (write w' s').finish.2 := by
  obtain ⟨level, alike, rfl, version, version'⟩ := paired
  have own : w'.id = w.id := by
    obtain ⟨_, rfl⟩ := plain_eq_iff.mp alike
    rfl
  have clock : view.now (write w s).finish.2 = view.now (write w' s').finish.2 :=
    (obeys.clock w s).trans (level.clock.trans (obeys.clock w' s').symm)
  refine (and_assoc.mp ⟨?_, ⟨obeys.clock w s, fun other apart => obeys.elsewhere w s other apart⟩,
    obeys.clock w' s', fun other apart => obeys.elsewhere w' s' other (own ▸ apart)⟩)
  have stored := level.stored
  -- Either both states have the resource or neither has; each write is made from the version of its own state.
  rcases there : view.content s w.id with _ | v <;> rcases there' : view.content s' w.id with _ | v'
  · obtain ⟨answer, after⟩ := obeys.missing w s there
    obtain ⟨answer', after'⟩ := obeys.missing w' s' (own ▸ there')
    rw [own] at answer' after'
    rw [answer, answer']
    exact ⟨rfl, .error ⟨⟨clock, by rw [after, after']⟩, alike, rfl, by simp [after], by simp [after']⟩⟩
  · simp [there, there'] at stored
  · simp [there, there'] at stored
  · have same : v.plain = v'.plain := by simpa [there, there'] using stored
    obtain ⟨number, answer, after⟩ := obeys.stored w s v there (version v there)
    obtain ⟨number', answer', after'⟩ := obeys.stored w' s' v' (own ▸ there') (version' v' there')
    rw [own] at after'
    rw [← same, ← alike] at answer' after'
    rw [answer, answer']
    refine ⟨rfl, .ok ⟨⟨clock, ?_⟩, alike, rfl, ?_, ?_⟩⟩
    · rw [after, after']
      split <;> rfl
    · intro u left
      rw [after] at left
      split at left <;> simp_all [Workspace.adoptVersion, Workspace.setResourceVersion]
    · intro u left
      rw [after'] at left
      split at left <;> simp_all [Workspace.adoptVersion, Workspace.setResourceVersion]

end

end Independence

end Reconciler
