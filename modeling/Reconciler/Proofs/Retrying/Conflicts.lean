import Reconciler.Proofs.LostUpdate
import Reconciler.Proofs.Retrying.Course

set_option autoImplicit false

namespace Reconciler.Retry

open LostUpdate (carries stamp)

variable {σ : Type}

-- The chronicle of the resource grows by what the calls do to it: a write takes effect only on the version that it
-- carries, and only if it does not fail. Others may come in at any time.
structure Chronicled (world : World σ) (id : ResourceId) (change : Workspace → σ → Workspace × σ)
    (chronicle : σ → Chronicle) : Prop where
  linked : ∀ s, (chronicle s).Linked
  fresh : ∀ s, (chronicle s).Fresh
  get : ∀ {s answer s'}, (world.get id s).finish = (answer, s') →
    Chronicle.Reads (fun _ => True) (some answer) (chronicle s) (chronicle s') ∧
      ∀ w, answer = .ok (some w) → w.id = id
  write : ∀ {part given s answer s'}, (write world part given s).finish = (answer, s') → given.id = id →
    Chronicle.Writes (fun _ => True) (fun d => carries given d ∧ ∃ stored, answer = .ok stored) (some answer)
      (chronicle s) (chronicle s')
  keeps : ∀ w s, stamp (change w s).1 = stamp w
  change : ∀ w s, Chronicle.Drifts (fun _ => True) (chronicle s) (chronicle (change w s).2)
  draw : ∀ s, Chronicle.Drifts (fun _ => True) (chronicle s) (chronicle (world.draw s).2)
  sleep : ∀ length s, Chronicle.Drifts (fun _ => True) (chronicle s) (chronicle (world.sleep length s))

namespace Attempt

def read? : Attempt → Option (Option Workspace)
  | unreadable _ => none
  | missing => some none
  | written read _ _ _ => some (some read)

-- What it does to the resource: a write that succeeds replaces what was read by what is answered,
-- and nothing else has an effect.
def Effect : Attempt → List Deed → Prop
  | written read _ (.ok stored) _, deeds => ∃ d, deeds = [d] ∧ d.found = some read ∧ d.written = some stored
  | _, deeds => deeds = []

theorem effect_of_conflicts {attempt : Attempt} {deeds : List Deed} (conflict : attempt.conflicts = true)
    (effect : attempt.Effect deeds) : deeds = [] := by
  rcases attempt with _ | _ | ⟨_, _, _ | _, _⟩
  · exact effect
  · exact effect
  · exact effect
  · simp [conflicts] at conflict

end Attempt

section

variable {r : Retry} {world : World σ} {id : ResourceId} {part : Part} {change : Workspace → σ → Workspace × σ}
variable {chronicle : σ → Chronicle} {attempt : Attempt} {wait : Wait} {left : Nat} {delay : Duration} {s s' : σ}
variable {visits : List (Visit σ)} {result : Except Error (Option Workspace)}

theorem found_of_carries {seen past : Chronicle} {d : Deed} {read given : Workspace} (fresh : past.Fresh)
    (grown : seen <+: past) (there : seen.stored = some read) (found : d.found = past.stored)
    (same : given.metadata.resourceVersion = read.metadata.resourceVersion) (carried : carries given d) :
    d.found = some read := by
  obtain ⟨more, rfl⟩ := grown
  obtain ⟨stored, replaced, version⟩ := carried
  obtain ⟨e, member, wrote⟩ := Chronicle.written_of_stored there
  rw [replaced, (fresh.eq_of_version member wrote (found.symm.trans replaced) (version.trans same)).2]

theorem Calls.effect (chronicled : Chronicled world id change chronicle)
    (calls : Calls world id part change attempt s s') :
    chronicle s <+: chronicle s' ∧ attempt.Effect (Chronicle.own (chronicle s) (chronicle s')) ∧
      ∀ found, attempt.read? = some found →
        ∃ seen : Chronicle, chronicle s <+: seen ∧ seen <+: chronicle s' ∧ found = seen.stored := by
  cases calls with
  | unreadable read =>
      have drifts := (chronicled.get read).1.drifts
      exact ⟨drifts.grows, drifts.own, by simp [Attempt.read?]⟩
  | missing read =>
      obtain ⟨seen, early, late, answered⟩ := (chronicled.get read).1
      refine ⟨(early.trans late).grows, (early.trans late).own, ?_⟩
      rintro found ⟨⟩
      exact ⟨seen, early.grows, late.grows, answered none rfl⟩
  | @written _ found s₁ given s₂ answer _ _ read changed wrote =>
      obtain ⟨⟨seen, early, late, answered⟩, identity⟩ := chronicled.get read
      have there : seen.stored = some found := (answered (some found) rfl).symm
      obtain ⟨version, same⟩ := Prod.mk.inj (chronicled.keeps found s₁)
      have meantime := chronicled.change found s₁
      rw [changed] at version same meantime
      have waited := late.trans meantime
      have writes := chronicled.write wrote (same.trans (identity found rfl))
      have grown : chronicle s <+: chronicle s' := (early.trans waited).grows.trans writes.grows
      refine ⟨grown, ?_, ?_⟩
      · rw [Chronicle.own_trans (early.trans waited).grows writes.grows, (early.trans waited).own, List.nil_append]
        cases writes with
        | idle drifts refused =>
            rcases answer with error | stored
            · exact drifts.own
            · exact absurd rfl (refused stored)
        | done past d soon mine effect written after =>
            obtain ⟨carried, stored, rfl⟩ := effect
            obtain ⟨more, whole, _⟩ := after
            have linked : (past ++ [d] ++ more).Linked := whole ▸ chronicled.linked s'
            have fresh : (past ++ [d] ++ more).Fresh := whole ▸ chronicled.fresh s'
            -- No version is given twice, so that whatever others did since the read, this version is what was read.
            exact ⟨d, Chronicle.own_done soon mine ⟨more, whole, ‹_›⟩,
              found_of_carries fresh.past.past (waited.trans soon).grows there linked.past.found version carried,
              written stored rfl⟩
      · rintro _ ⟨⟩
        exact ⟨seen, early.grows, waited.grows.trans writes.grows, there.symm⟩

theorem Pauses.drifts (chronicled : Chronicled world id change chronicle) (pauses : Pauses world wait s s') :
    Chronicle.Drifts (fun _ => True) (chronicle s) (chronicle s') := by
  rw [pauses.2]
  exact (chronicled.draw s).trans (chronicled.sleep ..)

theorem Tries.effect (chronicled : Chronicled world id change chronicle)
    (tries : Tries r world id part change left delay s visits result s') :
    chronicle s <+: chronicle s' ∧
      ∀ last, visits.getLast? = some last →
        Chronicle.own (chronicle s) (chronicle s') = Chronicle.own (chronicle last.before) (chronicle last.after) := by
  induction tries with
  | last calls _ _ =>
      refine ⟨(calls.effect chronicled).1, ?_⟩
      rintro last ⟨⟩
      rfl
  | again calls conflict _ _ pauses tries ih =>
      obtain ⟨grows, effect, _⟩ := calls.effect chronicled
      have drifts := pauses.drifts chronicled
      refine ⟨(grows.trans drifts.grows).trans ih.1, fun last there => ?_⟩
      rw [List.getLast?_cons_of_ne_nil (List.ne_nil_of_length_pos tries.length_pos)] at there
      rw [Chronicle.own_trans grows (drifts.grows.trans ih.1), Chronicle.own_trans drifts.grows ih.1, drifts.own,
        Attempt.effect_of_conflicts conflict effect, ih.2 last there]
      rfl

end

section

variable {r : Retry} {world : World σ} {id : ResourceId} {part : Part} {change : Workspace → σ → Workspace × σ}
variable {left : Nat} {delay : Duration} {s s' : σ} {visits : List (Visit σ)}
variable {result : Except Error (Option Workspace)}

end

section

open Reconciler.Shelf

def audited (w : Workspace) (shelf : Shelf site) : Workspace × Shelf site :=
  (w.setFinalizers ["audit"], shelf)

def overtaken : Shelf site :=
  stocked web [none, some (.retarget "shop")] .epoch

end

end Reconciler.Retry
