import Reconciler.Proofs.Course.Trace
import Reconciler.Proofs.Ledger

set_option autoImplicit false

namespace Reconciler

open Reconcile

variable {σ : Type}

namespace Converged

def kind (sub : Subroutine σ) : String :=
  Phase.process.conditionType sub.name

def complete (sub : Subroutine σ) (time : Timestamp) : Condition :=
  ⟨kind sub, .true, Ledger.completeReason, "The subroutine is complete", time⟩

def ready (time : Timestamp) : Condition :=
  ⟨Condition.ready, .true, Ledger.completeReason, "The resource is ready", time⟩

structure Settled (subs : List (Subroutine σ)) (time : Timestamp) (ledger : Ledger) : Prop where
  ready : ∃ since, ledger.find? Condition.ready = some (ready since)
  complete : ∀ sub ∈ subs, ledger.find? (kind sub) = some (complete sub time)

def turn (now : Timestamp) (ledger : Ledger) (sub : Subroutine σ) : Ledger :=
  (Ledger.complete now sub.name .process (Ledger.processing now sub.name .process ledger).1).1

def turned (now : Timestamp) (subs : List (Subroutine σ)) (ledger : Ledger) : Ledger :=
  subs.foldl (turn now) ledger

def final (now : Timestamp) (subs : List (Subroutine σ)) (ledger : Ledger) : Ledger :=
  (Ledger.setReady now .true (turned now subs (Ledger.setUnknownIfAbsent now ledger).1)).1

def restamped (now : Timestamp) (subs : List (Subroutine σ)) (ledger : Ledger) : Ledger :=
  subs.foldl (fun ledger sub => ledger.restamp now (kind sub)) ledger

section

variable {now time : Timestamp} {sub : Subroutine σ} {subs : List (Subroutine σ)} {ledger : Ledger} {type : String}

theorem kind_ne_ready (sub : Subroutine σ) : kind sub ≠ Condition.ready :=
  Phase.conditionType_ne_ready .process sub.name

theorem find?_turn (now : Timestamp) (sub : Subroutine σ) (ledger : Ledger) :
    (turn now ledger sub).find? (kind sub) = some (complete sub now) := by
  simp only [turn, Ledger.complete, Ledger.processing, Ledger.setSubroutine, Ledger.find?_set, kind]
  rcases found : ledger.find? (Phase.process.conditionType sub.name) with _ | old
  · rfl
  · have type := Ledger.type_of_find? found
    simp [Condition.revise, complete, kind, type, Phase.noun]

theorem find?_turn_of_ne (apart : kind sub ≠ type) : (turn now ledger sub).find? type = ledger.find? type := by
  have other : Phase.process.conditionType sub.name ≠ type := apart
  simp [turn, Ledger.complete, Ledger.processing, Ledger.setSubroutine, Ledger.find?_set, other]

theorem turn_eq_restamp (found : ledger.find? (kind sub) = some (complete sub time)) :
    turn now ledger sub = ledger.restamp now (kind sub) := by
  induction ledger with
  | nil => simp [Ledger.find?] at found
  | cons first rest ih =>
      by_cases same : first.type = kind sub
      · -- It is processing for the while of the turn, which has changed its status and with that its time.
        obtain rfl : first = complete sub time := by simpa [Ledger.find?, same] using found
        rw [Ledger.restamp, if_pos same]
        simp [turn, Ledger.complete, Ledger.processing, Ledger.setSubroutine, Ledger.set, complete, kind,
          Condition.revise, Phase.noun]
      · have other : first.type ≠ Phase.process.conditionType sub.name := same
        rw [Ledger.restamp, if_neg same, ← ih (by simpa [Ledger.find?, same] using found)]
        simp [turn, Ledger.complete, Ledger.processing, Ledger.setSubroutine, Ledger.set, other]

theorem find?_foldl {change : Ledger → Subroutine σ → Ledger}
    (own : ∀ ledger sub, kind sub ≠ type → (change ledger sub).find? type = ledger.find? type)
    (apart : ∀ sub ∈ subs, kind sub ≠ type) (ledger : Ledger) :
    (subs.foldl change ledger).find? type = ledger.find? type := by
  induction subs generalizing ledger with
  | nil => rfl
  | cons sub rest ih =>
      rw [List.foldl_cons, ih fun other member => apart other (List.mem_cons_of_mem _ member)]
      exact own ledger sub (apart sub List.mem_cons_self)

theorem kind_apart {first : Subroutine σ} {rest : List (Subroutine σ)} (names : ((first :: rest).map (·.name)).Nodup) :
    ∀ sub ∈ rest, kind first ≠ kind sub := by
  intro sub member same
  have again : first.name ∈ rest.map (·.name) := List.mem_map.mpr ⟨sub, member, (Phase.conditionType_inj same).symm⟩
  exact (List.nodup_cons.mp names).1 again

theorem find?_turned (names : (subs.map (·.name)).Nodup) (member : sub ∈ subs) (ledger : Ledger) :
    (turned now subs ledger).find? (kind sub) = some (complete sub now) := by
  induction subs generalizing ledger with
  | nil => simp at member
  | cons first rest ih =>
      rcases List.mem_cons.mp member with rfl | later
      · have apart : ∀ other ∈ rest, kind other ≠ kind sub := fun other among => (kind_apart names other among).symm
        rw [turned, List.foldl_cons, find?_foldl (fun _ _ => find?_turn_of_ne) apart, find?_turn]
      · exact ih names.of_cons later _

theorem turned_eq_restamped (names : (subs.map (·.name)).Nodup)
    (found : ∀ sub ∈ subs, ledger.find? (kind sub) = some (complete sub time)) :
    turned now subs ledger = restamped now subs ledger := by
  induction subs generalizing ledger with
  | nil => rfl
  | cons first rest ih =>
      rw [turned, restamped, List.foldl_cons, List.foldl_cons, turn_eq_restamp (found first List.mem_cons_self)]
      refine ih names.of_cons fun sub member => ?_
      rw [Ledger.find?_restamp_of_ne now (kind_apart names sub member)]
      exact found sub (List.mem_cons_of_mem _ member)

theorem settled_final (now : Timestamp) (names : (subs.map (·.name)).Nodup) (ledger : Ledger) :
    Settled subs now (final now subs ledger) := by
  constructor
  · rw [final, Ledger.setReady, Ledger.find?_set, if_pos rfl]
    rcases found : (turned now subs (Ledger.setUnknownIfAbsent now ledger).1).find? Condition.ready with _ | old
    · exact ⟨now, rfl⟩
    · refine ⟨(old.revise (ready now)).lastTransition, ?_⟩
      simp only [Condition.revise, ready, Ledger.type_of_find? found, Ledger.readyReason, Ledger.readyMessage,
        Option.map_some, Option.getD_some]
      rfl
  · intro sub member
    have apart : Condition.ready ≠ kind sub := (kind_ne_ready sub).symm
    rw [final, Ledger.setReady, Ledger.find?_set, if_neg apart]
    exact find?_turned names member _

theorem final_of_settled (names : (subs.map (·.name)).Nodup) (settled : Settled subs time ledger) :
    final now subs ledger = restamped now subs ledger := by
  obtain ⟨since, there⟩ := settled.ready
  have present : (Ledger.setUnknownIfAbsent now ledger).1 = ledger := by simp [Ledger.setUnknownIfAbsent, there]
  have kept : (restamped now subs ledger).find? Condition.ready = some (ready since) := by
    rw [restamped, find?_foldl (fun _ _ apart => Ledger.find?_restamp_of_ne now apart) fun sub _ => kind_ne_ready sub]
    exact there
  rw [final, present, turned_eq_restamped names settled.complete]
  exact Ledger.set_eq_self kept rfl

theorem restamped_eq_self (complete : ∀ sub ∈ subs, ledger.find? (kind sub) = some (complete sub now)) :
    restamped now subs ledger = ledger := by
  induction subs with
  | nil => rfl
  | cons first rest ih =>
      rw [restamped, List.foldl_cons, show now = (Converged.complete first now).lastTransition from rfl,
        Ledger.restamp_eq_self (complete first List.mem_cons_self)]
      exact ih fun sub member => complete sub (List.mem_cons_of_mem _ member)

theorem restamped_eq_self_iff (names : (subs.map (·.name)).Nodup) (settled : Settled subs time ledger) :
    restamped now subs ledger = ledger ↔ subs = [] ∨ now = time := by
  constructor
  · intro same
    rcases subs with _ | ⟨sub, rest⟩
    · exact .inl rfl
    · have after := (settled_final now names ledger).complete sub List.mem_cons_self
      rw [final_of_settled names settled, same, settled.complete sub List.mem_cons_self] at after
      have times := congrArg (Option.map (·.lastTransition)) after
      exact .inr (Option.some.inj times).symm
  · rintro (rfl | rfl)
    · rfl
    · exact restamped_eq_self settled.complete

end

end Converged

end Reconciler
