import Mathlib.Data.List.Nodup
import Reconciler.Condition.Ledger

set_option autoImplicit false

namespace Reconciler

namespace Phase

theorem conditionType_process (subroutine : String) : process.conditionType subroutine = subroutine ++ "_Ready" :=
  String.append_assoc ..

theorem conditionType_inj {phase : Phase} {a b : String} (same : phase.conditionType a = phase.conditionType b) :
    a = b := by
  have letters := congrArg String.toList same
  simpa [conditionType, String.ext_iff] using letters

theorem conditionType_ne_ready (phase : Phase) (subroutine : String) :
    phase.conditionType subroutine ≠ Condition.ready := by
  intro same
  have letters := congrArg String.length same
  rw [conditionType, String.length_append, String.length_append] at letters
  have short : "_".length = 1 ∧ Condition.ready.length = 5 ∧ 5 ≤ phase.suffix.length := by
    cases phase <;> decide
  omega

theorem phase_of_conditionType {p q : Phase} {a b : String} (same : p.conditionType a = q.conditionType b) : p = q := by
  have last := congrArg (fun type => type.toList.getLast?) same
  cases p <;> cases q <;> simp [conditionType, suffix] at last ⊢

end Phase

namespace Ledger

variable {new old : Condition} {type : String} {ledger : Ledger}

def types (ledger : Ledger) : List String :=
  ledger.map (·.type)

theorem types_set (new : Condition) (ledger : Ledger) :
    (set new ledger).1.types = if new.type ∈ ledger.types then ledger.types else ledger.types ++ [new.type] := by
  induction ledger with
  | nil => rfl
  | cons old rest ih =>
      by_cases same : old.type = new.type
      · simp [set_cons_of_eq rest same, types, Condition.revise, same]
      · rw [set_cons_of_ne rest same]
        simp only [types, List.map_cons, List.mem_cons] at ih ⊢
        rw [ih]
        by_cases there : new.type ∈ rest.map (·.type)
        · simp [there]
        · simp [there, Ne.symm same]

theorem types_set_of_mem (there : new.type ∈ ledger.types) : (set new ledger).1.types = ledger.types := by
  simp [types_set, there]

theorem nodup_set (new : Condition) (distinct : ledger.types.Nodup) : (set new ledger).1.types.Nodup := by
  rw [types_set]
  split
  · exact distinct
  · rename_i absent
    exact List.nodup_append.mpr ⟨distinct, by simp, by
      rintro type member _ last
      obtain rfl := List.mem_singleton.mp last
      rintro rfl
      exact absent member⟩

theorem find?_set (new : Condition) (ledger : Ledger) (type : String) :
    (set new ledger).1.find? type =
      if new.type = type then some (((ledger.find? type).map (·.revise new)).getD new) else ledger.find? type := by
  induction ledger with
  | nil => by_cases same : new.type = type <;> simp [find?, same]
  | cons old rest ih =>
      by_cases same : old.type = new.type
      · by_cases here : new.type = type
        · simp [set_cons_of_eq rest same, find?, Condition.revise, same, here]
        · simp [set_cons_of_eq rest same, find?, Condition.revise, same, here]
      · rw [set_cons_of_ne rest same]
        by_cases here : old.type = type
        · have other : new.type ≠ type := fun there => same (here.trans there.symm)
          simp [find?, here, other]
        · simpa [find?, here] using ih

theorem isSome_find? : (ledger.find? type).isSome ↔ type ∈ ledger.types := by
  simp [find?, types, List.find?_isSome]

theorem find?_of_mem {entry : Condition} (distinct : ledger.types.Nodup) (member : entry ∈ ledger) :
    ledger.find? entry.type = some entry := by
  induction ledger with
  | nil => simp at member
  | cons first rest ih =>
      obtain ⟨apart, distinct⟩ := List.nodup_cons.mp distinct
      rcases List.mem_cons.mp member with rfl | later
      · simp [find?]
      · have other : first.type ≠ entry.type := fun same =>
          apart (List.mem_map.mpr ⟨entry, later, same.symm⟩)
        simpa [find?, other] using ih distinct later

def Shows (ledger : Ledger) (type : String) (status : ConditionStatus) (reason message : String) : Prop :=
  ∃ entry, ledger.find? type = some entry ∧ entry.status = status ∧ entry.reason = reason ∧ entry.message = message

theorem shows_set (new : Condition) (ledger : Ledger) :
    (set new ledger).1.Shows new.type new.status new.reason new.message := by
  simp only [Shows, find?_set, ↓reduceIte, Option.some.injEq, exists_eq_left']
  rcases ledger.find? new.type with _ | old <;> exact ⟨rfl, rfl, rfl⟩

theorem Shows.set {status : ConditionStatus} {reason message : String} (shows : ledger.Shows type status reason message)
    (other : new.type ≠ type) : (Ledger.set new ledger).1.Shows type status reason message := by
  obtain ⟨entry, found, shows⟩ := shows
  exact ⟨entry, by simpa [find?_set, other] using found, shows⟩

theorem type_of_find? (found : ledger.find? type = some old) : old.type = type := by
  simpa using List.find?_some found

theorem set_eq_self (found : ledger.find? new.type = some old) (same : old.revise new = old) :
    (set new ledger).1 = ledger := by
  induction ledger with
  | nil => simp [find?] at found
  | cons first rest ih =>
      by_cases here : first.type = new.type
      · obtain rfl : first = old := by simpa [find?, here] using found
        rw [set_cons_of_eq rest here, same]
      · rw [set_cons_of_ne rest here, ih (by simpa [find?, here] using found)]

def restamp (now : Timestamp) (type : String) : Ledger → Ledger
  | [] => []
  | old :: rest =>
      if old.type = type then { old with lastTransition := now } :: rest else old :: restamp now type rest

theorem find?_restamp_of_ne (now : Timestamp) {other : String} (apart : type ≠ other) :
    (restamp now type ledger).find? other = ledger.find? other := by
  induction ledger with
  | nil => rfl
  | cons first rest ih =>
      by_cases same : first.type = type
      · have elsewhere : first.type ≠ other := same ▸ apart
        simp [restamp, find?, same, apart]
      · rw [restamp, if_neg same]
        by_cases here : first.type = other
        · simp [find?, here]
        · simpa [find?, here] using ih

theorem restamp_eq_self (found : ledger.find? type = some old) : restamp old.lastTransition type ledger = ledger := by
  induction ledger with
  | nil => rfl
  | cons first rest ih =>
      by_cases same : first.type = type
      · obtain rfl : first = old := by simpa [find?, same] using found
        rw [restamp, if_pos same]
      · rw [restamp, if_neg same, ih (by simpa [find?, same] using found)]

end Ledger

end Reconciler
