import Reconciler.Proofs.Encoding.Times
import Reconciler.Workspace.Decode
import Reconciler.Workspace.Encode

set_option autoImplicit false

namespace Reconciler

namespace Json

section

variable {α : Type} {name : String} {names : List String} {read : Json → Option α} {write : α → Json}
variable {fields : List (String × Option Json)} {members : List (String × Json)} {value : Option Json}

theorem lookup_cons (key : String) (j : Json) (rest : List (String × Json)) :
    lookup name ((key, j) :: rest) = (lookup name rest).or (if key = name then some j else none) := by
  cases there : lookup name rest <;> simp [lookup, there]

theorem lookup_eq_none (absent : name ∉ members.map Prod.fst) : lookup name members = none := by
  induction members with
  | nil => rfl
  | cons head rest ih =>
      obtain ⟨key, j⟩ := head
      simp only [List.map_cons, List.mem_cons, not_or] at absent
      rw [lookup_cons, ih absent.2, if_neg (Ne.symm absent.1)]
      rfl

def present (fields : List (String × Option Json)) : List (String × Json) :=
  fields.filterMap fun (name, value) => value.map (name, ·)

theorem names_present (fields : List (String × Option Json)) :
    ((present fields).map Prod.fst).Sublist (fields.map Prod.fst) := by
  unfold present
  induction fields with
  | nil => simp
  | cons head rest ih =>
      obtain ⟨key, _ | j⟩ := head
      · simpa using ih.trans (List.sublist_cons_self ..)
      · simpa using ih

theorem eachOnce_of_nodup (nodup : (members.map Prod.fst).Nodup) : eachOnce names members = true := by
  simpa [eachOnce] using fun name _ => List.nodup_iff_count.mp nodup name

theorem lookup_present (nodup : (fields.map Prod.fst).Nodup) (member : (name, value) ∈ fields) :
    lookup name (present fields) = value := by
  induction fields with
  | nil => simp at member
  | cons head rest ih =>
      obtain ⟨key, j⟩ := head
      obtain ⟨fresh, later⟩ := List.nodup_cons.mp nodup
      rcases List.mem_cons.mp member with same | there
      · obtain ⟨rfl, rfl⟩ := Prod.mk.inj same
        have absent := lookup_eq_none fun again => fresh ((names_present rest).subset again)
        cases value with
        | none => exact absent
        | some j =>
            show lookup name ((name, j) :: present rest) = some j
            rw [lookup_cons, absent, if_pos rfl]
            rfl
      · have other : key ≠ name := by
          rintro rfl
          exact fresh (List.mem_map.mpr ⟨_, there, rfl⟩)
        cases j with
        | none => exact ih later there
        | some j =>
            show lookup name ((key, j) :: present rest) = value
            rw [lookup_cons, ih later there, if_neg other, Option.or_none]

theorem eachOnce_present (nodup : (fields.map Prod.fst).Nodup) : eachOnce names (present fields) = true :=
  eachOnce_of_nodup (nodup.sublist (names_present fields))

theorem optional_map {f : α → α} {value : Option α} (there : lookup name members = value.map write)
    (shown : ∀ a, write a ≠ .null) (same : ∀ a, read (write a) = some (f a)) :
    optional name read members = some (value.map f) := by
  unfold optional
  rw [there]
  cases value with
  | none => rfl
  | some a =>
      simp only [Option.map_some]
      split
      · contradiction
      · rename_i null
        exact absurd (Option.some.inj null) (shown a)
      · rename_i read
        rw [← Option.some.inj read, same a]
        rfl

theorem optional_eq {value : Option α} (there : lookup name members = value.map write)
    (shown : ∀ a, write a ≠ .null) (same : ∀ a, read (write a) = some a) : optional name read members = some value := by
  have kept := optional_map there shown same
  rwa [Option.map_id'] at kept

theorem listOf?_map {f : α → α} (same : ∀ a, read (write a) = some (f a)) (l : List α) :
    listOf? read (.array (l.map write)) = some (l.map f) := by
  rw [listOf?, List.mapM_map]
  have pointwise : read ∘ write = fun a => pure (f a) := funext same
  rw [pointwise, List.mapM_pure]
  rfl

theorem listOf?_array (same : ∀ a, read (write a) = some a) (l : List α) :
    listOf? read (.array (l.map write)) = some l := by
  have kept := listOf?_map same l
  rwa [List.map_id'] at kept

theorem int64?_ofInt64 (n : Int64) : int64? (ofInt64 n) = some n := by
  rw [ofInt64, int64?, if_pos ⟨n.minValue_le_toInt, n.toInt_le⟩, Int64.ofInt_toInt]

end

end Json

open Json

theorem Timestamp.timestamp?_render (t : Timestamp) : timestamp? (.string t.render) = some t :=
  t.parse?_render

theorem ConditionStatus.ofJson?_text (status : ConditionStatus) :
    ConditionStatus.ofJson? (.string status.text) = some status :=
  ConditionStatus.ofText?_text status

theorem Condition.ofJson?_toJson (c : Condition) : Condition.ofJson? c.toJson = some c := by
  have each : eachOnce ["type", "status", "reason", "message", "lastTransitionTime"]
      [("type", .string c.type), ("status", .string c.status.text), ("reason", .string c.reason),
        ("message", .string c.message), ("lastTransitionTime", .string c.lastTransition.render)] = true :=
    eachOnce_of_nodup (by simp)
  simp [Condition.ofJson?, Condition.toJson, record?, each, required, lookup_cons, string?,
    ConditionStatus.ofJson?_text, Timestamp.timestamp?_render]

namespace Workspace

theorem Status.ofJson?_object_iff (members : List (String × Json)) (s : Status) :
    Status.ofJson? (.object members) = some s ↔
      eachOnce ["namespace", "conditions", "observedGeneration", "nextReconcileTime"] members = true ∧
        optional "namespace" string? members = some s.provided ∧
        defaulted "conditions" [] (listOf? Condition.ofJson?) members = some s.conditions ∧
        optional "observedGeneration" int64? members = some s.observedGeneration ∧
        optional "nextReconcileTime" timestamp? members = some s.nextReconcile := by
  obtain ⟨provided, conditions, generation, next⟩ := s
  simp only [Status.ofJson?, record?, Option.bind_eq_bind, Option.bind_eq_some_iff, Option.ite_none_right_eq_some,
    Option.pure_def, Option.some.injEq, Workspace.Status.mk.injEq]
  constructor
  · rintro ⟨_, ⟨each, rfl⟩, _, target, _, entries, _, observed, _, time, rfl, rfl, rfl, rfl⟩
    exact ⟨each, target, entries, observed, time⟩
  · rintro ⟨each, target, entries, observed, time⟩
    exact ⟨_, ⟨each, rfl⟩, _, target, _, entries, _, observed, _, time, rfl, rfl, rfl, rfl⟩

def Status.fields (s : Status) : List (String × Option Json) := [
  ("namespace", s.provided.map .string),
  ("conditions", if s.conditions.isEmpty then none else some (.array (s.conditions.map (·.toJson)))),
  ("observedGeneration", s.observedGeneration.map .ofInt64),
  ("nextReconcileTime", s.nextReconcile.map (.string ·.render))]

theorem Status.fields_nodup (s : Status) : (s.fields.map Prod.fst).Nodup := by
  simp [Status.fields]

theorem Status.toJson_eq (s : Status) : s.toJson = .object (present s.fields) := rfl

section

variable (s : Status)

theorem Status.lookup_namespace : lookup "namespace" (present s.fields) = s.provided.map .string :=
  lookup_present s.fields_nodup (by simp [Status.fields])

theorem Status.lookup_conditions : lookup "conditions" (present s.fields) =
    if s.conditions.isEmpty then none else some (.array (s.conditions.map (·.toJson))) :=
  lookup_present s.fields_nodup (by simp [Status.fields])

theorem Status.lookup_observedGeneration :
    lookup "observedGeneration" (present s.fields) = s.observedGeneration.map .ofInt64 :=
  lookup_present s.fields_nodup (by simp [Status.fields])

theorem Status.lookup_nextReconcileTime :
    lookup "nextReconcileTime" (present s.fields) = s.nextReconcile.map (.string ·.render) :=
  lookup_present s.fields_nodup (by simp [Status.fields])

theorem Status.ofJson?_toJson : Status.ofJson? s.toJson = some s := by
  rw [s.toJson_eq, Status.ofJson?_object_iff]
  refine ⟨eachOnce_present s.fields_nodup, optional_eq s.lookup_namespace (fun _ => Json.noConfusion) fun _ => rfl, ?_,
    optional_eq s.lookup_observedGeneration (fun _ => Json.noConfusion) int64?_ofInt64,
    optional_eq s.lookup_nextReconcileTime (fun _ => Json.noConfusion) Timestamp.timestamp?_render⟩
  rw [defaulted, s.lookup_conditions]
  cases empty : s.conditions with
  | nil => rfl
  | cons c rest => exact listOf?_array Condition.ofJson?_toJson (c :: rest)

end

end Workspace

end Reconciler
