import Reconciler.Proofs.Encoding.Texts
import Reconciler.Proofs.Encoding.Workspaces

set_option autoImplicit false

namespace Reconciler

open Json

structure Faithful {α : Type} (write : α → Json) (read : Json → Option α) : Prop where
  value : ∀ a, read (write a) = some a
  text : ∀ a, (parse? (write a).write).bind read = some a
  apart : Function.Injective fun a => (write a).write

theorem Faithful.of_plain {α : Type} {write : α → Json} {read : Json → Option α} (value : ∀ a, read (write a) = some a)
    (plain : ∀ a, (write a).isPlain = true) : Faithful write read := by
  have text (a : α) : (parse? (write a).write).bind read = some a := by
    rw [parse?_write (plain a), Option.bind_some, value]
  refine ⟨value, text, fun a b same => Option.some.inj ?_⟩
  calc
    some a = (parse? (write a).write).bind read := (text a).symm
    _ = (parse? (write b).write).bind read := congrArg (fun s => (parse? s).bind read) same
    _ = some b := text b

namespace Json

variable {items : List Json} {members : List (String × Json)} {fields : List (String × Option Json)}

theorem plainItems_iff : plainItems items = true ↔ ∀ item ∈ items, item.isPlain = true := by
  induction items with
  | nil => simp [plainItems]
  | cons item items ih => simp [plainItems, ih]

theorem plainMembers_iff : plainMembers members = true ↔ ∀ member ∈ members, member.2.isPlain = true := by
  induction members with
  | nil => simp [plainMembers]
  | cons member members ih => simp [plainMembers, ih]

theorem isPlain_array (each : ∀ item ∈ items, item.isPlain = true) : (Json.array items).isPlain = true :=
  plainItems_iff.mpr each

theorem isPlain_present (each : ∀ field ∈ fields, ∀ j ∈ field.2, j.isPlain = true) :
    (Json.object (present fields)).isPlain = true := by
  refine plainMembers_iff.mpr fun member there => ?_
  obtain ⟨⟨name, value⟩, field, shown⟩ := List.mem_filterMap.mp there
  obtain ⟨j, rfl, rfl⟩ := Option.map_eq_some_iff.mp shown
  exact each _ field j rfl

theorem isPlain_string (s : String) : (Json.string s).isPlain = true := rfl

theorem isPlain_ofInt64 (n : Int64) : (ofInt64 n).isPlain = true := by
  have least : -9223372036854775808 ≤ n.toInt := n.minValue_le_toInt
  have most : n.toInt ≤ 9223372036854775807 := n.toInt_le
  simp only [ofInt64, isPlain, isWord64, Bool.and_eq_true, decide_eq_true_eq]
  omega

theorem isPlain_ofWholeSeconds (t : Timestamp) : (ofWholeSeconds t).isPlain = true := rfl

theorem isPlain_ofStrings (texts : List String) : (ofStrings texts).isPlain = true :=
  isPlain_array (by simp [isPlain_string])

theorem isPlain_labels (labels : Labels) : labels.toJson.isPlain = true := by
  refine plainMembers_iff.mpr fun member there => ?_
  obtain ⟨entry, -, rfl⟩ := List.mem_map.mp there
  rfl

end Json

theorem Condition.isPlain_toJson (c : Condition) : c.toJson.isPlain = true := rfl

theorem OwnerReference.isPlain_toJson (o : OwnerReference) : o.toJson.isPlain = true := by
  obtain ⟨_, _, _, _, _ | _, _ | _⟩ := o <;> rfl

def ManagedFields.isPlain (m : ManagedFields) : Bool :=
  m.fields.all Json.isPlain

theorem ManagedFields.isPlain_toJson {m : ManagedFields} (plain : m.isPlain = true) : m.toJson.isPlain = true := by
  have fields (j : Json) (there : m.fields = some j) : j.isPlain = true := by simpa [isPlain, there] using plain
  exact isPlain_present (by simpa [isPlain_string, isPlain_ofWholeSeconds] using fields)

def Metadata.isPlain (metadata : Metadata) : Bool :=
  metadata.managedFields.all (·.all ManagedFields.isPlain)

theorem Metadata.isPlain_toJson {metadata : Metadata} (plain : metadata.isPlain = true) :
    metadata.toJson.isPlain = true := by
  have managed (l : List ManagedFields) (there : metadata.managedFields = some l) :
      (Json.array (l.map (·.toJson))).isPlain = true := by
    have each : ∀ m ∈ l, m.isPlain = true := by simpa [isPlain, there] using plain
    exact isPlain_array (by simpa using fun m member => ManagedFields.isPlain_toJson (each m member))
  have owners (l : List OwnerReference) : (Json.array (l.map (·.toJson))).isPlain = true :=
    isPlain_array (by simp [OwnerReference.isPlain_toJson])
  exact isPlain_present (by
    simpa [isPlain_string, isPlain_ofInt64, isPlain_ofWholeSeconds, isPlain_ofStrings, isPlain_labels, owners]
      using managed)

namespace Workspace

theorem Spec.isPlain_toJson (s : Spec) : s.toJson.isPlain = true :=
  isPlain_present (by simp [isPlain_string, isPlain_labels])

theorem Status.isPlain_toJson (s : Status) : s.toJson.isPlain = true := by
  have conditions : (Json.array (s.conditions.map (·.toJson))).isPlain = true :=
    isPlain_array (by simp [Condition.isPlain_toJson])
  exact isPlain_present (by simp [isPlain_string, isPlain_ofInt64, conditions])

theorem isPlain_toJson {w : Workspace} (plain : w.metadata.isPlain = true) : w.toJson.isPlain = true :=
  isPlain_present (by
    simp [isPlain_string, Metadata.isPlain_toJson plain, Spec.isPlain_toJson, Status.isPlain_toJson])

def parts (w : Workspace) : Spec × Option Status := (w.spec, w.status)

theorem faithful_parts {metadata : Metadata} (plain : metadata.isPlain = true) :
    Faithful (fun parts : Spec × Option Status => toJson ⟨metadata, parts.1, parts.2⟩)
      fun j => (ofJson? j).map parts :=
  .of_plain (fun _ => by rw [ofJson?_toJson]; rfl) fun _ => isPlain_toJson plain

theorem Spec.labels_left_out (s : Spec) : s.toJson.member? "labels" = none ↔ s.labels = .empty := by
  refine (Eq.congr_left s.lookup_labels).trans ?_
  rw [← s.labels.isEmpty_iff]
  simp

structure Status.LeavesOut (s : Status) : Prop where
  target : s.toJson.member? "namespace" = none ↔ s.provided = none
  conditions : s.toJson.member? "conditions" = none ↔ s.conditions = []
  generation : s.toJson.member? "observedGeneration" = none ↔ s.observedGeneration = none
  time : s.toJson.member? "nextReconcileTime" = none ↔ s.nextReconcile = none

theorem Status.leavesOut (s : Status) : s.LeavesOut where
  target := (Eq.congr_left s.lookup_namespace).trans (by simp)
  conditions := (Eq.congr_left s.lookup_conditions).trans (by simp)
  generation := (Eq.congr_left s.lookup_observedGeneration).trans (by simp)
  time := (Eq.congr_left s.lookup_nextReconcileTime).trans (by simp)

/-- Specifications and statuses are read back as they were written, alone and in a workspace, although what is absent
or empty is left out of them; only a status is there even if it is empty. -/
theorem read_back :
    Faithful Spec.toJson Spec.ofJson? ∧ Faithful Status.toJson Status.ofJson? ∧
      (∀ metadata : Metadata, metadata.isPlain = true →
        Faithful (fun parts : Spec × Option Status => toJson ⟨metadata, parts.1, parts.2⟩)
          fun j => (ofJson? j).map parts) ∧
      (∀ w : Workspace, ofJson? w.toJson = some { w with metadata := w.metadata.cut }) ∧
      (∀ w : Workspace, w.toJson.member? "status" = w.status.map Status.toJson) ∧
      (∀ s : Spec, s.toJson.member? "labels" = none ↔ s.labels = .empty) ∧ ∀ s : Status, s.LeavesOut :=
  ⟨.of_plain Spec.ofJson?_toJson Spec.isPlain_toJson, .of_plain Status.ofJson?_toJson Status.isPlain_toJson,
    fun _ => faithful_parts, ofJson?_toJson, lookup_status, Spec.labels_left_out, Status.leavesOut⟩

def bygone : Status where
  observedGeneration := some Int64.minValue
  nextReconcile := some ⟨-900000, 86399, 1500000000, by decide⟩

theorem read_back_bygone : ({} : Metadata).isPlain = true ∧
    ((parse? (toJson ⟨{}, ⟨"team", .empty⟩, some bygone⟩).write).bind fun j => (ofJson? j).map parts) =
      some (⟨"team", .empty⟩, some bygone) :=
  ⟨rfl, (read_back.2.2.1 {} rfl).text (⟨"team", .empty⟩, some bygone)⟩

end Workspace

end Reconciler
