import Reconciler.Proofs.Encoding.Status

set_option autoImplicit false

namespace Reconciler

open Json

theorem bind_eq_some {α β : Type} {x : Option α} {f : α → Option β} {b : β} :
    (x >>= f) = some b ↔ ∃ a, x = some a ∧ f a = some b :=
  Option.bind_eq_some_iff

namespace Workspace

theorem ofJson?_object_iff (members : List (String × Json)) (w : Workspace) :
    ofJson? (.object members) = some w ↔
      eachOnce ["metadata", "spec", "status"] members = true ∧
        required "metadata" Metadata.ofJson? members = some w.metadata ∧
        required "spec" Spec.ofJson? members = some w.spec ∧
        optional "status" Status.ofJson? members = some w.status := by
  obtain ⟨metadata, spec, status⟩ := w
  simp only [ofJson?, Option.bind_eq_bind, Option.bind_eq_some_iff, Option.ite_none_right_eq_some, Option.pure_def,
    Option.some.injEq, Workspace.mk.injEq]
  constructor
  · rintro ⟨each, _, read, _, told, _, shown, rfl, rfl, rfl⟩
    exact ⟨each, read, told, shown⟩
  · rintro ⟨each, read, told, shown⟩
    exact ⟨each, _, read, _, told, _, shown, rfl, rfl, rfl⟩

end Workspace

namespace Metadata

theorem ofJson?_object_iff (members : List (String × Json)) (metadata : Metadata) :
    ofJson? (.object members) = some metadata ↔
      Json.optional "annotations" labels? members = some metadata.annotations ∧
        Json.optional "creationTimestamp" timestamp? members = some metadata.creationTimestamp ∧
        Json.optional "deletionGracePeriodSeconds" int64? members = some metadata.deletionGracePeriodSeconds ∧
        Json.optional "deletionTimestamp" timestamp? members = some metadata.deletionTimestamp ∧
        Json.optional "finalizers" (listOf? string?) members = some metadata.finalizers ∧
        Json.optional "generateName" string? members = some metadata.generateName ∧
        Json.optional "generation" int64? members = some metadata.generation ∧
        Json.optional "labels" labels? members = some metadata.labels ∧
        Json.optional "managedFields" (listOf? ManagedFields.ofJson?) members = some metadata.managedFields ∧
        Json.optional "name" string? members = some metadata.name ∧
        Json.optional "namespace" string? members = some metadata.ns ∧
        Json.optional "ownerReferences" (listOf? OwnerReference.ofJson?) members = some metadata.ownerReferences ∧
        Json.optional "resourceVersion" string? members = some metadata.resourceVersion ∧
        Json.optional "selfLink" string? members = some metadata.selfLink ∧
        Json.optional "uid" string? members = some metadata.uid := by
  constructor
  · intro reads
    rw [ofJson?] at reads
    -- From outside in, so that what follows a member is gone through only once.
    simp only [↓bind_eq_some, Option.pure_def, Option.some.injEq] at reads
    obtain ⟨_, annotations, _, creation, _, grace, _, deletion, _, finalizers, _, generate, _, generation, _, labels,
      _, managed, _, name, _, ns, _, owners, _, version, _, link, _, uid, rfl⟩ := reads
    exact ⟨annotations, creation, grace, deletion, finalizers, generate, generation, labels, managed, name, ns, owners,
      version, link, uid⟩
  · rintro ⟨annotations, creation, grace, deletion, finalizers, generate, generation, labels, managed, name, ns, owners,
      version, link, uid⟩
    rw [ofJson?, annotations, creation, grace, deletion, finalizers, generate, generation, labels, managed, name, ns,
      owners, version, link, uid]
    rfl

end Metadata

namespace Labels

variable {key value : String} {front back entries : List (String × String)}

theorem insertEntry_last (above : ∀ entry ∈ entries, entry.1 < key) :
    insertEntry key value entries = entries ++ [(key, value)] := by
  induction entries with
  | nil => rfl
  | cons head rest ih =>
      obtain ⟨first, text⟩ := head
      have less : first < key := above _ List.mem_cons_self
      have other : key ≠ first := fun same => String.lt_irrefl key (same ▸ less)
      have later : ¬key < first := fun more => String.lt_irrefl key (String.lt_trans more less)
      rw [insertEntry, if_neg later, if_neg other, ih fun entry member => above entry (List.mem_cons_of_mem _ member)]
      rfl

theorem foldl_insert (sorted : (front ++ back).Pairwise fun a b => a.1 < b.1) :
    back.foldl (fun (labels : Labels) (key, value) => labels.insert key value)
      ⟨front, (List.pairwise_append.mp sorted).1⟩ = ⟨front ++ back, sorted⟩ := by
  -- The entries come in order, so that each goes to the end of those before it.
  induction back generalizing front with
  | nil => simp
  | cons head back ih =>
      obtain ⟨key, value⟩ := head
      have above : ∀ entry ∈ front, entry.1 < key := fun entry member =>
        (List.pairwise_append.mp sorted).2.2 entry member _ List.mem_cons_self
      have moved : (front ++ [(key, value)] ++ back).Pairwise fun a b => a.1 < b.1 := by simpa using sorted
      have step : (⟨front, (List.pairwise_append.mp sorted).1⟩ : Labels).insert key value =
          ⟨front ++ [(key, value)], (List.pairwise_append.mp moved).1⟩ := by
        simp [insert, insertEntry_last above]
      exact (congrArg (List.foldl _ · back) step).trans ((ih moved).trans (by simp))

theorem ofList_entries (labels : Labels) : ofList labels.entries = labels :=
  @foldl_insert [] labels.entries labels.sorted

theorem labels?_toJson (labels : Labels) : labels? labels.toJson = some labels := by
  have read (entries : List (String × String)) : (entries.map fun entry => (entry.1, Json.string entry.2)).mapM
      (fun member => member.2.string?.map (member.1, ·)) = some entries := by
    rw [List.mapM_map]
    exact (List.mapM_pure (f := id)).trans (by simp)
  exact Option.bind_eq_some_iff.mpr ⟨_, read labels.entries, congrArg some labels.ofList_entries⟩

theorem isEmpty_iff (labels : Labels) : labels.isEmpty = true ↔ labels = empty := by
  obtain ⟨entries, sorted⟩ := labels
  simp [isEmpty, empty]

end Labels

namespace Json

variable {name : String} {members : List (String × Json)}

theorem optional_string {value : Option String} (there : lookup name members = value.map .string) :
    optional name string? members = some value :=
  optional_eq there (fun _ => Json.noConfusion) fun _ => rfl

theorem optional_int64 {value : Option Int64} (there : lookup name members = value.map .ofInt64) :
    optional name int64? members = some value :=
  optional_eq there (fun _ => Json.noConfusion) int64?_ofInt64

theorem optional_labels {value : Option Labels} (there : lookup name members = value.map (·.toJson)) :
    optional name labels? members = some value :=
  optional_eq there (fun _ => Json.noConfusion) Labels.labels?_toJson

theorem optional_wholeSeconds {value : Option Timestamp} (there : lookup name members = value.map .ofWholeSeconds) :
    optional name timestamp? members = some (value.map .cut) :=
  optional_map there (fun _ => Json.noConfusion) fun t => by
    rw [ofWholeSeconds, t.renderSeconds_eq, Timestamp.timestamp?_render]

theorem listOf?_ofStrings (texts : List String) : listOf? string? (ofStrings texts) = some texts := by
  have read (text : String) : string? (.string text) = some text := rfl
  exact listOf?_array read texts

theorem optional_some {value : Option Json} (there : lookup name members = value) :
    optional name some members = some (value.filter (· ≠ .null)) := by
  rw [optional, there]
  cases value with
  | none => rfl
  | some j => cases j <;> rfl

end Json

theorem OwnerReference.ofJson?_toJson (o : OwnerReference) : ofJson? o.toJson = some o := by
  obtain ⟨apiVersion, kind, name, uid, _ | controller, _ | block⟩ := o <;>
    simp [ofJson?, toJson, ofMembers, Json.optional, lookup_cons, string?, bool?]

def ManagedFields.cut (m : ManagedFields) : ManagedFields :=
  { m with fields := m.fields.filter (· ≠ .null), time := m.time.map .cut }

def ManagedFields.members (m : ManagedFields) : List (String × Option Json) := [
  ("apiVersion", m.apiVersion.map .string),
  ("fieldsType", m.fieldsType.map .string),
  ("fieldsV1", m.fields),
  ("manager", m.manager.map .string),
  ("operation", m.operation.map .string),
  ("subresource", m.subresource.map .string),
  ("time", m.time.map .ofWholeSeconds)]

theorem ManagedFields.lookup_members (m : ManagedFields) {name : String} {value : Option Json}
    (member : (name, value) ∈ m.members) : lookup name (present m.members) = value :=
  lookup_present (by simp [members]) member

theorem ManagedFields.ofJson?_toJson (m : ManagedFields) : ofJson? m.toJson = some m.cut := by
  have apiVersion : Json.optional "apiVersion" string? (present m.members) = some m.apiVersion :=
    optional_string (m.lookup_members (by simp [members]))
  have fieldsType : Json.optional "fieldsType" string? (present m.members) = some m.fieldsType :=
    optional_string (m.lookup_members (by simp [members]))
  have fields : Json.optional "fieldsV1" some (present m.members) = some (m.fields.filter (· ≠ .null)) :=
    optional_some (m.lookup_members (by simp [members]))
  have manager : Json.optional "manager" string? (present m.members) = some m.manager :=
    optional_string (m.lookup_members (by simp [members]))
  have operation : Json.optional "operation" string? (present m.members) = some m.operation :=
    optional_string (m.lookup_members (by simp [members]))
  have subresource : Json.optional "subresource" string? (present m.members) = some m.subresource :=
    optional_string (m.lookup_members (by simp [members]))
  have time : Json.optional "time" timestamp? (present m.members) = some (m.time.map .cut) :=
    optional_wholeSeconds (m.lookup_members (by simp [members]))
  show ofJson? (.object (present m.members)) = some m.cut
  rw [ofJson?, apiVersion, fieldsType, fields, manager, operation, subresource, time]
  rfl

namespace Metadata

def cut (metadata : Metadata) : Metadata :=
  { metadata with
    creationTimestamp := metadata.creationTimestamp.map .cut
    deletionTimestamp := metadata.deletionTimestamp.map .cut
    managedFields := metadata.managedFields.map (·.map .cut) }

def members (metadata : Metadata) : List (String × Option Json) := [
  ("annotations", metadata.annotations.map (·.toJson)),
  ("creationTimestamp", metadata.creationTimestamp.map .ofWholeSeconds),
  ("deletionGracePeriodSeconds", metadata.deletionGracePeriodSeconds.map .ofInt64),
  ("deletionTimestamp", metadata.deletionTimestamp.map .ofWholeSeconds),
  ("finalizers", metadata.finalizers.map .ofStrings),
  ("generateName", metadata.generateName.map .string),
  ("generation", metadata.generation.map .ofInt64),
  ("labels", metadata.labels.map (·.toJson)),
  ("managedFields", metadata.managedFields.map fun l => .array (l.map (·.toJson))),
  ("name", metadata.name.map .string),
  ("namespace", metadata.ns.map .string),
  ("ownerReferences", metadata.ownerReferences.map fun l => .array (l.map (·.toJson))),
  ("resourceVersion", metadata.resourceVersion.map .string),
  ("selfLink", metadata.selfLink.map .string),
  ("uid", metadata.uid.map .string)]

theorem lookup_members (metadata : Metadata) {name : String} {value : Option Json}
    (member : (name, value) ∈ metadata.members) : lookup name (present metadata.members) = value :=
  lookup_present (by simp [members]) member

theorem ofJson?_toJson (metadata : Metadata) : ofJson? metadata.toJson = some metadata.cut := by
  have found {name : String} {value : Option Json} (member : (name, value) ∈ metadata.members) :=
    metadata.lookup_members member
  refine (ofJson?_object_iff (present metadata.members) metadata.cut).mpr ⟨?annotations, ?creation, ?grace, ?deletion,
    ?finalizers, ?generate, ?generation, ?labels, ?managed, ?name, ?ns, ?owners, ?version, ?link, ?uid⟩
  case annotations | labels => exact optional_labels (found (by simp [members, cut]))
  case creation | deletion => exact optional_wholeSeconds (found (by simp [members]))
  case grace | generation => exact optional_int64 (found (by simp [members, cut]))
  case finalizers =>
    exact optional_eq (found (by simp [members, cut])) (fun _ => Json.noConfusion) listOf?_ofStrings
  case managed =>
    exact optional_map (found (by simp [members])) (fun _ => Json.noConfusion)
      (listOf?_map ManagedFields.ofJson?_toJson)
  case owners =>
    exact optional_eq (found (by simp [members, cut])) (fun _ => Json.noConfusion)
      (listOf?_array OwnerReference.ofJson?_toJson)
  all_goals exact optional_string (found (by simp [members, cut]))

end Metadata

namespace Workspace

def Spec.members (s : Spec) : List (String × Option Json) := [
  ("namespace", some (.string s.target)),
  ("labels", if s.labels.isEmpty then none else some s.labels.toJson)]

theorem Spec.members_nodup (s : Spec) : (s.members.map Prod.fst).Nodup := by
  simp [members]

theorem Spec.lookup_labels (s : Spec) :
    lookup "labels" (present s.members) = if s.labels.isEmpty then none else some s.labels.toJson :=
  lookup_present s.members_nodup (by simp [members])

theorem Spec.ofJson?_toJson (s : Spec) : Spec.ofJson? s.toJson = some s := by
  have each : eachOnce ["namespace", "labels"] (present s.members) = true := eachOnce_present s.members_nodup
  have target : required "namespace" string? (present s.members) = some s.target := by
    rw [required, lookup_present s.members_nodup (List.mem_cons_self ..)]
    rfl
  have labels : defaulted "labels" .empty labels? (present s.members) = some s.labels := by
    rw [defaulted, s.lookup_labels]
    by_cases empty : s.labels.isEmpty = true
    · rw [if_pos empty]
      exact congrArg some (s.labels.isEmpty_iff.mp empty).symm
    · rw [if_neg empty]
      exact Labels.labels?_toJson s.labels
  show Spec.ofJson? (.object (present s.members)) = some s
  simp [Spec.ofJson?, record?, each, target, labels]

def members (w : Workspace) : List (String × Option Json) := [
  ("apiVersion", some (.string apiVersion)),
  ("kind", some (.string kind)),
  ("metadata", some w.metadata.toJson),
  ("spec", some w.spec.toJson),
  ("status", w.status.map (·.toJson))]

theorem members_nodup (w : Workspace) : (w.members.map Prod.fst).Nodup := by
  simp [members]

theorem lookup_status (w : Workspace) : lookup "status" (present w.members) = w.status.map Status.toJson :=
  lookup_present w.members_nodup (by simp [members])

theorem ofJson?_toJson (w : Workspace) : ofJson? w.toJson = some { w with metadata := w.metadata.cut } := by
  have metadata : lookup "metadata" (present w.members) = some w.metadata.toJson :=
    lookup_present w.members_nodup (by simp [members])
  have spec : lookup "spec" (present w.members) = some w.spec.toJson :=
    lookup_present w.members_nodup (by simp [members])
  refine (ofJson?_object_iff (present w.members) _).mpr ⟨eachOnce_present w.members_nodup, ?_, ?_, ?_⟩
  · rw [required, metadata, Option.bind_some, Metadata.ofJson?_toJson]
  · rw [required, spec, Option.bind_some, Spec.ofJson?_toJson]
  · exact optional_eq w.lookup_status (fun _ => Json.noConfusion) Status.ofJson?_toJson

end Workspace

end Reconciler
