import Reconciler.Api.Workspaces
import Reconciler.Proofs.Encoding.Workspaces
import Reconciler.Proofs.MergePatch

set_option autoImplicit false

namespace Reconciler

open Json

variable {σ : Type}

namespace Metadata

theorem version_of_ofJson? {members : List (String × Json)} {metadata : Metadata}
    (reads : ofJson? (.object members) = some metadata) :
    Json.optional "resourceVersion" string? members = some metadata.resourceVersion := by
  rw [ofJson?_object_iff] at reads
  simp only [reads]

theorem ofJson?_restamped {members members' : List (String × Json)} {metadata : Metadata} {version : String}
    (reads : ofJson? (.object members) = some metadata)
    (same : ∀ name, name ≠ "resourceVersion" → lookup name members' = lookup name members)
    (stamped : lookup "resourceVersion" members' = some (.string version)) :
    ofJson? (.object members') = some { metadata with resourceVersion := some version } := by
  have kept {α : Type} (name : String) (read : Json → Option α) (other : name ≠ "resourceVersion") :
      Json.optional name read members' = Json.optional name read members := by
    unfold Json.optional
    rw [same name other]
  have renewed : Json.optional "resourceVersion" string? members' = some (some version) := by
    unfold Json.optional
    rw [stamped]
    rfl
  rw [ofJson?_object_iff] at reads ⊢
  simp (disch := decide) only [kept, renewed, reads, and_self]

end Metadata

namespace StatusPatch

open Http Api Api.Workspaces Workspace

def version? (j : Json) : Option String :=
  ((j.member? "metadata").bind (member? "resourceVersion")).bind string?

def restamped (version : String) (j : Json) : Json :=
  mergePatch j (.object [("metadata", .object [("resourceVersion", .string version)])])

-- What the server keeps at a target, where it merges patches of the stored version and refuses all others.
structure Serves (send : Transport σ) (target : Target) (stored : σ → Json) : Prop where
  merges : ∀ s patch, version? patch = version? (stored s) → ∃ version,
    stored (send ⟨.patch, target, some ⟨mergePatchType, patch⟩⟩ s).finish.2 =
      restamped version (mergePatch (stored s) patch)
  refuses : ∀ s patch, version? patch ≠ version? (stored s) →
    stored (send ⟨.patch, target, some ⟨mergePatchType, patch⟩⟩ s).finish.2 = stored s

def merged (old : Option Status) : Option Status → Option Status
  | none => none
  | some given =>
      let old := old.getD {}
      some {
        provided := given.provided.or old.provided
        conditions := if given.conditions.isEmpty then old.conditions else given.conditions
        observedGeneration := given.observedGeneration.or old.observedGeneration
        nextReconcile := given.nextReconcile.or old.nextReconcile }

structure Covers (old given : Status) : Prop where
  provided : given.provided = none → old.provided = none
  conditions : given.conditions = [] → old.conditions = []
  observedGeneration : given.observedGeneration = none → old.observedGeneration = none
  nextReconcile : given.nextReconcile = none → old.nextReconcile = none

theorem or_eq_self_iff {α : Type} (given old : Option α) : given.or old = given ↔ (given = none → old = none) := by
  cases given <;> simp

theorem merged_some_iff (old : Option Status) (given : Status) :
    merged old (some given) = some given ↔ Covers (old.getD {}) given := by
  obtain ⟨provided, conditions, generation, next⟩ := given
  have entries : (if conditions.isEmpty then (old.getD {}).conditions else conditions) = conditions ↔
      (conditions = [] → (old.getD {}).conditions = []) := by
    cases conditions <;> simp
  simp only [merged, Option.some.injEq, Status.mk.injEq, or_eq_self_iff, entries]
  exact ⟨fun ⟨a, b, c, d⟩ => ⟨a, b, c, d⟩, fun ⟨a, b, c, d⟩ => ⟨a, b, c, d⟩⟩

theorem merged_eq_iff (old given : Option Status) :
    merged old given = given ↔ ∀ o g, old = some o → given = some g → Covers o g := by
  cases given with
  | none => simp [merged]
  | some given =>
      rw [merged_some_iff]
      cases old with
      | none => simpa using Covers.mk (fun _ => rfl) (fun _ => rfl) (fun _ => rfl) fun _ => rfl
      | some old => simp

section

variable {j : Json} {v w : Workspace} {version : String}

theorem status_members {members : List (String × Json)} {old : Option Status}
    (shaped : ∀ items, lookup "status" members ≠ some (.array items))
    (reads : optional "status" Status.ofJson? members = some old) :
    Status.ofJson? (.object ((lookup "status" members).getD .null).members) = some (old.getD {}) := by
  unfold Json.optional at reads
  split at reads
  · rename_i absent
    cases reads
    rw [absent]
    decide
  · rename_i null
    cases reads
    rw [null]
    decide
  · rename_i value _ there
    obtain ⟨status, read, rfl⟩ := Option.map_eq_some_iff.mp reads
    rw [there, Option.getD_some, Option.getD_some]
    cases value with
    | object => exact read
    -- The reader would take a list as well, which the patch replaces as a whole; the schema has no such status.
    | array items => exact absurd there (shaped items)
    | _ => simp [Status.ofJson?, record?] at read

theorem version?_statusPatch (w : Workspace) : version? (statusPatch w) = w.metadata.resourceVersion := by
  cases stamped : w.metadata.resourceVersion <;> simp [version?, statusPatch, member?, lookup_cons, stamped, string?]

theorem members_of_ofJson? (reads : Workspace.ofJson? j = some v) : ∃ members metadata,
    j = .object members ∧ lookup "metadata" members = some (.object metadata) ∧
      Metadata.ofJson? (.object metadata) = some v.metadata := by
  cases j with
  | object members =>
      obtain ⟨_, read, _, _⟩ := (Workspace.ofJson?_object_iff _ _).mp reads
      obtain ⟨j, there, read⟩ := Option.bind_eq_some_iff.mp read
      cases j with
      | object metadata => exact ⟨members, metadata, rfl, there, read⟩
      | _ => simp [Metadata.ofJson?] at read
  | _ => simp [Workspace.ofJson?] at reads

theorem bind_of_optional {α : Type} {name : String} {read : Json → Option α} {members : List (String × Json)}
    {value : Option α} (null : read .null = none) (told : Json.optional name read members = some value) :
    (lookup name members).bind read = value := by
  unfold Json.optional at told
  split at told
  · rename_i absent
    rw [absent, ← Option.some.inj told]
    rfl
  · rename_i there
    rw [there, ← Option.some.inj told]
    exact null
  · rename_i there
    obtain ⟨a, read, same⟩ := Option.map_eq_some_iff.mp told
    rw [there, ← same]
    exact read

theorem version?_of_ofJson? (reads : Workspace.ofJson? j = some v) : version? j = v.metadata.resourceVersion := by
  obtain ⟨members, metadata, rfl, there, read⟩ := members_of_ofJson? reads
  simp only [version?, member?, there, Option.bind_some]
  exact bind_of_optional rfl (Metadata.version_of_ofJson? read)

theorem ofJson?_mergePatch {old : Json} {o given : Status} (reads : Status.ofJson? (.object old.members) = some o) :
    Status.ofJson? (mergePatch old given.toJson) = merged (some o) (some given) := by
  obtain ⟨each, target, entries, observed, time⟩ := (Status.ofJson?_object_iff _ _).mp reads
  have nodup := given.fields_nodup.sublist (names_present _)
  rw [given.toJson_eq, mergePatch_object, merged, Status.ofJson?_object_iff]
  refine ⟨eachOnce_mergeMembers each,
    optional_mergeMembers nodup given.lookup_namespace (fun _ => Json.noConfusion) (fun _ _ => rfl) (fun _ => rfl)
      target, ?_,
    optional_mergeMembers nodup given.lookup_observedGeneration (fun _ => Json.noConfusion) (fun _ _ => rfl)
      int64?_ofInt64 observed,
    optional_mergeMembers nodup given.lookup_nextReconcileTime (fun _ => Json.noConfusion) (fun _ _ => rfl)
      Timestamp.timestamp?_render time⟩
  rw [defaulted, lookup_mergeMembers nodup, given.lookup_conditions]
  cases given.conditions with
  | nil => exact entries
  | cons c rest => exact listOf?_array Condition.ofJson?_toJson (c :: rest)

theorem optional_status {old given : Option Status} {stored : Option Json} {members : List (String × Json)}
    (reads : Status.ofJson? (.object (stored.getD .null).members) = some (old.getD {}))
    (there : lookup "status" members = mergeMember stored (some ((given.map (·.toJson)).getD .null))) :
    Json.optional "status" Status.ofJson? members = some (merged old given) := by
  unfold Json.optional
  rw [there]
  cases given with
  | none => rfl
  | some given =>
      have written : Status.ofJson? (mergePatch _ given.toJson) = _ := ofJson?_mergePatch reads
      have same : merged (some (old.getD {})) (some given) = merged old (some given) := rfl
      rw [Option.map_some, Option.getD_some, given.toJson_eq, mergeMember_some _ Json.noConfusion]
      rw [given.toJson_eq, mergePatch_object, same] at written
      exact congrArg (Option.map some) written

theorem lookup_patched (name : String) (members : List (String × Json)) (held status stamp : Json) :
    lookup name (mergeMembers (mergeMembers members [("metadata", held), ("status", status)]) [("metadata", stamp)]) =
      if name = "metadata" then mergeMember (mergeMember (lookup name members) (some held)) (some stamp)
      else if name = "status" then mergeMember (lookup name members) (some status)
      else lookup name members := by
  rw [lookup_mergeMembers (by simp), lookup_mergeMembers (by simp)]
  by_cases metadata : name = "metadata"
  · simp [metadata, lookup_cons]
  · by_cases other : name = "status"
    · simp [other, lookup_cons, mergeMember]
    · simp [metadata, Ne.symm metadata, other, Ne.symm other, lookup_cons, mergeMember]

theorem ofJson?_metadata {members : List (String × Json)} {metadata : Metadata} (held : Json)
    (version : String) (reads : Metadata.ofJson? (.object members) = some metadata) :
    Metadata.ofJson? (.object (mergeMembers (mergeMembers members [("resourceVersion", held)])
      [("resourceVersion", .string version)])) = some { metadata with resourceVersion := some version } := by
  refine Metadata.ofJson?_restamped reads (fun name other => ?_) ?_
  · rw [lookup_mergeMembers (by simp), lookup_mergeMembers (by simp)]
    simp [lookup_cons, Ne.symm other, mergeMember]
  · rw [lookup_mergeMembers (by simp)]
    rfl

theorem ofJson?_restamped_mergePatch (reads : Workspace.ofJson? j = some v)
    (shaped : ∀ items, j.member? "status" ≠ some (.array items)) :
    Workspace.ofJson? (restamped version (mergePatch j (statusPatch w))) = some {
      metadata := { v.metadata with resourceVersion := some version }
      spec := v.spec
      status := merged v.status w.status } := by
  obtain ⟨members, metadata, rfl, there, read⟩ := members_of_ofJson? reads
  obtain ⟨each, _, spec, status⟩ := (Workspace.ofJson?_object_iff _ _).mp reads
  rw [restamped, statusPatch, mergePatch_object, mergePatch_object, Workspace.ofJson?_object_iff]
  refine ⟨eachOnce_mergeMembers (eachOnce_mergeMembers each), ?_, ?_, ?_⟩
  · have both := ofJson?_metadata ((w.metadata.resourceVersion.map .string).getD .null) version read
    refine Option.bind_eq_some_iff.mpr ⟨_, ?_, both⟩
    rw [Json.members, lookup_patched]
    simp [there, mergeMember, mergePatch_object, Json.members]
  · rw [required, Json.members, lookup_patched]
    exact spec
  · exact optional_status (status_members shaped status) (lookup_patched ..)

end

/-- A status that is written to the stored version is merged into what is there, and spec and metadata stay as they
are, the version apart; to another version nothing is written. What is stored is what was given exactly if nothing that
the old status has is absent from it. -/
theorem updateStatus_merges (words : Wording) {send : Transport σ} {target : Target} {stored : σ → Json}
    (serves : Serves send target stored) {v w : Workspace} {s : σ}
    (addressed : (statusRequest? w).map (·.target) = some target)
    (reads : Workspace.ofJson? (stored s) = some v)
    (shaped : ∀ items, (stored s).member? "status" ≠ some (.array items)) :
    let after := stored ((store words send).updateStatus w s).finish.2
    (w.metadata.resourceVersion = v.metadata.resourceVersion → ∃ version,
      Workspace.ofJson? after = some {
        metadata := { v.metadata with resourceVersion := some version }
        spec := v.spec
        status := merged v.status w.status }) ∧
      (w.metadata.resourceVersion ≠ v.metadata.resourceVersion → after = stored s) ∧
      (merged v.status w.status = w.status ↔
        ∀ old given, v.status = some old → w.status = some given → Covers old given) := by
  intro after
  obtain ⟨request, asked, rfl⟩ := Option.map_eq_some_iff.mp addressed
  have sent : request = ⟨.patch, request.target, some ⟨mergePatchType, statusPatch w⟩⟩ := by
    unfold statusRequest? Draft.request? at asked
    split at asked
    · simp at asked
    · obtain ⟨target, _, rfl⟩ := Option.map_eq_some_iff.mp asked
      rfl
  have done : after = stored (send request s).finish.2 := by
    have made : (statusDraft w).request? = some request := asked
    show stored ((exchange words send (statusDraft w) Workspace.ofJson? s).map Workspaces.stored).finish.2 = _
    rw [exchange, made, Call.finish_map, Call.finish_map]
  rw [sent] at done
  refine ⟨fun same => ?_, fun stale => ?_, merged_eq_iff ..⟩
  · obtain ⟨version, kept⟩ := serves.merges s (statusPatch w)
      (by rw [version?_statusPatch, version?_of_ofJson? reads, same])
    exact ⟨version, by rw [done, kept, ofJson?_restamped_mergePatch reads shaped]⟩
  · rw [done]
    exact serves.refuses s (statusPatch w) (by rwa [version?_statusPatch, version?_of_ofJson? reads])

section

def register (target : Target) : Transport (Json × Nat) := fun request (kept, count) =>
  match request with
  | ⟨.patch, there, some ⟨type, patch⟩⟩ =>
      if there = target ∧ type = mergePatchType then
        if version? patch = version? kept then
          .done (.ok ⟨200, ""⟩) (restamped (toString (count + 1)) (mergePatch kept patch), count + 1)
        else .done (.ok ⟨409, ""⟩) (kept, count)
      else .done (.ok ⟨404, ""⟩) (kept, count)
  | _ => .done (.ok ⟨404, ""⟩) (kept, count)

theorem serves_register (target : Target) : Serves (register target) target Prod.fst where
  merges s patch same := ⟨toString (s.2 + 1), by simp [register, same]⟩
  refuses s patch stale := by simp [register, stale]

def terse : Wording where
  badRequest _ := .plain "failed to validate request" "Validation"
  undecodable _ _ := .plain "EOF while parsing a value" "Error"

def provision : Status where
  provided := some "web"
  observedGeneration := some 2

def provided : Workspace where
  metadata := { name := some "web", ns := some "default", resourceVersion := some "5" }
  spec := { target := "web" }
  status := some provision

def withdrawn : Workspace :=
  { provided with status := some { observedGeneration := some 3 } }

def page : Target :=
  ⟨"/apis/converge.dev/v1alpha1/namespaces/default/workspaces/web/status", []⟩

theorem updateStatus_merges_withdrawn :
    let after := ((store terse (register page)).updateStatus withdrawn (provided.toJson, 5)).finish.2.1
    (∃ version, Workspace.ofJson? after = some {
      metadata := { provided.metadata with resourceVersion := some version }
      spec := provided.spec
      status := some { provided := some "web", observedGeneration := some 3 } }) ∧
      merged provided.status withdrawn.status ≠ withdrawn.status := by
  have reads : Workspace.ofJson? provided.toJson = some provided := by decide +kernel
  have held : provided.toJson.member? "status" = some provision.toJson := by decide +kernel
  have addressed : (statusRequest? withdrawn).map (·.target) = some page := by decide +kernel
  have merges := updateStatus_merges terse (s := (provided.toJson, 5)) (serves_register page) addressed
    reads (by simp [held, Status.toJson_eq])
  exact ⟨merges.1 rfl, by decide +kernel⟩

end

end StatusPatch

end Reconciler
