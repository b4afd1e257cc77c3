import Reconciler.Proofs.Chronicle.Basic
import Reconciler.Store.Versioned

set_option autoImplicit false

namespace Reconciler

namespace Chronicle

def Numbered (l : Chronicle) : Prop :=
  ∀ past d rest, l = past ++ d :: rest → ∀ w, d.written = some w →
    w.metadata.resourceVersion = some (toString (past.length + 1))

theorem Numbered.past {l more : Chronicle} (numbered : Numbered (l ++ more)) : Numbered l := by
  intro past d rest split
  exact numbered past d (rest ++ more) (by simp [split])

theorem numbered_snoc {l : Chronicle} {d : Deed} (numbered : Numbered l)
    (last : ∀ w, d.written = some w → w.metadata.resourceVersion = some (toString (l.length + 1))) :
    Numbered (l ++ [d]) := by
  intro past e rest split
  rcases split_snoc split with ⟨rfl, rfl⟩ | ⟨front, whole⟩
  · exact last
  · exact numbered past e front whole

theorem toString_inj {m n : Nat} (h : toString m = toString n) : m = n := by
  have digits := congrArg String.toList h
  simp only [Nat.toString_eq_ofList_toDigits, String.toList_ofList] at digits
  simpa using congrArg (Nat.ofDigitChars 10 · 0) digits

theorem Numbered.fresh {l : Chronicle} (numbered : Numbered l) : Fresh l := by
  induction l using List.reverseRecOn with
  | nil => simp [Fresh]
  | append_singleton past d ih =>
      rcases wrote : d.written with _ | w
      · simpa [Fresh, wrote] using ih numbered.past
      · have last := numbered past d [] rfl w wrote
        simp only [Fresh, List.filterMap_append, List.map_append, List.filterMap_cons, wrote, List.filterMap_nil,
          List.map_cons, List.map_nil, last]
        refine List.nodup_append.mpr ⟨ih numbered.past, by simp, fun version older other newer => ?_⟩
        obtain ⟨v, written, rfl⟩ := List.mem_map.mp older
        obtain ⟨e, member, wrote'⟩ := List.mem_filterMap.mp written
        obtain ⟨before, after, rfl⟩ := List.append_of_mem member
        have number := numbered before e (after ++ [d]) (by simp) v wrote'
        obtain rfl := List.mem_singleton.mp newer
        rw [number]
        intro same
        have equal := toString_inj (Option.some.inj same)
        simp at equal

end Chronicle

inductive Edit where
  | condemn (time : Timestamp)
  | retarget (target : String)

def Edit.apply : Edit → Workspace → Workspace
  | condemn time, w => { w with metadata := { w.metadata with deletionTimestamp := some time } }
  | retarget target, w => { w with spec := { w.spec with target := target } }

structure Shelf (id : ResourceId) where
  chronicle : Chronicle := []
  linked : chronicle.Linked := by simp [Chronicle.Linked]
  numbered : chronicle.Numbered := by simp [Chronicle.Numbered]
  named : ∀ w, chronicle.stored = some w → w.id = id := by simp
  now : Timestamp := .epoch
  others : List (Option Edit) := []

namespace Shelf

variable {id : ResourceId}

def stored (shelf : Shelf id) : Option Workspace :=
  shelf.chronicle.stored

def versioned (shelf : Shelf id) : Versioned :=
  { name := "shelf", objects := (shelf.stored.map (id, ·)).toList, revision := shelf.chronicle.length }

def put (shelf : Shelf id) (own leaves : Bool) (w : Workspace) : Shelf id :=
  if named : w.id = id then
    let written := w.setResourceVersion (some shelf.versioned.nextVersion)
    { shelf with
      chronicle := shelf.chronicle ++ [⟨own, shelf.stored, some written, leaves⟩]
      linked := Chronicle.linked_snoc shelf.linked rfl
      numbered := Chronicle.numbered_snoc shelf.numbered (by rintro _ ⟨⟩; rfl)
      named := by
        intro v stored
        have left := Deed.written_of_left (by simpa using stored)
        cases left
        exact named }
  else shelf

def interrupt (shelf : Shelf id) : Shelf id :=
  match shelf.others with
  | [] => shelf
  | other :: rest =>
      match other, shelf.stored with
      | some edit, some w => { shelf with others := rest }.put false false (edit.apply w)
      | _, _ => { shelf with others := rest }

def apply (shelf : Shelf id) : Except Error Workspace × Versioned → Call (Shelf id) (Except Error Workspace)
  | (.ok written, next) => .done (.ok written) (shelf.put true (next.get? id).isNone written)
  | (.error error, _) => .done (.error error) shelf

def soonest : Fin Spread.windowMinutes := ⟨0, by decide⟩

def world (id : ResourceId) : World (Shelf id) where
  get other shelf := .done (.ok (shelf.interrupt.versioned.get? other)) shelf.interrupt
  update given shelf := shelf.interrupt.apply (shelf.interrupt.versioned.update given)
  updateStatus given shelf := shelf.interrupt.apply (shelf.interrupt.versioned.updateStatus given)
  now shelf := shelf.now
  draw shelf := (soonest, shelf)
  cancelled _ := false
  correlate shelf := ("", shelf)
  capture _ _ shelf := ([], shelf)

def worker (name : String) (finalizers : List Finalizer.Token) (process finalize : Workspace → Shelf id → StepAnswer) :
    Subroutine (Shelf id) where
  name := name
  finalizers := finalizers
  process w shelf := .done (process w shelf) shelf
  finalize w shelf := .done (finalize w shelf) shelf

def site : ResourceId := ⟨"default", "web"⟩

def web : Workspace where
  metadata := { name := some "web", ns := some "default" }
  spec := { target := "web" }

def leave (w : Workspace) (_ : Shelf id) : StepAnswer :=
  { workspace := w, result := .ok .done }

def nextDay : Timestamp := ⟨1, 0, 0, by decide⟩

def stocked (w : Workspace) (others : List (Option Edit)) (now : Timestamp) : Shelf site :=
  { ({} : Shelf site).put false false w with others := others, now := now }

def rules : Rules where
  others d := ∃ edit stored version, d.found = some stored ∧ d.leaves = false ∧
    d.written = some ((Edit.apply edit stored).setResourceVersion version)
  update given answer d := ∃ (store : Versioned) (stored : Workspace), d.found = some stored ∧
    stored.metadata.resourceVersion = given.metadata.resourceVersion ∧
    answer = some (.ok (store.revised stored given)) ∧ d.written = some (store.revised stored given) ∧
    d.leaves = (stored.isBeingDeleted && given.finalizers.isEmpty)
  updateStatus given answer d := ∃ (store : Versioned) (stored : Workspace), d.found = some stored ∧
    stored.metadata.resourceVersion = given.metadata.resourceVersion ∧
    answer = some (.ok (store.restated stored given)) ∧ d.written = some (store.restated stored given) ∧
    d.leaves = false

theorem get?_versioned (shelf : Shelf id) (other : ResourceId) :
    shelf.versioned.get? other = if other = id then shelf.stored else none := by
  unfold Versioned.get? versioned
  by_cases same : other = id
  · rcases shelf.stored with _ | w <;> simp [same]
  · rcases shelf.stored with _ | w <;> simp [same, List.lookup_cons, beq_false_of_ne same]

theorem writable_versioned {shelf : Shelf id} {given stored : Workspace}
    (h : shelf.versioned.writable given = .ok stored) :
    given.id = id ∧ shelf.stored = some stored ∧
      stored.metadata.resourceVersion = given.metadata.resourceVersion := by
  unfold Versioned.writable at h
  rw [get?_versioned] at h
  by_cases same : given.id = id
  · rw [if_pos same] at h
    split at h
    · simp at h
    · rename_i found there
      split at h
      · obtain rfl := Except.ok.inj h
        exact ⟨same, there, by assumption⟩
      · simp at h
  · rw [if_neg same] at h
    simp at h

theorem chronicle_put (shelf : Shelf id) (own leaves : Bool) {w : Workspace} (named : w.id = id) :
    (shelf.put own leaves w).chronicle =
      shelf.chronicle ++
        [⟨own, shelf.stored, some (w.setResourceVersion (some shelf.versioned.nextVersion)), leaves⟩] := by
  unfold put
  rw [dif_pos named]

theorem drifts_interrupt (shelf : Shelf id) :
    Chronicle.Drifts rules.others shelf.chronicle shelf.interrupt.chronicle := by
  unfold interrupt
  split
  · exact .refl _ _
  · split
    · rename_i edit w there _
      have named : (edit.apply w).id = id := by
        cases edit <;> exact shelf.named w there
      rw [chronicle_put _ _ _ named]
      refine ⟨[_], rfl, fun d member => ?_⟩
      obtain rfl := List.mem_singleton.mp member
      exact ⟨rfl, edit, w, _, there, rfl, rfl⟩
    · exact .refl _ _

theorem writes_update {others : Deed → Prop} {shelf shelf' : Shelf id} {given : Workspace}
    {answer : Option (Except Error Workspace)}
    (ends : (shelf.apply (shelf.versioned.update given)).Ends answer shelf') :
    Chronicle.Writes others (rules.update given answer) answer shelf.chronicle shelf'.chronicle := by
  unfold Versioned.update at ends
  rcases found : shelf.versioned.writable given with error | stored
  · simp only [found, apply] at ends
    obtain ⟨rfl, rfl⟩ := Call.ends_done ends
    exact .idle (.refl _ _) (by simp)
  · obtain ⟨same, there, version⟩ := writable_versioned found
    simp only [found, apply] at ends
    obtain ⟨rfl, rfl⟩ := Call.ends_done ends
    have named : (shelf.versioned.revised stored given).id = id := shelf.named stored there
    rw [chronicle_put _ _ _ named]
    refine .done shelf.chronicle _ (.refl _ _) rfl ?_ ?_ (.refl _ _)
    · refine ⟨shelf.versioned, stored, there, version, rfl, rfl, ?_⟩
      have kept : (shelf.versioned.revised stored given).isBeingDeleted = stored.isBeingDeleted := rfl
      have tokens : (shelf.versioned.revised stored given).finalizers = given.finalizers := rfl
      rw [kept, tokens, same]
      by_cases gone : (stored.isBeingDeleted && given.finalizers.isEmpty) = true
      · rw [if_pos gone, gone]
        simp [Versioned.get?_remove]
      · rw [if_neg gone, Versioned.get?_put, if_pos rfl]
        simpa using gone
    · rintro _ ⟨⟩
      rfl

theorem writes_updateStatus {others : Deed → Prop} {shelf shelf' : Shelf id} {given : Workspace}
    {answer : Option (Except Error Workspace)}
    (ends : (shelf.apply (shelf.versioned.updateStatus given)).Ends answer shelf') :
    Chronicle.Writes others (rules.updateStatus given answer) answer shelf.chronicle shelf'.chronicle := by
  unfold Versioned.updateStatus at ends
  rcases found : shelf.versioned.writable given with error | stored
  · simp only [found, apply] at ends
    obtain ⟨rfl, rfl⟩ := Call.ends_done ends
    exact .idle (.refl _ _) (by simp)
  · obtain ⟨same, there, version⟩ := writable_versioned found
    simp only [found, apply] at ends
    obtain ⟨rfl, rfl⟩ := Call.ends_done ends
    have named : (shelf.versioned.restated stored given).id = id := shelf.named stored there
    rw [chronicle_put _ _ _ named]
    refine .done shelf.chronicle _ (.refl _ _) rfl ?_ ?_ (.refl _ _)
    · refine ⟨shelf.versioned, stored, there, version, rfl, rfl, ?_⟩
      simp [same, Versioned.get?_put]
    · rintro _ ⟨⟩
      rfl

theorem recorded (m : Manager (Shelf id))
    (idle : ∀ sub ∈ m.subroutines, ∀ phase w s answer s', (sub.step phase w s).Ends answer s' →
      Chronicle.Drifts rules.others s.chronicle s'.chronicle) :
    Recorded m (world id) id Shelf.chronicle rules where
  linked shelf := shelf.linked
  get := by
    intro s answer s' ends
    obtain ⟨rfl, rfl⟩ := Call.ends_done ends
    refine ⟨⟨s.interrupt.chronicle, drifts_interrupt s, .refl _ _, ?_⟩, ?_⟩
    · rintro found ⟨⟩
      simp [get?_versioned, stored]
    · intro w found
      simp [get?_versioned] at found
      exact s.interrupt.named w found
  update := by
    intro given s answer s' ends _
    exact (drifts_interrupt s).writes (writes_update ends)
  updateStatus := by
    intro given s answer s' ends _
    exact (drifts_interrupt s).writes (writes_updateStatus ends)
  elsewhere := by
    intro given s answer s' apart ends
    have missing : s.interrupt.versioned.get? given.id = none := by
      rw [get?_versioned, if_neg apart]
    have nothing : s' = s.interrupt := by
      simp only [world, apply, Versioned.update, Versioned.updateStatus, Versioned.writable, missing] at ends
      rcases ends with ends | ends <;> exact (Call.ends_done ends).2
    rw [nothing]
    exact drifts_interrupt s
  step sub member phase w s answer s' ends := idle sub member phase w s answer s' ends
  draw s := .refl _ _
  correlate s := .refl _ _
  capture error tags s := .refl _ _

def desertedWorld (id : ResourceId) : World (Shelf id) where
  get other shelf := .done (.ok (shelf.versioned.get? other)) shelf
  update given shelf := shelf.apply (shelf.versioned.update given)
  updateStatus given shelf := shelf.apply (shelf.versioned.updateStatus given)
  now shelf := shelf.now
  draw shelf := (soonest, shelf)
  cancelled _ := false
  correlate shelf := ("", shelf)
  capture _ _ shelf := ([], shelf)

theorem recorded_deserted (m : Manager (Shelf id))
    (idle : ∀ sub ∈ m.subroutines, ∀ phase w s answer s', (sub.step phase w s).Ends answer s' → s' = s) :
    Recorded m (desertedWorld id) id Shelf.chronicle { rules with others := fun _ => False } where
  linked shelf := shelf.linked
  get := by
    intro s answer s' ends
    obtain ⟨rfl, rfl⟩ := Call.ends_done ends
    refine ⟨⟨s'.chronicle, .refl _ _, .refl _ _, ?_⟩, ?_⟩
    · rintro found ⟨⟩
      simp [get?_versioned, stored]
    · intro w found
      simp [get?_versioned] at found
      exact s'.named w found
  update ends _ := writes_update ends
  updateStatus ends _ := writes_updateStatus ends
  elsewhere := by
    intro given s answer s' apart ends
    have missing : s.versioned.get? given.id = none := by
      rw [get?_versioned, if_neg apart]
    have nothing : s' = s := by
      simp only [desertedWorld, apply, Versioned.update, Versioned.updateStatus, Versioned.writable, missing] at ends
      rcases ends with ends | ends <;> exact (Call.ends_done ends).2
    rw [nothing]
    exact .refl _ _
  step := by
    intro sub member phase w s answer s' ends
    rw [idle sub member phase w s answer s' ends]
    exact .refl _ _
  draw s := .refl _ _
  correlate s := .refl _ _
  capture error tags s := .refl _ _

theorem answer_of_worker {name : String} {finalizers : List Finalizer.Token}
    {process finalize : Workspace → Shelf id → StepAnswer} {phase : Phase} {w : Workspace} {s s' : Shelf id}
    {answer : Option StepAnswer} (ends : ((worker name finalizers process finalize).step phase w s).Ends answer s') :
    s' = s ∧ (answer = some (process w s) ∨ answer = some (finalize w s)) := by
  cases phase with
  | process =>
      obtain ⟨rfl, rfl⟩ := Call.ends_done ends
      exact ⟨rfl, .inl rfl⟩
  | finalize =>
      obtain ⟨rfl, rfl⟩ := Call.ends_done ends
      exact ⟨rfl, .inr rfl⟩

end Shelf

end Reconciler
