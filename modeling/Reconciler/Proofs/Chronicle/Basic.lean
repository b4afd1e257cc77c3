import Reconciler.Proofs.Split
import Reconciler.Reconcile.Basic

set_option autoImplicit false

namespace Reconciler

-- What was done to one stored resource, by the reconciles in question or by others.
structure Deed where
  own : Bool
  found : Option Workspace
  written : Option Workspace
  leaves : Bool := false
  deriving DecidableEq, Repr

namespace Deed

def left (d : Deed) : Option Workspace :=
  if d.leaves then none else d.written

theorem written_of_left {d : Deed} {w : Workspace} (h : d.left = some w) : d.written = some w := by
  unfold left at h
  split at h
  · simp at h
  · exact h

end Deed

abbrev Chronicle := List Deed

namespace Chronicle

def stored (l : Chronicle) : Option Workspace :=
  l.getLast?.bind Deed.left

def Linked (l : Chronicle) : Prop :=
  ∀ past d rest, l = past ++ d :: rest → d.found = stored past

-- No two deeds wrote the same version.
def Fresh (l : Chronicle) : Prop :=
  ((l.filterMap Deed.written).map (·.metadata.resourceVersion)).Nodup

def own (a b : Chronicle) : List Deed :=
  (b.drop a.length).filter (·.own)

@[simp] theorem stored_nil : stored [] = none := rfl

@[simp] theorem stored_snoc (l : Chronicle) (d : Deed) : stored (l ++ [d]) = d.left := by
  simp [stored]

theorem Linked.past {l more : Chronicle} (linked : Linked (l ++ more)) : Linked l := by
  intro past d rest split
  exact linked past d (rest ++ more) (by simp [split])

theorem Linked.found {l rest : Chronicle} {d : Deed} (linked : Linked (l ++ d :: rest)) : d.found = stored l :=
  linked l d rest rfl

theorem linked_snoc {l : Chronicle} {d : Deed} (linked : Linked l) (found : d.found = stored l) :
    Linked (l ++ [d]) := by
  intro past e rest split
  rcases split_snoc split with ⟨rfl, rfl⟩ | ⟨front, whole⟩
  · exact found
  · exact linked past e front whole

theorem stored_append (kept : Option Workspace → Prop) {l more : Chronicle} (linked : Linked (l ++ more))
    (first : kept (stored l)) (each : ∀ d ∈ more, kept d.found → kept d.left) : kept (stored (l ++ more)) := by
  induction more using List.reverseRecOn with
  | nil => simpa using first
  | append_singleton more d ih =>
      rw [← List.append_assoc] at linked ⊢
      have before := ih linked.past fun e member => each e (by simp [member])
      rw [← linked.found] at before
      rw [stored_snoc]
      exact each d (by simp) before

theorem written_of_stored {l : Chronicle} {w : Workspace} (h : stored l = some w) :
    ∃ d ∈ l, d.written = some w := by
  rcases l.eq_nil_or_concat with rfl | ⟨past, d, rfl⟩
  · simp at h
  · rw [List.concat_eq_append, stored_snoc] at h
    exact ⟨d, by simp, Deed.written_of_left h⟩

theorem Fresh.past {l more : Chronicle} (fresh : Fresh (l ++ more)) : Fresh l := by
  simp only [Fresh, List.filterMap_append, List.map_append] at fresh
  exact (List.nodup_append.mp fresh).1

theorem Fresh.not_mem {past : Chronicle} {d last : Deed} {w v : Workspace} (fresh : Fresh (past ++ [last]))
    (older : d.written = some w) (newer : last.written = some v)
    (same : v.metadata.resourceVersion = w.metadata.resourceVersion) : d ∉ past := by
  intro earlier
  simp only [Fresh, List.filterMap_append, List.map_append, List.filterMap_cons, newer, List.filterMap_nil] at fresh
  have there : w ∈ past.filterMap Deed.written := List.mem_filterMap.mpr ⟨d, earlier, older⟩
  exact (List.nodup_append.mp fresh).2.2 _ (List.mem_map_of_mem there) _ (by simp) same.symm

theorem Fresh.eq_of_version {l more : Chronicle} (fresh : Fresh (l ++ more)) {d : Deed} {w v : Workspace}
    (member : d ∈ l) (written : d.written = some w) (last : stored (l ++ more) = some v)
    (same : v.metadata.resourceVersion = w.metadata.resourceVersion) : more = [] ∧ v = w := by
  rcases more.eq_nil_or_concat with rfl | ⟨front, e, rfl⟩
  · refine ⟨rfl, ?_⟩
    rw [List.append_nil] at fresh last
    rcases l.eq_nil_or_concat with rfl | ⟨front, e, rfl⟩
    · simp at member
    · rw [List.concat_eq_append] at fresh last member
      rw [stored_snoc] at last
      rcases List.mem_append.mp member with earlier | final
      · exact absurd earlier (fresh.not_mem written (Deed.written_of_left last) same)
      · obtain rfl : d = e := by simpa using final
        have both := (Deed.written_of_left last).symm.trans written
        simpa using both
  · rw [List.concat_eq_append, ← List.append_assoc] at fresh last
    rw [stored_snoc] at last
    exact absurd (List.mem_append_left front member) (fresh.not_mem written (Deed.written_of_left last) same)

def Drifts (others : Deed → Prop) (a b : Chronicle) : Prop :=
  ∃ more, b = a ++ more ∧ ∀ d ∈ more, d.own = false ∧ others d

-- A read gives what was stored at some moment while it lasted.
def Reads (others : Deed → Prop) (answer : Option (Except Error (Option Workspace))) (a b : Chronicle) : Prop :=
  ∃ seen, Drifts others a seen ∧ Drifts others seen b ∧ ∀ found, answer = some (.ok found) → found = stored seen

inductive Writes (others effect : Deed → Prop) (answer : Option (Except Error Workspace)) (a b : Chronicle) : Prop where
  | idle : Drifts others a b → (∀ stored, answer ≠ some (.ok stored)) → Writes others effect answer a b
  | done (past : Chronicle) (d : Deed) :
      Drifts others a past → d.own = true → effect d →
      (∀ stored, answer = some (.ok stored) → d.written = some stored) →
      Drifts others (past ++ [d]) b → Writes others effect answer a b

variable {others effect : Deed → Prop} {a b c : Chronicle} {answer : Option (Except Error Workspace)}

theorem Drifts.refl (others : Deed → Prop) (a : Chronicle) : Drifts others a a :=
  ⟨[], by simp, by simp⟩

theorem Drifts.trans (first : Drifts others a b) (second : Drifts others b c) : Drifts others a c := by
  obtain ⟨more, rfl, foreign⟩ := first
  obtain ⟨further, rfl, alien⟩ := second
  refine ⟨more ++ further, by simp, fun d member => ?_⟩
  rcases List.mem_append.mp member with early | late
  · exact foreign d early
  · exact alien d late

theorem Drifts.linked (drifts : Drifts others a b) (linked : Linked b) : Linked a := by
  obtain ⟨more, rfl, _⟩ := drifts
  exact linked.past

theorem Drifts.mono {others' : Deed → Prop} (drifts : Drifts others a b) (weaker : ∀ d, others d → others' d) :
    Drifts others' a b := by
  obtain ⟨more, rfl, foreign⟩ := drifts
  exact ⟨more, rfl, fun d member => ⟨(foreign d member).1, weaker d (foreign d member).2⟩⟩

theorem Reads.mono {found : Option (Except Error (Option Workspace))} {others' : Deed → Prop}
    (reads : Reads others found a b) (weaker : ∀ d, others d → others' d) : Reads others' found a b := by
  obtain ⟨seen, early, late, answered⟩ := reads
  exact ⟨seen, early.mono weaker, late.mono weaker, answered⟩

theorem Writes.mono {others' effect' : Deed → Prop} (writes : Writes others effect answer a b)
    (weaker : ∀ d, others d → others' d) (looser : ∀ d, effect d → effect' d) :
    Writes others' effect' answer a b := by
  cases writes with
  | idle drifts refused => exact .idle (drifts.mono weaker) refused
  | done past d early own effect written late =>
      exact .done past d (early.mono weaker) own (looser d effect) written (late.mono weaker)

theorem Drifts.writes (drifts : Drifts others a b) (writes : Writes others effect answer b c) :
    Writes others effect answer a c := by
  cases writes with
  | idle further refused => exact .idle (drifts.trans further) refused
  | done past d early own effect written late => exact .done past d (drifts.trans early) own effect written late

theorem Drifts.stored (drifts : Drifts others a b) (kept : Option Workspace → Prop) (linked : Linked b)
    (each : ∀ d, others d → kept d.found → kept d.left) (first : kept (stored a)) : kept (Chronicle.stored b) := by
  obtain ⟨more, rfl, foreign⟩ := drifts
  exact stored_append kept linked first fun d member => each d (foreign d member).2

theorem Drifts.grows (drifts : Drifts others a b) : a <+: b := by
  obtain ⟨more, rfl, _⟩ := drifts
  exact List.prefix_append a more

theorem Writes.grows (writes : Writes others effect answer a b) : a <+: b := by
  cases writes with
  | idle drifts _ => exact drifts.grows
  | done past d early _ _ _ late => exact (early.grows.trans (List.prefix_append past [d])).trans late.grows

theorem Drifts.eq (drifts : Drifts others a b) (nobody : ∀ d, ¬others d) : b = a := by
  obtain ⟨more, rfl, foreign⟩ := drifts
  have none : more = [] := List.eq_nil_iff_forall_not_mem.mpr fun d member => nobody d (foreign d member).2
  rw [none, List.append_nil]

theorem Writes.alone (writes : Writes others effect answer a b) (nobody : ∀ d, ¬others d) :
    (b = a ∧ ∀ stored, answer ≠ some (.ok stored)) ∨
      ∃ d, b = a ++ [d] ∧ effect d ∧ ∀ stored, answer = some (.ok stored) → d.written = some stored := by
  cases writes with
  | idle drifts refused => exact .inl ⟨drifts.eq nobody, refused⟩
  | done past d early _ effective written late =>
      exact .inr ⟨d, by rw [late.eq nobody, early.eq nobody], effective, written⟩

theorem own_append (a more : Chronicle) : own a (a ++ more) = more.filter (·.own) := by
  simp [own]

theorem own_trans (first : a <+: b) (second : b <+: c) : own a c = own a b ++ own b c := by
  obtain ⟨more, rfl⟩ := first
  obtain ⟨further, rfl⟩ := second
  rw [own_append, own_append, List.append_assoc, own_append, List.filter_append]

theorem Drifts.own (drifts : Drifts others a b) : own a b = [] := by
  obtain ⟨more, rfl, foreign⟩ := drifts
  simpa [Chronicle.own] using fun d member => (foreign d member).1

theorem Reads.drifts {found : Option (Except Error (Option Workspace))} (reads : Reads others found a b) :
    Drifts others a b := by
  obtain ⟨_, early, late, _⟩ := reads
  exact early.trans late

theorem own_done {past : Chronicle} {d : Deed} (early : Drifts others a past) (mine : d.own = true)
    (late : Drifts others (past ++ [d]) b) : own a b = [d] := by
  obtain ⟨before, rfl, foreign⟩ := early
  obtain ⟨after, rfl, alien⟩ := late
  have first : before.filter (·.own) = [] := by simpa using fun e member => (foreign e member).1
  have last : after.filter (·.own) = [] := by simpa using fun e member => (alien e member).1
  simp [own, List.append_assoc, first, last, mine]

end Chronicle

-- What may be done to the resource, by others and by writes with what was given and what was answered.
structure Rules where
  others : Deed → Prop
  update : Workspace → Option (Except Error Workspace) → Deed → Prop
  updateStatus : Workspace → Option (Except Error Workspace) → Deed → Prop

open Chronicle in
-- The chronicle of one resource grows by what the calls do to it, however they end.
structure Recorded {σ : Type} (m : Manager σ) (world : World σ) (id : ResourceId) (chronicle : σ → Chronicle)
    (rules : Rules) : Prop where
  linked : ∀ s, (chronicle s).Linked
  get : ∀ {s answer s'}, (world.get id s).Ends answer s' →
    Reads rules.others answer (chronicle s) (chronicle s') ∧ ∀ w, answer = some (.ok (some w)) → w.id = id
  update : ∀ {given s answer s'}, (world.update given s).Ends answer s' → given.id = id →
    Writes rules.others (rules.update given answer) answer (chronicle s) (chronicle s')
  updateStatus : ∀ {given s answer s'}, (world.updateStatus given s).Ends answer s' → given.id = id →
    Writes rules.others (rules.updateStatus given answer) answer (chronicle s) (chronicle s')
  elsewhere : ∀ {given s answer s'}, given.id ≠ id →
    (world.update given s).Ends answer s' ∨ (world.updateStatus given s).Ends answer s' →
    Drifts rules.others (chronicle s) (chronicle s')
  step : ∀ sub ∈ m.subroutines, ∀ {phase w s answer s'}, (sub.step phase w s).Ends answer s' →
    Drifts rules.others (chronicle s) (chronicle s')
  draw : ∀ s, Drifts rules.others (chronicle s) (chronicle (world.draw s).2)
  correlate : ∀ s, Drifts rules.others (chronicle s) (chronicle (world.correlate s).2)
  capture : ∀ error tags s, Drifts rules.others (chronicle s) (chronicle (world.capture error tags s).2)

-- Reconciles one after the other, with nobody but others at the resource in between.
inductive Rounds {σ : Type} (m : Manager σ) (world : World σ) (id : ResourceId) (chronicle : σ → Chronicle)
    (others : Deed → Prop) (start : σ) : List (Ran σ (Except Stop Outcome)) → σ → Prop where
  | start : Rounds m world id chronicle others start [] start
  | meantime {rans s s'} :
      Rounds m world id chronicle others start rans s → Chronicle.Drifts others (chronicle s) (chronicle s') →
      Rounds m world id chronicle others start rans s'
  | reconcile {rans s} :
      Rounds m world id chronicle others start rans s →
      Rounds m world id chronicle others start (rans ++ [m.reconcile world id s]) (m.reconcile world id s).state

theorem Recorded.mono {σ : Type} {m : Manager σ} {world : World σ} {id : ResourceId} {chronicle : σ → Chronicle}
    {rules rules' : Rules} (recorded : Recorded m world id chronicle rules)
    (others : ∀ d, rules.others d → rules'.others d)
    (update : ∀ given answer d, rules.update given answer d → rules'.update given answer d)
    (updateStatus : ∀ given answer d, rules.updateStatus given answer d → rules'.updateStatus given answer d) :
    Recorded m world id chronicle rules' where
  linked := recorded.linked
  get ends := ⟨(recorded.get ends).1.mono others, (recorded.get ends).2⟩
  update ends same := (recorded.update ends same).mono others (update _ _)
  updateStatus ends same := (recorded.updateStatus ends same).mono others (updateStatus _ _)
  elsewhere apart ends := (recorded.elsewhere apart ends).mono others
  step sub member _ _ _ _ _ ends := (recorded.step sub member ends).mono others
  draw s := (recorded.draw s).mono others
  correlate s := (recorded.correlate s).mono others
  capture error tags s := (recorded.capture error tags s).mono others

end Reconciler
