import Reconciler.Proofs.Chronicle.Growth

set_option autoImplicit false

namespace Reconciler

variable {σ : Type}

namespace Chronicle

variable {others effect : Deed → Prop} {a b : Chronicle} {answer : Option (Except Error Workspace)} {d : Deed}

theorem last_own {early : List Deed} (grows : a <+: b) (deeds : own a b = early ++ [d]) :
    ∃ upto rest, b = upto ++ d :: rest ∧ a <+: upto ∧ own a upto = early ∧ ∀ e ∈ rest, e.own = false := by
  obtain ⟨more, rfl⟩ := grows
  rw [own_append] at deeds
  obtain ⟨before, rest, rfl, rfl, none⟩ := split_filter deeds
  refine ⟨a ++ before, rest, by simp, List.prefix_append .., own_append .., fun e member => ?_⟩
  simpa using List.filter_eq_nil_iff.mp none e member

theorem Writes.of_own (writes : Writes others effect answer a b) (member : d ∈ own a b) :
    own a b = [d] ∧ effect d ∧ ∀ stored, answer = some (.ok stored) → d.written = some stored := by
  cases writes with
  | idle drifts _ => simp [drifts.own] at member
  | done past e early mine effective written late =>
      have alone := own_done early mine late
      obtain rfl := List.mem_singleton.mp (alone ▸ member)
      exact ⟨alone, effective, written⟩

theorem Writes.of_ok {stored : Workspace} (writes : Writes others effect (some (.ok stored)) a b) :
    ∃ d, own a b = [d] := by
  cases writes with
  | idle _ refused => exact absurd rfl (refused stored)
  | done past d early mine _ _ late => exact ⟨d, own_done early mine late⟩

end Chronicle

abbrev Moment.deeds (chronicle : σ → Chronicle) (moment : Moment σ) : List Deed :=
  Chronicle.own (chronicle moment.before) (chronicle moment.after)

def Effects (chronicle : σ → Chronicle) (rules : Rules) (id : ResourceId) (moment : Moment σ) : Prop :=
  match moment.event with
  | .updated given answer => given.id = id →
      Chronicle.Writes rules.others (rules.update given answer) answer (chronicle moment.before)
        (chronicle moment.after)
  | .statusUpdated given answer => given.id = id →
      Chronicle.Writes rules.others (rules.updateStatus given answer) answer (chronicle moment.before)
        (chronicle moment.after)
  | _ => moment.deeds chronicle = []

structure Attributed (chronicle : σ → Chronicle) (rules : Rules) (id : ResourceId) (start : σ) (t : List (Moment σ))
    (l : Chronicle) : Prop where
  whole : chronicle start <+: l
  own : Chronicle.own (chronicle start) l = t.flatMap (Moment.deeds chronicle)
  effects : ∀ moment ∈ t, Effects chronicle rules id moment

namespace Attributed

variable {chronicle : σ → Chronicle} {rules : Rules} {id : ResourceId} {start s s' : σ} {t piece : List (Moment σ)}
variable {event : Event} {l l' : Chronicle}

theorem exists_moment {d : Deed} (attributed : Attributed chronicle rules id start t l)
    (member : d ∈ Chronicle.own (chronicle start) l) :
    ∃ past moment rest, t = past ++ moment :: rest ∧ d ∈ moment.deeds chronicle := by
  rw [attributed.own] at member
  obtain ⟨moment, among, here⟩ := List.mem_flatMap.mp member
  obtain ⟨past, rest, split⟩ := List.append_of_mem among
  exact ⟨past, moment, rest, split, here⟩

theorem drift (attributed : Attributed chronicle rules id start t l) (drifts : Chronicle.Drifts rules.others l l') :
    Attributed chronicle rules id start t l' := by
  refine ⟨attributed.whole.trans drifts.grows, ?_, attributed.effects⟩
  rw [Chronicle.own_trans attributed.whole drifts.grows, drifts.own, List.append_nil, attributed.own]

theorem earlier (attributed : Attributed chronicle rules id start t l)
    (drifts : Chronicle.Drifts rules.others (chronicle s) (chronicle start)) :
    Attributed chronicle rules id s t l := by
  refine ⟨drifts.grows.trans attributed.whole, ?_, attributed.effects⟩
  rw [Chronicle.own_trans drifts.grows attributed.whole, drifts.own, List.nil_append, attributed.own]

theorem snoc (moment : Moment σ) (attributed : Attributed chronicle rules id start t (chronicle moment.before))
    (grows : chronicle moment.before <+: chronicle moment.after) (effects : Effects chronicle rules id moment) :
    Attributed chronicle rules id start (t ++ [moment]) (chronicle moment.after) := by
  refine ⟨attributed.whole.trans grows, ?_, fun m member => ?_⟩
  · rw [Chronicle.own_trans attributed.whole grows, attributed.own]
    simp
  · rcases List.mem_append.mp member with before | last
    · exact attributed.effects m before
    · obtain rfl := List.mem_singleton.mp last
      exact effects

theorem quiet (moment : Moment σ) (attributed : Attributed chronicle rules id start t (chronicle moment.before))
    (unwritten : moment.event.isWrite = false)
    (drifts : Chronicle.Drifts rules.others (chronicle moment.before) (chronicle moment.after)) :
    Attributed chronicle rules id start (t ++ [moment]) (chronicle moment.after) := by
  refine attributed.snoc moment drifts.grows ?_
  unfold Effects
  split
  · simp_all [Event.isWrite]
  · simp_all [Event.isWrite]
  · exact drifts.own

theorem asked {α : Type} {stop : σ → Bool} {call : σ → Call σ α} {event : Option α → Event} {answer : Option α}
    (attributed : Attributed chronicle rules id start t (chronicle s))
    (asked : Run.Asked stop call event s answer piece s') (unwritten : ∀ answer, (event answer).isWrite = false)
    (drifts : (call s).Ends answer s' → Chronicle.Drifts rules.others (chronicle s) (chronicle s')) :
    Attributed chronicle rules id start (t ++ piece) (chronicle s') := by
  rcases asked.ends with ⟨_, rfl, rfl⟩ | ⟨rfl, ends⟩
  · simpa using attributed
  · exact attributed.quiet ⟨event answer, s, s'⟩ (unwritten answer) (drifts ends)

end Attributed

section

variable {c : Cycle σ} {chronicle : σ → Chronicle} {rules : Rules} {id : ResourceId} {now : Timestamp}
variable {fetched w : Workspace} {start s s' : σ} {t piece : List (Moment σ)} {stage : Stage σ}
variable {answer : Option (Except Error Workspace)}

theorem Attributed.updated (attributed : Attributed chronicle rules id start t (chronicle s))
    (recorded : Recorded c.manager c.world id chronicle rules)
    (asked : Run.Asked c.world.cancelled (c.world.update w) (.updated w) s answer piece s') :
    Attributed chronicle rules id start (t ++ piece) (chronicle s') := by
  rcases asked.ends with ⟨_, rfl, rfl⟩ | ⟨rfl, ends⟩
  · simpa using attributed
  · exact attributed.snoc ⟨.updated w answer, s, s'⟩ (recorded.update_grows ends) (recorded.update ends)

theorem Attributed.statusUpdated (attributed : Attributed chronicle rules id start t (chronicle s))
    (recorded : Recorded c.manager c.world id chronicle rules)
    (asked : Run.Asked c.world.cancelled (c.world.updateStatus w) (.statusUpdated w) s answer piece s') :
    Attributed chronicle rules id start (t ++ piece) (chronicle s') := by
  rcases asked.ends with ⟨_, rfl, rfl⟩ | ⟨rfl, ends⟩
  · simpa using attributed
  · exact attributed.snoc ⟨.statusUpdated w answer, s, s'⟩ (recorded.updateStatus_grows ends)
      (recorded.updateStatus ends)

theorem Course.attributed (recorded : Recorded c.manager c.world id chronicle rules)
    (course : Course c id now fetched start t stage w s) : Attributed chronicle rules id start t (chronicle s) := by
  -- Only writes have deeds of their own; whatever else a course does leaves the resource to others.
  induction course with
  | start => exact ⟨List.prefix_rfl, by simp [Chronicle.own], by simp⟩
  | note record _ ih => exact ih.quiet _ rfl (.refl _ _)
  | unread _ asked _ ih => exact ih.asked asked (fun _ => rfl) fun ends => (recorded.get ends).1.drifts
  | absent _ asked ih => exact ih.asked asked (fun _ => rfl) fun ends => (recorded.get ends).1.drifts
  | skip _ asked _ _ ih => exact ih.asked asked (fun _ => rfl) fun ends => (recorded.get ends).1.drifts
  | fetch _ asked _ _ ih => exact ih.asked asked (fun _ => rfl) fun ends => (recorded.get ends).1.drifts
  | step course asked ih =>
      exact ih.asked asked (fun _ => rfl) (recorded.step _ (course.mem_of_agenda List.mem_cons_self))
  | drop course asked ih =>
      exact ih.asked asked (fun _ => rfl) (recorded.step _ (course.mem_of_agenda List.mem_cons_self))
  | written _ asked ih => exact ih.updated recorded asked
  | unwritten _ asked _ ih => exact ih.updated recorded asked
  | fail _ ih => exact ih.quiet _ rfl (.refl _ _)
  | report _ _ ih => exact ih.quiet _ rfl (recorded.capture _ _ _)
  | persist _ _ asked ih => exact ih.statusUpdated recorded asked
  | vanish _ _ asked _ _ ih => exact ih.statusUpdated recorded asked
  | refuse _ _ asked _ _ ih => exact ih.statusUpdated recorded asked
  | schedule _ _ _ ih | beyond _ _ _ ih => exact ih.drift (recorded.draw _)
  | _ => assumption

theorem Recorded.attributed {m : Manager σ} {world : World σ} (recorded : Recorded m world id chronicle rules) (s : σ) :
    Attributed chronicle rules id s (m.attempt world id s).trace (chronicle (m.attempt world id s).state) := by
  obtain ⟨_, _, _, course⟩ := m.attempt_course world id s
  exact (course.attributed recorded).earlier (recorded.correlate s)

end

end Reconciler
