import Reconciler.Proofs.Encoding.Status

set_option autoImplicit false

namespace Reconciler.Json

def members : Json → List (String × Json)
  | .object members => members
  | _ => []

def without (name : String) (members : List (String × Json)) : List (String × Json) :=
  members.filter (·.1 ≠ name)

mutual

def mergePatch (target : Json) : (patch : Json) → Json
  | .object changes => .object (mergeMembers target.members changes)
  | patch => patch

def mergeMembers (members : List (String × Json)) : (changes : List (String × Json)) → List (String × Json)
  | [] => members
  | (name, .null) :: rest => mergeMembers (without name members) rest
  | (name, value) :: rest =>
      -- A member that was not there is merged into null, so that what is null inside it is left out as well.
      mergeMembers (without name members ++ [(name, mergePatch ((lookup name members).getD .null) value)]) rest

end

def mergeMember (old : Option Json) : Option Json → Option Json
  | none => old
  | some .null => none
  | some value => some (mergePatch (old.getD .null) value)

section

variable {α : Type} {name other : String} {names : List String} {value : Json} {members changes : List (String × Json)}

theorem lookup_append (front rest : List (String × Json)) :
    lookup name (front ++ rest) = (lookup name rest).or (lookup name front) := by
  induction front with
  | nil => simp
  | cons head front ih =>
      obtain ⟨key, j⟩ := head
      rw [List.cons_append, lookup_cons, lookup_cons, ih, Option.or_assoc]

theorem without_cons (key : String) (j : Json) (rest : List (String × Json)) :
    without other ((key, j) :: rest) = if key = other then without other rest else (key, j) :: without other rest := by
  by_cases same : key = other <;> simp [without, same]

theorem lookup_without :
    lookup name (without other members) = if name = other then none else lookup name members := by
  induction members with
  | nil => simp [without]
  | cons head rest ih =>
      obtain ⟨key, j⟩ := head
      rw [without_cons, lookup_cons]
      by_cases same : key = other
      · rw [if_pos same, ih]
        by_cases sought : name = other
        · simp [sought]
        · simp [sought, same, Ne.symm sought]
      · rw [if_neg same, lookup_cons, ih]
        by_cases sought : name = other
        · simp [sought, same]
        · simp [sought]

theorem lookup_put : lookup name (without other members ++ [(other, value)]) =
    if name = other then some value else lookup name members := by
  rw [lookup_append, lookup_cons, lookup_without]
  by_cases same : name = other
  · simp [same]
  · simp [same, Ne.symm same]

theorem mergeMembers_cons (name : String) (value : Json) (rest : List (String × Json)) :
    mergeMembers members ((name, value) :: rest) =
      mergeMembers (match mergeMember (lookup name members) (some value) with
        | none => without name members
        | some merged => without name members ++ [(name, merged)]) rest := by
  cases value <;> rw [mergeMembers, mergeMember] <;> simp

theorem lookup_mergeMembers (nodup : (changes.map Prod.fst).Nodup) :
    lookup name (mergeMembers members changes) = mergeMember (lookup name members) (lookup name changes) := by
  induction changes generalizing members with
  | nil => rw [mergeMembers]; rfl
  | cons head rest ih =>
      obtain ⟨key, value⟩ := head
      obtain ⟨fresh, nodup⟩ := List.nodup_cons.mp nodup
      rw [mergeMembers_cons, ih nodup, lookup_cons]
      by_cases same : key = name
      · -- No later change is of this member.
        subst same
        rw [lookup_eq_none fresh, if_pos rfl, Option.none_or]
        cases merged : mergeMember (lookup key members) (some value) <;> simp [lookup_without, lookup_put, mergeMember]
      · rw [if_neg same, Option.or_none]
        cases mergeMember (lookup key members) (some value) <;> simp [lookup_without, lookup_put, Ne.symm same]

theorem count_without (name other : String) (members : List (String × Json)) :
    ((without other members).map Prod.fst).count name =
      if name = other then 0 else (members.map Prod.fst).count name := by
  induction members with
  | nil => simp [without]
  | cons head rest ih =>
      obtain ⟨key, j⟩ := head
      rw [without_cons]
      by_cases same : key = other
      · rw [if_pos same, ih]
        by_cases sought : name = other
        · simp [sought]
        · simp [sought, same, Ne.symm sought]
      · rw [if_neg same, List.map_cons, List.count_cons, ih, List.map_cons, List.count_cons]
        by_cases sought : name = other
        · simp [sought, same]
        · simp [sought]

theorem eachOnce_without (each : eachOnce names members = true) : eachOnce names (without other members) = true := by
  simp only [eachOnce, List.all_eq_true, decide_eq_true_eq, count_without] at each ⊢
  intro name member
  have once := each name member
  split <;> omega

theorem eachOnce_put (each : eachOnce names members = true) :
    eachOnce names (without other members ++ [(other, value)]) = true := by
  simp only [eachOnce, List.all_eq_true, decide_eq_true_eq, List.map_append, List.count_append, count_without] at each ⊢
  intro name member
  have once := each name member
  by_cases same : name = other
  · simp [same]
  · simpa [same, Ne.symm same] using once

theorem eachOnce_mergeMembers (each : eachOnce names members = true) :
    eachOnce names (mergeMembers members changes) = true := by
  induction changes generalizing members with
  | nil => rwa [mergeMembers]
  | cons head rest ih =>
      obtain ⟨key, value⟩ := head
      rw [mergeMembers_cons]
      split
      · exact ih (eachOnce_without each)
      · exact ih (eachOnce_put each)

theorem mergeMember_some (old : Option Json) (shown : value ≠ .null) :
    mergeMember old (some value) = some (mergePatch (old.getD .null) value) := by
  cases value <;> first | contradiction | rfl

theorem mergePatch_object (target : Json) (changes : List (String × Json)) :
    mergePatch target (.object changes) = .object (mergeMembers target.members changes) := by
  rw [mergePatch]

theorem optional_mergeMembers {read : Json → Option α} {write : α → Json} {old given : Option α}
    (nodup : (changes.map Prod.fst).Nodup) (there : lookup name changes = given.map write)
    (shown : ∀ a, write a ≠ .null) (whole : ∀ a target, mergePatch target (write a) = write a)
    (same : ∀ a, read (write a) = some a) (before : optional name read members = some old) :
    optional name read (mergeMembers members changes) = some (given.or old) := by
  have after : lookup name (mergeMembers members changes) = mergeMember (lookup name members) (given.map write) :=
    there ▸ lookup_mergeMembers nodup
  cases given with
  | none =>
      rw [Option.none_or, ← before, optional, optional, after]
      rfl
  | some a =>
      rw [Option.map_some, mergeMember_some _ (shown a), whole a] at after
      have held : lookup name (mergeMembers members changes) = (some a).map write := after
      exact optional_eq held shown same

end

end Reconciler.Json
