set_option autoImplicit false

namespace Reconciler

structure Labels where
  entries : List (String × String)
  sorted : entries.Pairwise (fun a b => a.1 < b.1)
  deriving DecidableEq, Repr

namespace Labels

def empty : Labels := ⟨[], .nil⟩

instance : Inhabited Labels := ⟨empty⟩

def get? (labels : Labels) (key : String) : Option String :=
  labels.entries.lookup key

def contains (labels : Labels) (key : String) : Bool :=
  labels.entries.any (·.1 == key)

def isEmpty (labels : Labels) : Bool :=
  labels.entries.isEmpty

def insertEntry (key value : String) : List (String × String) → List (String × String)
  | [] => [(key, value)]
  | (k, v) :: rest =>
      if key < k then (key, value) :: (k, v) :: rest
      else if key = k then (key, value) :: rest
      else (k, v) :: insertEntry key value rest

theorem mem_insertEntry {key value : String} {entry : String × String} {entries : List (String × String)}
    (h : entry ∈ insertEntry key value entries) : entry = (key, value) ∨ entry ∈ entries := by
  induction entries with
  | nil => simpa [insertEntry] using h
  | cons head rest ih =>
      obtain ⟨k, v⟩ := head
      simp only [insertEntry] at h
      split at h
      · simpa using h
      · split at h
        · rcases List.mem_cons.mp h with h | h
          · exact .inl h
          · exact .inr (List.mem_cons_of_mem _ h)
        · rcases List.mem_cons.mp h with h | h
          · exact .inr (h ▸ List.mem_cons_self)
          · rcases ih h with h | h
            · exact .inl h
            · exact .inr (List.mem_cons_of_mem _ h)

theorem lt_of_not_lt {a b : String} (h : ¬a < b) (n : a ≠ b) : b < a :=
  String.not_le.mp fun le => n (String.le_antisymm le (String.not_lt.mp h))

theorem sorted_insertEntry (key value : String) {entries : List (String × String)}
    (h : entries.Pairwise (fun a b => a.1 < b.1)) :
    (insertEntry key value entries).Pairwise (fun a b => a.1 < b.1) := by
  induction entries with
  | nil => simp [insertEntry]
  | cons head rest ih =>
      obtain ⟨k, v⟩ := head
      have ⟨above, tail⟩ := List.pairwise_cons.mp h
      simp only [insertEntry]
      split
      · rename_i lt
        refine List.pairwise_cons.mpr ⟨fun e he => ?_, h⟩
        rcases List.mem_cons.mp he with rfl | he
        · exact lt
        · exact String.lt_trans lt (above e he)
      · split
        · rename_i eq
          exact List.pairwise_cons.mpr ⟨fun e he => eq ▸ above e he, tail⟩
        · rename_i nlt neq
          refine List.pairwise_cons.mpr ⟨fun e he => ?_, ih tail⟩
          rcases mem_insertEntry he with rfl | he
          · exact lt_of_not_lt nlt neq
          · exact above e he

def insert (labels : Labels) (key value : String) : Labels :=
  ⟨insertEntry key value labels.entries, sorted_insertEntry key value labels.sorted⟩

def erase (labels : Labels) (key : String) : Labels :=
  ⟨labels.entries.filter (·.1 != key), labels.sorted.filter _⟩

def ofList (entries : List (String × String)) : Labels :=
  entries.foldl (fun labels (key, value) => labels.insert key value) empty

end Labels

end Reconciler
