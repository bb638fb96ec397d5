/-!
Finite maps from text keys. Entries stand in increasing key order, by code
point, and each key stands once, so two maps with the same look-ups are equal
and iteration needs no sorting.
-/

namespace RecordGraph

structure Dict (α : Type) where
  entries : List (String × α)
  sorted : entries.Pairwise (fun a b => a.1 < b.1)
deriving DecidableEq

namespace Dict

variable {α β : Type}

def empty : Dict α := ⟨[], List.Pairwise.nil⟩

instance : Inhabited (Dict α) := ⟨empty⟩
instance : EmptyCollection (Dict α) := ⟨empty⟩

/-- The entries with `key` set to `value`, in place when the key is there. -/
def insertEntry (key : String) (value : α) : List (String × α) → List (String × α)
  | [] => [(key, value)]
  | (k, v) :: rest =>
    if key < k then (key, value) :: (k, v) :: rest
    else if key = k then (key, value) :: rest
    else (k, v) :: insertEntry key value rest

theorem mem_insertEntry {key : String} {value : α} {l : List (String × α)} {e : String × α}
    (h : e ∈ insertEntry key value l) : e = (key, value) ∨ e ∈ l := by
  induction l with
  | nil => simpa [insertEntry] using h
  | cons x rest ih =>
    obtain ⟨k, v⟩ := x
    unfold insertEntry at h
    split at h
    · simpa using h
    · split at h
      · rcases List.mem_cons.1 h with h | h
        · exact .inl h
        · exact .inr (List.mem_cons_of_mem _ h)
      · rcases List.mem_cons.1 h with h | h
        · exact .inr (h ▸ List.mem_cons_self)
        · exact (ih h).imp id (List.mem_cons_of_mem _)

theorem lt_of_not_lt_of_ne {a b : String} (h : ¬ a < b) (hne : a ≠ b) : b < a := by
  rcases String.le_total a b with hab | hab
  · exact absurd (String.le_antisymm hab (String.not_lt.1 h)) hne
  · exact Classical.byContradiction fun hba =>
      hne (String.le_antisymm (String.not_lt.1 hba) hab)

theorem sorted_insertEntry (key : String) (value : α) {l : List (String × α)}
    (h : l.Pairwise (fun a b => a.1 < b.1)) :
    (insertEntry key value l).Pairwise (fun a b => a.1 < b.1) := by
  induction l with
  | nil => simp [insertEntry]
  | cons x rest ih =>
    obtain ⟨k, v⟩ := x
    have hk : ∀ {e}, e ∈ rest → k < e.1 := fun he => List.rel_of_pairwise_cons h he
    have hr := h.of_cons
    unfold insertEntry
    split
    · rename_i hlt
      refine List.pairwise_cons.2 ⟨fun e he => ?_, h⟩
      rcases List.mem_cons.1 he with rfl | he
      · exact hlt
      · exact String.lt_trans hlt (hk he)
    · rename_i hlt
      split
      · rename_i heq
        subst heq
        exact List.pairwise_cons.2 ⟨fun e he => hk he, hr⟩
      · rename_i hne
        refine List.pairwise_cons.2 ⟨fun e he => ?_, ih hr⟩
        rcases mem_insertEntry he with rfl | he
        · exact lt_of_not_lt_of_ne hlt hne
        · exact hk he

def insert (d : Dict α) (key : String) (value : α) : Dict α :=
  ⟨insertEntry key value d.entries, sorted_insertEntry key value d.sorted⟩

def erase (d : Dict α) (key : String) : Dict α :=
  ⟨d.entries.filter (fun e => e.1 ≠ key), d.sorted.filter _⟩

def filter (d : Dict α) (keep : α → Bool) : Dict α :=
  ⟨d.entries.filter (fun e => keep e.2), d.sorted.filter _⟩

def map (d : Dict α) (f : α → β) : Dict β :=
  ⟨d.entries.map (fun e => (e.1, f e.2)), List.pairwise_map.2 d.sorted⟩

def get? (d : Dict α) (key : String) : Option α :=
  (d.entries.find? (fun e => e.1 = key)).map (·.2)

def contains (d : Dict α) (key : String) : Bool :=
  (d.get? key).isSome

def isEmpty (d : Dict α) : Bool :=
  d.entries.isEmpty

/-- A repeated key keeps the value that stands last. -/
def ofList (entries : List (String × α)) : Dict α :=
  entries.foldl (fun d e => d.insert e.1 e.2) empty

@[simp] theorem get?_empty (key : String) : (empty : Dict α).get? key = none := rfl

@[simp] theorem entries_insert (d : Dict α) (key : String) (value : α) :
    (d.insert key value).entries = insertEntry key value d.entries := rfl

theorem find?_insertEntry (key : String) (value : α) (l : List (String × α)) (k : String) :
    ((insertEntry key value l).find? (fun e => e.1 = k)).map (·.2) =
      if key = k then some value else (l.find? (fun e => e.1 = k)).map (·.2) := by
  induction l with
  | nil => by_cases h : key = k <;> simp [insertEntry, h]
  | cons x rest ih =>
    obtain ⟨k', v⟩ := x
    unfold insertEntry
    by_cases h : key = k
    · subst h
      split
      · simp
      · split
        · simp
        · rename_i hne
          have hne' : k' ≠ key := fun e => hne e.symm
          simp [hne', ih]
    · split
      · simp [h]
      · split
        · rename_i heq
          subst heq
          simp [h]
        · by_cases hk : k' = k
          · subst hk; simp
          · simp [hk, ih, h]

theorem get?_insert (d : Dict α) (key : String) (value : α) (k : String) :
    (d.insert key value).get? k = if key = k then some value else d.get? k :=
  find?_insertEntry key value d.entries k

end Dict

end RecordGraph
