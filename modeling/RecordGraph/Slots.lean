/-!
Values by name, in numbered slots. A name takes the next slot when it is first written
and keeps it when it is written again. When a name is taken out, the last entry moves
into its slot: nothing else is shifted, but the order of the names changes.
-/

namespace RecordGraph

structure Slots (α : Type) where
  entries : List (String × α)
  nodup : (entries.map (·.1)).Nodup

namespace Slots

variable {α : Type}

def empty : Slots α := ⟨[], List.nodup_nil⟩

def get? (s : Slots α) (name : String) : Option α :=
  (s.entries.find? (fun e => e.1 = name)).map (·.2)

/-- The entries with `name` set to `value`, in its slot if it has one. -/
def writeEntry (name : String) (value : α) : List (String × α) → List (String × α)
  | [] => [(name, value)]
  | (n, v) :: rest =>
    if n = name then (name, value) :: rest else (n, v) :: writeEntry name value rest

theorem mem_writeEntry {name : String} {value : α} {l : List (String × α)} {n : String}
    (h : n ∈ (writeEntry name value l).map (·.1)) : n = name ∨ n ∈ l.map (·.1) := by
  induction l with
  | nil => simpa [writeEntry] using h
  | cons e rest ih =>
    obtain ⟨n', v⟩ := e
    unfold writeEntry at h
    split at h
    · rcases List.mem_cons.1 h with h | h
      · exact .inl h
      · exact .inr (List.mem_cons_of_mem _ h)
    · rcases List.mem_cons.1 h with h | h
      · exact .inr (h ▸ List.mem_cons_self)
      · exact (ih h).imp id (List.mem_cons_of_mem _)

theorem nodup_writeEntry (name : String) (value : α) {l : List (String × α)}
    (h : (l.map (·.1)).Nodup) : ((writeEntry name value l).map (·.1)).Nodup := by
  induction l with
  | nil => simp [writeEntry]
  | cons e rest ih =>
    obtain ⟨n, v⟩ := e
    obtain ⟨hn, hrest⟩ := List.nodup_cons.1 h
    unfold writeEntry
    split
    · rename_i heq
      exact List.nodup_cons.2 ⟨heq ▸ hn, hrest⟩
    · rename_i hne
      refine List.nodup_cons.2 ⟨fun hmem => ?_, ih hrest⟩
      exact (mem_writeEntry hmem).elim hne hn

def write (s : Slots α) (name : String) (value : α) : Slots α :=
  ⟨writeEntry name value s.entries, nodup_writeEntry name value s.nodup⟩

def ofList (entries : List (String × α)) : Slots α :=
  entries.foldl (fun s e => s.write e.1 e.2) empty

/-- The entries without the one in slot `i`, which the last one takes over. -/
def freeSlot : Nat → List (String × α) → List (String × α)
  | _, [] => []
  | 0, _ :: rest =>
    match rest.getLast? with
    | none => []
    | some last => last :: rest.dropLast
  | i + 1, e :: rest => e :: freeSlot i rest

theorem freeSlot_perm (i : Nat) (l : List (String × α)) : (freeSlot i l).Perm (l.eraseIdx i) := by
  induction l generalizing i with
  | nil => simp [freeSlot]
  | cons e rest ih =>
    cases i with
    | zero =>
      unfold freeSlot
      split
      · rename_i hlast
        simp [List.getLast?_eq_none_iff.1 hlast]
      · rename_i last hlast
        obtain ⟨most, rfl⟩ := List.getLast?_eq_some_iff.1 hlast
        simpa using (List.perm_append_singleton last most).symm
    | succ i => exact (ih i).cons e

theorem nodup_freeSlot (i : Nat) {l : List (String × α)} (h : (l.map (·.1)).Nodup) :
    ((freeSlot i l).map (·.1)).Nodup :=
  ((freeSlot_perm i l).map _).nodup_iff.2 (h.sublist ((List.eraseIdx_sublist l i).map _))

def takeOut (s : Slots α) (name : String) : Option α × Slots α :=
  match s.entries.findIdx? (fun e => e.1 = name) with
  | none => (none, s)
  | some i => (s.entries[i]?.map (·.2), ⟨freeSlot i s.entries, nodup_freeSlot i s.nodup⟩)

@[simp] theorem get?_empty (name : String) : (empty : Slots α).get? name = none := rfl

theorem get?_eq_some_iff (s : Slots α) {name : String} {value : α} :
    s.get? name = some value ↔ (name, value) ∈ s.entries := by
  obtain ⟨entries, nodup⟩ := s
  simp only [get?]
  induction entries with
  | nil => simp
  | cons e rest ih =>
    obtain ⟨n, v⟩ := e
    obtain ⟨hn, hrest⟩ := List.nodup_cons.1 nodup
    by_cases h : n = name
    · subst h
      have hfresh : (n, value) ∉ rest := fun hmem => hn (List.mem_map.2 ⟨_, hmem, rfl⟩)
      simp [hfresh, eq_comm]
    · simp [h, Ne.symm h, ih hrest]

theorem get?_write (s : Slots α) (name : String) (value : α) (n : String) :
    (s.write name value).get? n = if name = n then some value else s.get? n := by
  simp only [get?, write]
  induction s.entries with
  | nil => by_cases h : name = n <;> simp [writeEntry, h]
  | cons e rest ih =>
    obtain ⟨n', v⟩ := e
    unfold writeEntry
    by_cases h : n' = name
    · subst h
      by_cases hn : n' = n <;> simp [hn]
    · by_cases hn : n' = n
      · subst hn
        simp [h, Ne.symm h]
      · simp [h, hn, ih]

theorem takeOut_fst (s : Slots α) (name : String) : (s.takeOut name).1 = s.get? name := by
  unfold takeOut get?
  rw [List.find?_eq_bind_findIdx?_getElem?]
  cases s.entries.findIdx? (fun e => e.1 = name) <;> rfl

theorem eraseP_eq_filter {l : List (String × α)} (h : (l.map (·.1)).Nodup) (name : String) :
    l.eraseP (fun e => e.1 = name) = l.filter (fun e => e.1 ≠ name) := by
  induction l with
  | nil => rfl
  | cons e rest ih =>
    obtain ⟨he, hrest⟩ := List.nodup_cons.1 h
    by_cases hname : e.1 = name
    · have hothers : ∀ e' ∈ rest, e'.1 ≠ name := fun e' he' heq =>
        he (List.mem_map.2 ⟨e', he', heq.trans hname.symm⟩)
      have hkept : rest.filter (fun e => e.1 ≠ name) = rest :=
        List.filter_eq_self.2 fun e' he' => by simpa using hothers e' he'
      simpa [hname] using hkept.symm
    · simpa [hname] using ih hrest

theorem entries_takeOut (s : Slots α) (name : String) :
    (s.takeOut name).2.entries.Perm (s.entries.filter (fun e => e.1 ≠ name)) := by
  rw [← eraseP_eq_filter s.nodup, List.eraseP_eq_eraseIdx]
  unfold takeOut
  cases s.entries.findIdx? (fun e => e.1 = name) with
  | none => exact .refl _
  | some i => exact freeSlot_perm i s.entries

theorem get?_takeOut (s : Slots α) (name n : String) :
    (s.takeOut name).2.get? n = if name = n then none else s.get? n := by
  refine Option.ext fun value => ?_
  rw [get?_eq_some_iff, (entries_takeOut s name).mem_iff, List.mem_filter, ← get?_eq_some_iff]
  by_cases h : name = n
  · simp [h]
  · simp [h, Ne.symm h]

example : ((ofList [("a", 1), ("b", 2), ("c", 3)]).takeOut "a").2.entries =
    [("c", 3), ("b", 2)] := by decide

theorem writeEntry_of_notMem {name : String} (value : α) {l : List (String × α)}
    (h : name ∉ l.map (·.1)) : writeEntry name value l = l ++ [(name, value)] := by
  induction l with
  | nil => rfl
  | cons e rest ih =>
    obtain ⟨hne, hrest⟩ := List.ne_and_not_mem_of_not_mem_cons h
    simp [writeEntry, Ne.symm hne, ih hrest]

theorem entries_foldl_write {entries : List (String × α)} {s : Slots α}
    (h : ((s.entries ++ entries).map (·.1)).Nodup) :
    (entries.foldl (fun s e => s.write e.1 e.2) s).entries = s.entries ++ entries := by
  induction entries generalizing s with
  | nil => simp
  | cons e rest ih =>
    have hfresh : e.1 ∉ s.entries.map (·.1) := fun hmem => by
      rw [List.map_append, List.nodup_append] at h
      exact h.2.2 e.1 hmem e.1 (by simp) rfl
    have hwrite : (s.write e.1 e.2).entries = s.entries ++ [e] :=
      writeEntry_of_notMem e.2 hfresh
    rw [List.foldl_cons, ih (by simpa [hwrite] using h), hwrite, List.append_assoc]
    rfl

theorem get?_foldl_write (entries : List (String × α)) (s : Slots α) (name : String) :
    (entries.foldl (fun s e => s.write e.1 e.2) s).get? name =
      ((entries.reverse.find? (fun e => e.1 = name)).map (·.2)).or (s.get? name) := by
  induction entries generalizing s with
  | nil => rfl
  | cons e rest ih =>
    rw [List.foldl_cons, ih, get?_write, List.reverse_cons, List.find?_append]
    cases rest.reverse.find? (fun e => e.1 = name) with
    | some last => rfl
    | none => by_cases h : e.1 = name <;> simp [h]

theorem get?_ofList (entries : List (String × α)) (name : String) :
    (ofList entries).get? name =
      (entries.reverse.find? (fun e => e.1 = name)).map (·.2) := by
  rw [ofList, get?_foldl_write, get?_empty, Option.or_none]

theorem entries_ofList {entries : List (String × α)} (h : (entries.map (·.1)).Nodup) :
    (ofList entries).entries = entries :=
  entries_foldl_write h

end Slots

end RecordGraph
