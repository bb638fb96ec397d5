import Mathlib.Data.List.Duplicate
import Mathlib.Data.List.Induction
import Mathlib.Data.List.Nodup
import Mathlib.Data.List.Perm.Basic
import RecordGraph.Dict
import RecordGraph.Slots

/-!
Look-ups and entries of finite maps. A map looks up exactly the entries that it
holds, and a map made of entries with keys that differ holds exactly those. Keys
counted once each grow at the end, by a key that is new. Slots have the names that
were written, each once and in the order in which it first came.
-/

namespace RecordGraph

namespace Dict

variable {α : Type}

theorem get?_of_mem (d : Dict α) {e : String × α} (h : e ∈ d.entries) :
    d.get? e.1 = some e.2 := by
  obtain ⟨entries, sorted⟩ := d
  simp only [get?] at h ⊢
  induction entries with
  | nil => simp at h
  | cons x rest ih =>
    obtain ⟨hx, hrest⟩ := List.pairwise_cons.1 sorted
    rcases List.mem_cons.1 h with rfl | h
    · simp
    · have hne : x.1 ≠ e.1 := fun heq => String.lt_irrefl _ (heq ▸ hx e h)
      simpa [hne] using ih hrest h

theorem mem_of_get? (d : Dict α) {key : String} {value : α} (h : d.get? key = some value) :
    (key, value) ∈ d.entries := by
  obtain ⟨e, he, rfl⟩ := Option.map_eq_some_iff.1 h
  have hkey : e.1 = key := by simpa using List.find?_some he
  exact hkey ▸ List.mem_of_find?_eq_some he

theorem nodup_entries (d : Dict α) : d.entries.Nodup :=
  d.sorted.imp fun {_ _} hlt heq => String.ne_of_lt hlt (congrArg Prod.fst heq)

theorem eq_of_get? {d d' : Dict α} (h : ∀ key, d.get? key = d'.get? key) : d = d' := by
  have hmem : ∀ e, e ∈ d.entries ↔ e ∈ d'.entries := fun e =>
    ⟨fun he => mem_of_get? d' (h e.1 ▸ get?_of_mem d he),
      fun he => mem_of_get? d (h e.1 ▸ get?_of_mem d' he)⟩
  have hperm := (List.perm_ext_iff_of_nodup d.nodup_entries d'.nodup_entries).2 hmem
  have hentries : d.entries = d'.entries :=
    hperm.eq_of_pairwise (fun _ _ _ _ hlt hgt => absurd (String.lt_trans hlt hgt)
      (String.lt_irrefl _)) d.sorted d'.sorted
  obtain ⟨entries, sorted⟩ := d
  obtain rfl : entries = d'.entries := hentries
  rfl

theorem get?_foldl_insert {entries : List (String × α)} (hkeys : (entries.map (·.1)).Nodup)
    (d : Dict α) (key : String) (value : α) :
    (entries.foldl (fun d e => d.insert e.1 e.2) d).get? key = some value ↔
      (key, value) ∈ entries ∨ key ∉ entries.map (·.1) ∧ d.get? key = some value := by
  induction entries generalizing d with
  | nil => simp
  | cons e rest ih =>
    rw [List.map_cons, List.nodup_cons] at hkeys
    rw [List.foldl_cons, ih hkeys.2, get?_insert, List.mem_cons, List.map_cons, List.mem_cons,
      Prod.ext_iff]
    by_cases hkey : e.1 = key
    · subst hkey
      have hrest : ∀ v, (e.1, v) ∉ rest := fun v hv =>
        hkeys.1 (List.mem_map.2 ⟨(e.1, v), hv, rfl⟩)
      simp [hkeys.1, hrest, eq_comm]
    · simp [hkey, Ne.symm hkey]

theorem get?_ofList {entries : List (String × α)} (hkeys : (entries.map (·.1)).Nodup)
    (key : String) (value : α) :
    (ofList entries).get? key = some value ↔ (key, value) ∈ entries := by
  rw [ofList, get?_foldl_insert hkeys]
  simp

theorem mem_entries_ofList {entries : List (String × α)} (hkeys : (entries.map (·.1)).Nodup)
    {e : String × α} : e ∈ (ofList entries).entries ↔ e ∈ entries := by
  constructor
  · exact fun h => (get?_ofList hkeys e.1 e.2).1 (get?_of_mem _ h)
  · exact fun h => mem_of_get? _ ((get?_ofList hkeys e.1 e.2).2 h)

theorem mem_keys_iff (d : Dict α) (key : String) :
    key ∈ d.entries.map (·.1) ↔ (d.get? key).isSome = true := by
  simp [get?, List.mem_map]

theorem mem_keys_ofList {entries : List (String × α)} {key : String} :
    key ∈ (ofList entries).entries.map (·.1) ↔ key ∈ entries.map (·.1) := by
  have hfoldl (d : Dict α) :
      ((entries.foldl (fun d e => d.insert e.1 e.2) d).get? key).isSome = true ↔
        key ∈ entries.map (·.1) ∨ (d.get? key).isSome = true := by
    induction entries generalizing d with
    | nil => simp
    | cons e rest ih =>
      rw [List.foldl_cons, ih, get?_insert, List.map_cons, List.mem_cons]
      by_cases hkey : e.1 = key
      · simp [hkey]
      · simp [hkey, Ne.symm hkey]
  rw [mem_keys_iff, ofList, hfoldl]
  simp

theorem nodup_keys_of_perm {d : Dict α} {entries : List (String × α)}
    (h : entries.Perm d.entries) : (entries.map (·.1)).Nodup := by
  have hsorted : (d.entries.map (·.1)).Nodup :=
    List.pairwise_map.2 (d.sorted.imp fun hlt => String.ne_of_lt hlt)
  exact (h.map (·.1)).nodup_iff.2 hsorted

theorem ofList_of_perm {d : Dict α} {entries : List (String × α)} (h : entries.Perm d.entries) :
    ofList entries = d := by
  refine eq_of_get? fun key => Option.ext fun value => ?_
  rw [get?_ofList (nodup_keys_of_perm h), h.mem_iff]
  exact ⟨fun hmem => get?_of_mem d hmem, mem_of_get? d⟩

/-- The entry that a search stops at has the least key of those that fit. -/
theorem le_of_find? (d : Dict α) {fits : String × α → Bool} {e e' : String × α}
    (h : d.entries.find? fits = some e) (he' : e' ∈ d.entries) (hfits : fits e' = true) :
    e.1 ≤ e'.1 := by
  obtain ⟨-, before, after, hentries, hbefore⟩ := List.find?_eq_some_iff_append.1 h
  have hsorted := d.sorted
  rw [hentries] at he' hsorted
  rcases List.mem_append.1 he' with he' | he'
  · exact absurd hfits (by simpa using hbefore e' he')
  rcases List.mem_cons.1 he' with rfl | he'
  · exact String.le_refl _
  · have hlt := (List.pairwise_cons.1 (List.pairwise_append.1 hsorted).2.1).1 e' he'
    exact String.not_lt.1 fun hgt => String.lt_irrefl _ (String.lt_trans hlt hgt)

end Dict

section Distinct

variable {α : Type} [DecidableEq α] {xs : List α} {x : α}

theorem eraseDups_concat_of_mem (h : x ∈ xs) : (xs ++ [x]).eraseDups = xs.eraseDups := by
  simp [List.eraseDups_append, List.removeAll, h]

theorem eraseDups_concat_of_notMem (h : x ∉ xs) :
    (xs ++ [x]).eraseDups = xs.eraseDups ++ [x] := by
  simp [List.eraseDups_append, List.removeAll, h, List.eraseDups_cons]

theorem eraseDups_eq_self (h : xs.Nodup) : xs.eraseDups = xs := by
  induction xs using List.reverseRecOn with
  | nil => rfl
  | append_singleton xs x ih =>
    obtain ⟨hxs, -, hnew⟩ := List.nodup_append.1 h
    rw [eraseDups_concat_of_notMem fun hx => hnew x hx x (by simp) rfl, ih hxs]

end Distinct

namespace Slots

variable {α : Type}

theorem names_writeEntry (name : String) (value : α) (l : List (String × α)) :
    (writeEntry name value l).map (·.1) =
      if name ∈ l.map (·.1) then l.map (·.1) else l.map (·.1) ++ [name] := by
  induction l with
  | nil => rfl
  | cons e rest ih =>
    obtain ⟨n, v⟩ := e
    unfold writeEntry
    by_cases h : n = name
    · simp [h]
    · rw [if_neg h, List.map_cons, ih]
      by_cases hrest : name ∈ rest.map (·.1) <;> simp_all [Ne.symm h]

theorem entries_ofList_concat (l : List (String × α)) (e : String × α) :
    (ofList (l ++ [e])).entries = writeEntry e.1 e.2 (ofList l).entries := by
  rw [ofList, List.foldl_append]
  rfl

/-- The names written take slots once each, in the order in which they first come. -/
theorem names_ofList (l : List (String × α)) :
    (ofList l).entries.map (·.1) = (l.map (·.1)).eraseDups := by
  induction l using List.reverseRecOn with
  | nil => rfl
  | append_singleton l e ih =>
    rw [entries_ofList_concat, names_writeEntry, ih, List.map_append]
    by_cases h : e.1 ∈ l.map (·.1)
    · rw [if_pos (List.mem_eraseDups.2 h)]
      exact (eraseDups_concat_of_mem h).symm
    · rw [if_neg (mt List.mem_eraseDups.1 h)]
      exact (eraseDups_concat_of_notMem h).symm

theorem entries_eq_map (s : Slots α) (default : α) :
    s.entries = (s.entries.map (·.1)).map fun n => (n, (s.get? n).getD default) := by
  have hfound : ∀ e ∈ s.entries, (e.1, (s.get? e.1).getD default) = id e := fun e he => by
    rw [(get?_eq_some_iff s).2 he]
    rfl
  calc s.entries
      = s.entries.map id := (List.map_id _).symm
    _ = s.entries.map fun e => (e.1, (s.get? e.1).getD default) :=
        (List.map_congr_left hfound).symm
    _ = (s.entries.map (·.1)).map fun n => (n, (s.get? n).getD default) := by simp

theorem mem_of_mem_ofList {l : List (String × α)} {e : String × α}
    (h : e ∈ (ofList l).entries) : e ∈ l := by
  rw [← get?_eq_some_iff, get?_ofList, Option.map_eq_some_iff] at h
  obtain ⟨e', he', hvalue⟩ := h
  have hname : e'.1 = e.1 := by simpa using List.find?_some he'
  rw [← Prod.ext hname hvalue]
  exact List.mem_reverse.1 (List.mem_of_find?_eq_some he')

theorem map_ofList {β : Type} {l : List (String × α)} {f : α → β} {g : String → β}
    (h : ∀ e ∈ l, f e.2 = g e.1) :
    (ofList l).entries.map (fun e => (e.1, f e.2)) =
      (l.map (·.1)).eraseDups.map fun n => (n, g n) := by
  calc (ofList l).entries.map (fun e => (e.1, f e.2))
      = (ofList l).entries.map fun e => (e.1, g e.1) :=
        List.map_congr_left fun e he => by rw [h e (mem_of_mem_ofList he)]
    _ = ((ofList l).entries.map (·.1)).map fun n => (n, g n) := by simp
    _ = (l.map (·.1)).eraseDups.map fun n => (n, g n) := by rw [names_ofList]

theorem writeEntry_of_mem {name : String} {value : α} {l : List (String × α)}
    (hl : (l.map (·.1)).Nodup) (h : (name, value) ∈ l) : writeEntry name value l = l := by
  induction l with
  | nil => cases h
  | cons e rest ih =>
    obtain ⟨hfresh, hrest⟩ := List.nodup_cons.1 hl
    unfold writeEntry
    rcases List.mem_cons.1 h with rfl | h
    · simp
    · have hne : e.1 ≠ name := fun heq => hfresh (List.mem_map.2 ⟨_, h, heq.symm⟩)
      rw [if_neg hne, ih hrest h]

/-- Lists written by name are all kept if only empty ones are written to the same name. -/
theorem flatMap_ofList {β : Type} {l : List (String × List β)}
    (h : ∀ e ∈ l, List.Duplicate e.1 (l.map (·.1)) → e.2 = []) :
    (ofList l).entries.flatMap (·.2) = l.flatMap (·.2) := by
  induction l using List.reverseRecOn with
  | nil => rfl
  | append_singleton l e ih =>
    have hsub : (l.map (·.1)).Sublist ((l ++ [e]).map (·.1)) :=
      (List.sublist_append_left l [e]).map _
    have hl : (ofList l).entries.flatMap (·.2) = l.flatMap (·.2) :=
      ih fun e' he' hrepeats => h e' (List.mem_append_left _ he') (hrepeats.mono_sublist hsub)
    rw [entries_ofList_concat, List.flatMap_append, ← hl]
    by_cases hname : e.1 ∈ l.map (·.1)
    · -- The slot that the name has already holds the empty list.
      have hrepeats : List.Duplicate e.1 ((l ++ [e]).map (·.1)) := by
        rw [List.duplicate_iff_sublist, List.map_append]
        exact (List.singleton_sublist.2 hname).append (.refl [e.1])
      have hempty : ∀ e' ∈ l ++ [e], e'.1 = e.1 → e'.2 = [] := fun e' he' heq =>
        h e' he' (heq ▸ hrepeats)
      have hheld : (e.1, e.2) ∈ (ofList l).entries := by
        rw [← List.mem_eraseDups, ← names_ofList] at hname
        obtain ⟨e', he', heq⟩ := List.mem_map.1 hname
        have hvalue := hempty e' (List.mem_append_left _ (mem_of_mem_ofList he')) heq
        rw [hempty e (by simp) rfl, ← hvalue, ← heq]
        exact he'
      rw [writeEntry_of_mem (ofList l).nodup hheld]
      simp [hempty e (by simp) rfl]
    · rw [← List.mem_eraseDups, ← names_ofList] at hname
      rw [writeEntry_of_notMem e.2 hname, List.flatMap_append]

end Slots

section Named

variable {α : Type} {entries : List (String × α)} {name : String}

theorem exists_find?_name_iff :
    (∃ e, entries.find? (fun e => e.1 = name) = some e) ↔ name ∈ entries.map (·.1) := by
  rw [← Option.isSome_iff_exists, List.find?_isSome]
  simp

theorem find?_name_eq_none_iff :
    entries.find? (fun e => e.1 = name) = none ↔ name ∉ entries.map (·.1) := by
  rw [← exists_find?_name_iff, ← Option.ne_none_iff_exists', not_not]

end Named

end RecordGraph
