import RecordGraph.Proofs.Agreement
import RecordGraph.Proofs.Matching
import RecordGraph.Proofs.WholeNumbers

/-!
Stores with unique keys. No two nodes have the same key, so a value matches one
node at most as long as it agrees with one key at most. Every value does except
a floating-point number from `2 ^ 53` on that several integers are rounded to: it
matches two nodes exactly if two of these integers are keys of the store.
-/

namespace RecordGraph

open Number

namespace PropertyValue

/-- A floating-point number from `2 ^ 53` on that two integers round to. -/
def Blurs (v k l : PropertyValue) : Prop :=
  ∃ x i j, v = .float x ∧ k = .integer i ∧ l = .integer j ∧
    2 ^ Format.double.precision * 2 ^ Format.double.scale ≤ x.steps ∧
    (Binary.ofInt .double i.toInt).equals x = true ∧ (Binary.ofInt .double j.toInt).equals x = true

theorem not_blurs_of_isKey {v k l : PropertyValue} (hv : v.isKey = true) : ¬ v.Blurs k l := by
  rintro ⟨x, i, j, rfl, -⟩
  cases hv

theorem Blurs.agrees {v k l : PropertyValue} (h : v.Blurs k l) :
    k.agrees v = true ∧ l.agrees v = true := by
  obtain ⟨x, i, j, rfl, rfl, rfl, -, hi, hj⟩ := h
  exact ⟨hi, hj⟩

theorem blurs_of_agrees {k l v : PropertyValue} (hk : k.isKey = true) (hl : l.isKey = true)
    (hne : k ≠ l) (hkv : k.agrees v = true) (hlv : l.agrees v = true) : v.Blurs k l := by
  by_cases hv : v.isKey = true
  · exact absurd (((agrees_iff_eq hk hv).1 hkv).trans ((agrees_iff_eq hl hv).1 hlv).symm) hne
  cases v with
  | integer _ | string _ => exact absurd rfl hv
  | float x =>
    cases k with
    | integer i =>
      cases l with
      | integer j =>
        refine ⟨x, i, j, rfl, rfl, rfl, Nat.le_of_not_lt fun hx => hne ?_, hkv, hlv⟩
        have hij := Binary.ofInt_eq_of_equals (by decide) hx (Binary.isFinite_ofInt_toInt i)
          (Binary.isFinite_ofInt_toInt j) hkv hlv
        rw [Int64.toInt_inj.1 hij]
      | _ => simp [isKey, agrees] at hl hlv
    | _ => simp [isKey, agrees] at hk hkv
  | _ => cases k <;> simp [isKey, agrees] at hk hkv

end PropertyValue

/-- Well-formed stores in which what is under the key field is a key, and no two nodes have
the same one. -/
structure Store.Keyed (g : Store) (keyField : String) : Prop where
  wellFormed : g.WellFormed
  isKey : ∀ n ∈ g.nodes, ∀ v, n.property? keyField = some v → v.isKey = true
  unique : ∀ m ∈ g.nodes, ∀ n ∈ g.nodes, ∀ v, m.property? keyField = some v →
    n.property? keyField = some v → m = n

/-- Two nodes have different keys that the value blurs. -/
def Store.Confuses (g : Store) (keyField : String) (v : PropertyValue) : Prop :=
  ∃ m ∈ g.nodes, ∃ n ∈ g.nodes, ∃ k l, m.property? keyField = some k ∧
    n.property? keyField = some l ∧ k ≠ l ∧ v.Blurs k l

namespace Store.Keyed

variable {g : Store} {keyField : String}

theorem empty (keyField : String) : Store.empty.Keyed keyField :=
  ⟨.empty, by simp [Store.empty], by simp [Store.empty]⟩

theorem agrees_eq_false (h : g.Keyed keyField) {m n : Node} (hm : m ∈ g.nodes) (hn : n ∈ g.nodes)
    (hne : m ≠ n) {v w : PropertyValue} (hv : m.property? keyField = some v)
    (hw : n.property? keyField = some w) : v.agrees w = false := by
  rw [← Bool.not_eq_true, PropertyValue.agrees_iff_eq (h.isKey m hm v hv) (h.isKey n hn w hw)]
  rintro rfl
  exact hne (h.unique m hm n hn v hv hw)

theorem nodup_matching (h : g.Keyed keyField) (v : PropertyValue) :
    (g.matching keyField v).Nodup := by
  have hids : (g.nodes.map (·.id)).Nodup := h.wellFormed.nodeIds ▸ List.nodup_range
  exact (hids.of_map _).filter _

theorem several_matching_iff (h : g.Keyed keyField) (v : PropertyValue) :
    1 < (g.matching keyField v).length ↔ g.Confuses keyField v := by
  constructor
  · intro hlength
    have hnodup := h.nodup_matching v
    rcases hcases : g.matching keyField v with _ | ⟨m, _ | ⟨n, more⟩⟩
    · simp [hcases] at hlength
    · simp [hcases] at hlength
    · have hne : m ≠ n := by
        rintro rfl
        simp [hcases] at hnodup
      obtain ⟨hm, k, hk, hkv⟩ := Store.mem_matching.1 (hcases ▸ List.mem_cons_self)
      obtain ⟨hn, l, hl, hlv⟩ :=
        Store.mem_matching.1 (hcases ▸ List.mem_cons_of_mem m List.mem_cons_self)
      have hkeys : k ≠ l := by
        rintro rfl
        exact hne (h.unique m hm n hn k hk hl)
      exact ⟨m, hm, n, hn, k, l, hk, hl, hkeys, PropertyValue.blurs_of_agrees (h.isKey m hm k hk)
        (h.isKey n hn l hl) hkeys hkv hlv⟩
  · rintro ⟨m, hm, n, hn, k, l, hk, hl, hkeys, hblurs⟩
    have hm := Store.mem_matching.2 ⟨hm, k, hk, hblurs.agrees.1⟩
    have hn := Store.mem_matching.2 ⟨hn, l, hl, hblurs.agrees.2⟩
    have hne : m ≠ n := by
      rintro rfl
      exact hkeys (Option.some.inj (hk.symm.trans hl))
    rcases hcases : g.matching keyField v with _ | ⟨m', _ | ⟨n', more⟩⟩
    · simp [hcases] at hm
    · rw [hcases, List.mem_singleton] at hm hn
      exact absurd (hm.trans hn.symm) hne
    · simp

theorem length_matching_le_one (h : g.Keyed keyField) {v : PropertyValue} (hv : v.isKey = true) :
    (g.matching keyField v).length ≤ 1 := by
  refine Nat.le_of_not_lt fun hlength => ?_
  obtain ⟨m, -, n, -, k, l, -, -, -, hblurs⟩ := (h.several_matching_iff v).1 hlength
  exact PropertyValue.not_blurs_of_isKey hv hblurs

theorem append {g' : Store} {n : Node} (h : g.Keyed keyField) (hg' : g'.WellFormed)
    (hnodes : g'.nodes = g.nodes ++ [n])
    (hn : ∀ v, n.property? keyField = some v → v.isKey = true ∧ g.matching keyField v = []) :
    g'.Keyed keyField := by
  have hnew : ∀ m ∈ g.nodes, ∀ v, m.property? keyField = some v →
      n.property? keyField ≠ some v := by
    intro m hm v hv hnv
    have hself := (PropertyValue.agrees_iff_eq (hn v hnv).1 (hn v hnv).1).2 rfl
    have hmem := Store.mem_matching.2 ⟨hm, v, hv, hself⟩
    rw [(hn v hnv).2] at hmem
    exact List.not_mem_nil hmem
  refine ⟨hg', ?_, ?_⟩
  · intro m hm v hv
    rw [hnodes, List.mem_append, List.mem_singleton] at hm
    rcases hm with hm | rfl
    · exact h.isKey m hm v hv
    · exact (hn v hv).1
  · intro m hm m' hm' v hv hv'
    rw [hnodes, List.mem_append, List.mem_singleton] at hm hm'
    rcases hm with hm | rfl <;> rcases hm' with hm' | rfl
    · exact h.unique m hm m' hm' v hv hv'
    · exact absurd hv' (hnew m hm v hv)
    · exact absurd hv (hnew m' hm' v hv')
    · rfl

theorem map {g' : Store} {f : Node → Node} (h : g.Keyed keyField) (hg' : g'.WellFormed)
    (hnodes : g'.nodes = g.nodes.map f)
    (hf : ∀ n ∈ g.nodes, (f n).property? keyField = n.property? keyField) :
    g'.Keyed keyField := by
  refine ⟨hg', ?_, ?_⟩
  · intro m hm v hv
    rw [hnodes] at hm
    obtain ⟨n, hn, rfl⟩ := List.mem_map.1 hm
    exact h.isKey n hn v ((hf n hn).symm.trans hv)
  · intro m hm m' hm' v hv hv'
    rw [hnodes] at hm hm'
    obtain ⟨n, hn, rfl⟩ := List.mem_map.1 hm
    obtain ⟨n', hn', rfl⟩ := List.mem_map.1 hm'
    have heq := h.unique n hn n' hn' v ((hf n hn).symm.trans hv) ((hf n' hn').symm.trans hv')
    rw [heq]

end Store.Keyed

end RecordGraph
