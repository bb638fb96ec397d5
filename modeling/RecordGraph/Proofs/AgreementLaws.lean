import RecordGraph.Proofs.Agreement

/-!
Laws of agreement. Agreement is symmetric, and a value agrees with itself unless a null or a
NaN stands in it. Among values without floating-point numbers nothing else tells agreement
and equality of data apart.
-/

namespace RecordGraph

open Number

namespace PropertyValue

/-- A value is another one, or stands in its lists at some depth. -/
inductive Occurs (v : PropertyValue) : PropertyValue → Prop
  | here : Occurs v v
  | item {items : List PropertyValue} {w : PropertyValue} (hw : w ∈ items) (h : Occurs v w) :
      Occurs v (.list items)

theorem occurs_list_iff {v : PropertyValue} {items : List PropertyValue} :
    Occurs v (.list items) ↔ v = .list items ∨ ∃ w ∈ items, Occurs v w := by
  constructor
  · rintro (_ | ⟨hw, h⟩)
    · exact .inl rfl
    · exact .inr ⟨_, hw, h⟩
  · rintro (rfl | ⟨w, hw, h⟩)
    · exact .here
    · exact .item hw h

theorem occurs_iff_eq {v w : PropertyValue} (hw : ∀ items, w ≠ .list items) :
    Occurs v w ↔ v = w := by
  constructor
  · rintro (_ | ⟨_, _⟩)
    · rfl
    · exact absurd rfl (hw _)
  · rintro rfl
    exact .here

mutual

theorem comparable_iff : (v : PropertyValue) →
    (v.comparable = true ↔ ¬ Occurs .null v ∧ ¬ Occurs (.float .nan) v)
  | .null | .boolean _ | .integer _ | .string _ => by simp [comparable, occurs_iff_eq]
  | .float x => by
    have hscalar (v : PropertyValue) : Occurs v (.float x) ↔ v = .float x := occurs_iff_eq nofun
    rw [comparable, decide_eq_true_iff, hscalar, hscalar, ne_comm]
    simp
  | .list items => by
    rw [comparable, comparableAll_iff items, occurs_list_iff, occurs_list_iff]
    simp [forall_and]

theorem comparableAll_iff : (items : List PropertyValue) →
    (comparableAll items = true ↔ ∀ v ∈ items, ¬ Occurs .null v ∧ ¬ Occurs (.float .nan) v)
  | [] => by simp [comparableAll]
  | v :: rest => by
    rw [comparableAll, Bool.and_eq_true, comparable_iff v, comparableAll_iff rest,
      List.forall_mem_cons]

end

mutual

theorem agrees_comm : (a b : PropertyValue) → a.agrees b = b.agrees a
  | .list items, .list items' => agreesList_comm items items'
  | .boolean _, .boolean _ | .integer _, .integer _ | .string _, .string _ => BEq.comm
  | .float x, .float y => Binary.equals_comm x y
  | .integer _, .float _ | .float _, .integer _ => rfl
  | .null, b => by cases b <;> rfl
  | a, .null => by cases a <;> rfl
  | .boolean _, .integer _ | .boolean _, .float _ | .boolean _, .string _ | .boolean _, .list _
  | .integer _, .boolean _ | .integer _, .string _ | .integer _, .list _ | .float _, .boolean _
  | .float _, .string _ | .float _, .list _ | .string _, .boolean _ | .string _, .integer _
  | .string _, .float _ | .string _, .list _ | .list _, .boolean _ | .list _, .integer _
  | .list _, .float _ | .list _, .string _ => rfl

theorem agreesList_comm : (as bs : List PropertyValue) → agreesList as bs = agreesList bs as
  | [], [] | [], _ :: _ | _ :: _, [] => rfl
  | a :: as, b :: bs => by
    rw [agreesList, agreesList, agrees_comm a b, agreesList_comm as bs]

end

def FloatFree (v : PropertyValue) : Prop :=
  ∀ x, ¬ Occurs (.float x) v

theorem FloatFree.of_scalar {v : PropertyValue} (hlist : ∀ items, v ≠ .list items)
    (hfloat : ∀ x, v ≠ .float x) : v.FloatFree := fun x hx =>
  hfloat x ((occurs_iff_eq hlist).1 hx).symm

theorem floatFree_list_iff {items : List PropertyValue} :
    (list items).FloatFree ↔ ∀ v ∈ items, v.FloatFree := by
  simp only [FloatFree, occurs_list_iff, not_or, not_exists, not_and, reduceCtorEq,
    not_false_eq_true, true_and]
  exact ⟨fun h v hv x => h x v hv, fun h x v hv => h v hv x⟩

mutual

theorem eq_of_agrees_floatFree : (a b : PropertyValue) → a.FloatFree → b.FloatFree →
    a.agrees b = true → a = b
  | .float x, _, ha, _, _ => absurd .here (ha x)
  | a, .float y, _, hb, _ => absurd .here (hb y)
  | .list items, b, ha, hb, h => by
    cases b with
    | list items' =>
      rw [eq_of_agreesList items items' (floatFree_list_iff.1 ha) (floatFree_list_iff.1 hb) h]
    | _ => cases h
  | .null, b, _, _, h => by cases b <;> cases h
  | .boolean _, b, _, hb, h | .integer _, b, _, hb, h | .string _, b, _, hb, h => by
    cases b with
    | float y => exact absurd .here (hb y)
    | _ => simp_all [agrees]

theorem eq_of_agreesList : (as bs : List PropertyValue) → (∀ v ∈ as, v.FloatFree) →
    (∀ v ∈ bs, v.FloatFree) → agreesList as bs = true → as = bs
  | [], [], _, _, _ => rfl
  | [], _ :: _, _, _, h | _ :: _, [], _, _, h => by cases h
  | a :: as, b :: bs, has, hbs, h => by
    rw [agreesList, Bool.and_eq_true] at h
    obtain ⟨ha, has⟩ := List.forall_mem_cons.1 has
    obtain ⟨hb, hbs⟩ := List.forall_mem_cons.1 hbs
    rw [eq_of_agrees_floatFree a b ha hb h.1, eq_of_agreesList as bs has hbs h.2]

end

/-- Agreement is symmetric and fails to be reflexive only at values that hold a null or a NaN.
Without floating-point numbers it is equality, but for values that hold a null. -/
theorem agreement_laws :
    (∀ a b : PropertyValue, a.agrees b = b.agrees a) ∧
    (∀ v : PropertyValue, v.agrees v = true ↔ ¬ Occurs .null v ∧ ¬ Occurs (.float .nan) v) ∧
    ∀ a b : PropertyValue, a.FloatFree → b.FloatFree →
      (a.agrees b = true ↔ a = b ∧ ¬ Occurs .null a) := by
  have hself (v : PropertyValue) :
      v.agrees v = true ↔ ¬ Occurs .null v ∧ ¬ Occurs (.float .nan) v := by
    rw [agrees_self, comparable_iff]
  refine ⟨agrees_comm, hself, fun a b ha hb => ⟨fun h => ?_, ?_⟩⟩
  · obtain rfl := eq_of_agrees_floatFree a b ha hb h
    exact ⟨rfl, ((hself a).1 h).1⟩
  · rintro ⟨rfl, hnull⟩
    exact (hself a).2 ⟨hnull, ha .nan⟩

end PropertyValue

namespace Sample

def nested (v : PropertyValue) : PropertyValue :=
  .list [.integer 7, .list [.string "a", v], .list []]

theorem floatFree_nested {v : PropertyValue} (h : v.FloatFree) : (nested v).FloatFree := by
  simp only [nested, PropertyValue.floatFree_list_iff, List.forall_mem_cons, List.not_mem_nil,
    false_imp_iff, implies_true, and_true]
  exact ⟨.of_scalar nofun nofun, .of_scalar nofun nofun, h⟩

end Sample

theorem agreement_laws_nested :
    (Sample.nested (.boolean true)).FloatFree ∧ (Sample.nested .null).FloatFree ∧
    (Sample.nested (.boolean true)).agrees (Sample.nested (.boolean true)) = true ∧
    (Sample.nested .null).agrees (Sample.nested .null) = false := by
  have htrue := Sample.floatFree_nested (v := .boolean true) (.of_scalar nofun nofun)
  have hnull := Sample.floatFree_nested (v := .null) (.of_scalar nofun nofun)
  obtain ⟨-, -, heq⟩ := PropertyValue.agreement_laws
  refine ⟨htrue, hnull, (heq _ _ htrue htrue).2 ⟨rfl, ?_⟩, ?_⟩
  · simp [Sample.nested, PropertyValue.occurs_list_iff, PropertyValue.occurs_iff_eq]
  · rw [← Bool.not_eq_true, heq _ _ hnull hnull]
    simp [Sample.nested, PropertyValue.occurs_list_iff, PropertyValue.occurs_iff_eq]

end RecordGraph
