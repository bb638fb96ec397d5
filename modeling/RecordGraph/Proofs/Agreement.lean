import RecordGraph.Compiler.Identity
import RecordGraph.Proofs.RecordFields
import RecordGraph.Proofs.Stored

/-!
Agreement of property values. A value agrees with itself unless a null or a NaN
stands in it, and keys agree only when they are equal. What a record's own field
is stored as is such a value, since no literal can be written for a NaN.
-/

namespace RecordGraph

open Number Statement

namespace Number.Binary

variable {F G : Format}

theorem ofRounded_ne_nan (negative : Bool) (m u : Nat) : ofRounded F negative m u ≠ .nan := by
  unfold ofRounded
  rcases (if m = Nat.pow 2 F.precision then (Nat.pow 2 (F.precision - 1), u + 1) else (m, u))
    with ⟨m, u⟩
  by_cases h : F.Fits m u <;> simp [h]

theorem ofRatio_ne_nan (negative : Bool) (num den : Nat) : ofRatio F negative num den ≠ .nan :=
  ofRounded_ne_nan _ _ _

theorem ofDecimal_ne_nan (d : Decimal) : ofDecimal F d ≠ .nan := by
  unfold ofDecimal
  split_ifs <;> first | exact ofRatio_ne_nan _ _ _ | simp [zero]

theorem asDouble_ne_nan {x : Binary F} (h : x.isFinite = true) : x.asDouble ≠ .nan := by
  unfold asDouble
  split
  · cases x with
    | nan => simp [isFinite] at h
    | infinity s => simp [isFinite] at h
    | finite s m u hfits => exact ofRatio_ne_nan _ _ _
  · obtain ⟨d, hd⟩ := shortest_of_isFinite h .larger
    rw [hd]
    exact ofDecimal_ne_nan d

end Number.Binary

namespace PropertyValue

mutual

/-- No null and no NaN stands in the value, at any depth. -/
def comparable : PropertyValue → Bool
  | null => false
  | float x => x ≠ .nan
  | list items => comparableAll items
  | _ => true

def comparableAll : List PropertyValue → Bool
  | [] => true
  | v :: rest => comparable v && comparableAll rest

end

mutual

theorem agrees_self : (v : PropertyValue) → v.agrees v = v.comparable
  | null => rfl
  | boolean b => by simp [agrees, comparable]
  | integer i => by simp [agrees, comparable]
  | float x => by
    rw [agrees, comparable, Bool.eq_iff_iff, Binary.equals_self_iff, decide_eq_true_iff]
  | string s => by simp [agrees, comparable]
  | list items => by rw [agrees, comparable, agreesList_self]

theorem agreesList_self : (items : List PropertyValue) →
    agreesList items items = comparableAll items
  | [] => rfl
  | v :: rest => by rw [agreesList, comparableAll, agrees_self, agreesList_self]

end

/-- Integers and strings, the values that a key is stored as. -/
def isKey : PropertyValue → Bool
  | integer _ | string _ => true
  | _ => false

theorem agrees_key_iff {a b : PropertyValue} (ha : ∀ x, a ≠ .float x) (hb : b.isKey = true) :
    a.agrees b = true ↔ a = b := by
  cases a <;> cases b <;> simp_all [isKey, agrees]

theorem agrees_iff_eq {a b : PropertyValue} (ha : a.isKey = true) (hb : b.isKey = true) :
    a.agrees b = true ↔ a = b := by
  refine agrees_key_iff (fun x hx => ?_) hb
  simp [hx, isKey] at ha

end PropertyValue

theorem isKey_stored {v : FieldValue} (h : Identity.isKey v = true) : v.stored.isKey = true := by
  cases v <;> simp_all [Identity.isKey, PropertyValue.isKey]

theorem comparable_of_accepts {type : ScalarType} {v : FieldValue} {t : String}
    (haccepts : type.accepts v = true) (h : literal .cypher v = .ok t) :
    v.stored.comparable = true := by
  cases v with
  | float x =>
    have hfin := (readsValue_floatLiteral Format.single_withinReach h).1
    simpa [PropertyValue.comparable] using Binary.asDouble_ne_nan hfin
  | double x =>
    have hfin := (readsValue_floatLiteral Format.double_withinReach h).1
    have hne : x ≠ .nan := by
      rintro rfl
      simp [Binary.isFinite] at hfin
    simpa [PropertyValue.comparable] using hne
  | _ => simp_all [ScalarType.accepts, PropertyValue.comparable]

theorem comparableAll_of_checkScalars {type : ScalarType} {nullable : Bool}
    {items : List FieldValue} {ts : List String}
    (hcheck : FieldShape.checkScalars type nullable items = .ok ())
    (hnull : ∀ v ∈ items, v.isNull = false) (h : literals .cypher items = .ok ts) :
    PropertyValue.comparableAll (FieldValue.storedAll items) = true := by
  induction items generalizing ts with
  | nil => rfl
  | cons v rest ih =>
    simp only [literals, bind_eq_ok, pure_eq_ok] at h
    obtain ⟨t, ht, more, hmore, rfl⟩ := h
    have hv := hnull v List.mem_cons_self
    have hrest := fun w hw => hnull w (List.mem_cons_of_mem _ hw)
    unfold FieldShape.checkScalars at hcheck
    rw [if_neg (by simp [hv])] at hcheck
    split at hcheck
    · rename_i haccepts
      simp [PropertyValue.comparableAll, comparable_of_accepts haccepts ht, ih hcheck hrest hmore]
    · simp at hcheck

theorem Layout.Bound.isNull_stored {b : Layout.Bound}
    (hcheck : b.shape.checkValue b.value = .ok ()) (hshape : b.shape.isStructural = false) :
    b.value.stored.isNull = b.value.isNull := by
  have hrecords := records_eq_nil hshape hcheck
  cases hv : b.value with
  | record schema entries => simp [hv, FieldValue.records] at hrecords
  | _ => rfl

theorem Record.Holds.isNull_stored {r : Record} {layout : Layout} {bound : List Layout.Bound}
    (hlayout : Layout.classify r.schema = .ok layout) (hbound : layout.bind r = .ok bound)
    {name : String} {v : FieldValue} (h : r.Holds name v) : v.stored.isNull = v.isNull := by
  obtain ⟨b, hb, hshape, -, rfl⟩ := (Record.holds_iff hlayout hbound).1 h
  exact Layout.Bound.isNull_stored (Record.bound_fits hbound b hb).2 hshape

theorem Layout.Bound.comparable_stored {b : Layout.Bound} {t : String}
    (hcheck : b.shape.checkValue b.value = .ok ()) (hshape : b.shape.isStructural = false)
    (hnull : b.value.isNull = false)
    (hitems : ∀ items, b.value = .array items → ∀ v ∈ items, v.isNull = false)
    (h : literal .cypher b.value = .ok t) : b.value.stored.comparable = true := by
  obtain ⟨name, ⟨kind, nullable, nullableItems⟩, value⟩ := b
  simp only [FieldShape.checkValue, hnull, Bool.false_eq_true, if_false] at hcheck
  cases kind with
  | scalar type =>
    have haccepts : type.accepts value = true := by
      cases value <;> simp_all
    exact comparable_of_accepts haccepts h
  | scalarList type =>
    cases value with
    | array items =>
      obtain ⟨ts, hts, -⟩ := map_eq_ok.1 h
      exact comparableAll_of_checkScalars hcheck (hitems items rfl) hts
    | _ => simp at hcheck
  | nested schema => simp [FieldShape.isStructural, ShapeKind.isStructural] at hshape
  | nestedList schema => simp [FieldShape.isStructural, ShapeKind.isStructural] at hshape

end RecordGraph
