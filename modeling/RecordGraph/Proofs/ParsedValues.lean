import RecordGraph.Proofs.Agreement
import RecordGraph.Dialect.Parser

/-!
Values in parsed statements. A rule gives on what the rules inside it give, so a
property of every value in a text passes from values to patterns, clauses and
statements. No text writes a NaN: a parsed value agrees with itself unless a null
stands in it.
-/

namespace RecordGraph

open Number

namespace PropertyValue

mutual

def holdsNull : PropertyValue → Bool
  | null => true
  | list items => someHoldsNull items
  | _ => false

def someHoldsNull : List PropertyValue → Bool
  | [] => false
  | v :: rest => holdsNull v || someHoldsNull rest

end

/-- Only a null can keep the value from agreeing with itself. -/
def Plain (v : PropertyValue) : Prop :=
  v.comparable = !v.holdsNull

theorem plain_list {items : List PropertyValue} (h : ∀ v ∈ items, v.Plain) :
    (list items).Plain := by
  induction items with
  | nil => rfl
  | cons v rest ih =>
    obtain ⟨hv, hrest⟩ := List.forall_mem_cons.1 h
    have hlist := ih hrest
    simp only [Plain, comparable, comparableAll, holdsNull, someHoldsNull, Bool.not_or] at hv hlist ⊢
    rw [hv, hlist]

end PropertyValue

namespace Dialect

variable {α : Type} {P : α → Prop}

def Yields (P : α → Prop) (rule : Rule α) : Prop :=
  ∀ s x r, rule s = some (x, r) → P x

def Passes (P : α → Prop) (c : Checked α) : Prop :=
  ∀ x, c = .ok x → P x

theorem Passes.map {β : Type} {Q : β → Prop} {f : α → β} {c : Checked α} (h : Passes P c)
    (hf : ∀ x, P x → Q (f x)) : Passes Q (c.map f) := by
  intro y hy
  obtain ⟨x, hx, rfl⟩ := map_eq_ok.1 hy
  exact hf x (h x hx)

theorem passes_checkAll {cs : List (Checked α)} (h : ∀ c ∈ cs, Passes P c) :
    Passes (fun xs => ∀ x ∈ xs, P x) (checkAll cs) := by
  induction cs with
  | nil =>
    rintro xs ⟨⟩
    simp
  | cons c rest ih =>
    obtain ⟨hc, hrest⟩ := List.forall_mem_cons.1 h
    intro xs hxs
    simp only [checkAll, bind_eq_ok, pure_eq_ok] at hxs
    obtain ⟨x, hx, more, hmore, rfl⟩ := hxs
    exact List.forall_mem_cons.2 ⟨hc x hx, ih hrest more hmore⟩

/-! Lists of items -/

theorem Yields.items {item : Rule α} (h : Yields P item) (fuel : Nat) :
    Yields (fun xs => ∀ x ∈ xs, P x) (items item fuel) := by
  induction fuel with
  | zero => nofun
  | succ fuel ih =>
    intro s xs r hread
    obtain ⟨⟨x, t⟩, hx, hread⟩ := Option.map_eq_some_iff.1 hread
    have hP := h s x t hx
    dsimp only at hread
    split at hread
    · obtain ⟨rfl, -⟩ := Prod.mk.inj hread
      simpa using hP
    · split at hread
      · rename_i more _ hmore
        obtain ⟨rfl, -⟩ := Prod.mk.inj hread
        exact List.forall_mem_cons.2 ⟨hP, ih _ _ _ hmore⟩
      · obtain ⟨rfl, -⟩ := Prod.mk.inj hread
        simpa using hP

theorem Yields.enclosed {item : Rule α} (h : Yields P item) (close : Char) :
    Yields (fun xs => ∀ x ∈ xs, P x) (enclosed item close) := by
  intro s xs r hread
  obtain ⟨r', -, hxs⟩ := Option.map_eq_some_iff.1 hread
  obtain ⟨rfl, -⟩ := Prod.mk.inj hxs
  cases hitems : Dialect.items item ((skip s).length + 1) (skip s) with
  | none => simp
  | some found => exact h.items _ _ _ _ hitems

theorem Yields.many {item : Rule α} (h : Yields P item) (fuel : Nat) (s : List Char) :
    ∀ x ∈ (many item fuel s).1, P x := by
  induction fuel generalizing s with
  | zero => simp [Dialect.many]
  | succ fuel ih =>
    unfold Dialect.many
    split
    · simp
    · rename_i x r hx
      exact List.forall_mem_cons.2 ⟨h _ _ _ hx, ih r⟩

/-! Values -/

theorem passes_integerValue (negative : Bool) (digits : List Char) :
    Passes PropertyValue.Plain (integerValue negative digits) := by
  intro v hv
  unfold integerValue at hv
  generalize (if negative = true then -(valueOf digits : Int) else (valueOf digits : Int)) = n at hv
  dsimp only at hv
  split at hv
  · cases hv
    rfl
  · cases hv

theorem yields_number : Yields (Passes PropertyValue.Plain) number := by
  have hfloat (negative : Bool) (whole fraction : List Char) (e : Int) :
      Passes PropertyValue.Plain (.ok (floatValue negative whole fraction e)) := by
    rintro _ ⟨⟩
    simp [PropertyValue.Plain, floatValue, PropertyValue.comparable, PropertyValue.holdsNull,
      Binary.ofDecimal_ne_nan]
  intro s c r hread
  obtain ⟨⟨⟨negative, whole⟩, t⟩, -, hread⟩ := Option.map_eq_some_iff.1 hread
  dsimp only at hread
  split at hread
  · split at hread <;>
    · obtain ⟨rfl, -⟩ := Prod.mk.inj hread
      exact hfloat _ _ _ _
  · split at hread
    · obtain ⟨rfl, -⟩ := Prod.mk.inj hread
      exact hfloat _ _ _ _
    · obtain ⟨rfl, -⟩ := Prod.mk.inj hread
      exact passes_integerValue negative whole

theorem yields_value (depth : Nat) : Yields (Passes PropertyValue.Plain) (value depth) := by
  induction depth with
  | zero => nofun
  | succ depth ih =>
    intro s c r hread
    unfold value at hread
    split at hread
    · obtain ⟨⟨t, r'⟩, -, hc⟩ := Option.map_eq_some_iff.1 hread
      obtain ⟨rfl, -⟩ := Prod.mk.inj hc
      rintro _ ⟨⟩
      rfl
    · obtain ⟨⟨cs, r'⟩, hcs, hc⟩ := Option.map_eq_some_iff.1 hread
      obtain ⟨rfl, -⟩ := Prod.mk.inj hc
      exact (passes_checkAll (ih.enclosed ']' _ _ _ hcs)).map fun _ => PropertyValue.plain_list
    · -- What is neither a string nor a list is one of three words or a number.
      split at hread
      · cases hread
        rintro _ ⟨⟩
        rfl
      split at hread
      · cases hread
        rintro _ ⟨⟩
        rfl
      split at hread
      · cases hread
        rintro _ ⟨⟩
        rfl
      · exact yields_number _ _ _ hread

theorem yields_property : Yields (fun e => Passes PropertyValue.Plain e.2) property := by
  intro s e r hread
  simp only [property, Option.bind_eq_bind, Option.bind_eq_some_iff, Option.pure_def,
    Option.some.injEq, Prod.exists, Prod.mk.injEq] at hread
  obtain ⟨key, t, -, t', -, c, t'', hc, rfl, -⟩ := hread
  exact yields_value _ _ _ _ hc

/-! Patterns and statements -/

/-- Every value of the pattern is such that only a null can keep it from agreeing with itself. -/
def NodePattern.Plain (p : NodePattern) : Prop :=
  ∀ e ∈ p.properties.entries, e.2.Plain

theorem passes_propertyMap {done : PropertyMap} (hdone : ∀ e ∈ done.entries, e.2.Plain)
    {ps : List (String × Checked PropertyValue)} (h : ∀ e ∈ ps, Passes PropertyValue.Plain e.2) :
    Passes (fun m => ∀ e ∈ m.entries, e.2.Plain) (propertyMap done ps) := by
  induction ps generalizing done with
  | nil =>
    rintro m ⟨⟩
    exact hdone
  | cons e rest ih =>
    obtain ⟨key, c⟩ := e
    obtain ⟨hc, hrest⟩ := List.forall_mem_cons.1 h
    intro m hm
    unfold propertyMap at hm
    split at hm
    · cases hm
    · rename_i v
      split at hm
      · cases hm
      · refine ih (fun e he => ?_) hrest m hm
        rcases Dict.mem_insertEntry he with rfl | he
        · exact hc v rfl
        · exact hdone e he

theorem yields_nodePattern : Yields (Passes NodePattern.Plain) nodePattern := by
  intro s c r hread
  simp only [nodePattern, Option.bind_eq_bind, Option.bind_eq_some_iff, Option.pure_def,
    Option.some.injEq, Prod.exists, Prod.mk.injEq] at hread
  obtain ⟨t, -, var, t', -, t'', -, rfl, -⟩ := hread
  have hps : ∀ e ∈ (properties (skip (many label t'.length t').2)).1.getD [],
      Passes PropertyValue.Plain e.2 := by
    unfold properties
    split
    · rename_i ps r' hps
      obtain ⟨s', -, hps⟩ := Option.bind_eq_some_iff.1 hps
      exact yields_property.enclosed '}' _ _ _ hps
    · simp
  exact (passes_propertyMap (by simp [Dict.empty]) hps).map fun _ hm => hm

/-- What is merged is a relationship or a plain node pattern. -/
def Clause.MergesPlain (c : Clause) : Prop :=
  ∀ p, c = .mergeNode p → p.Plain

theorem yields_matchClause : Yields (Passes Clause.MergesPlain) matchClause := by
  intro s c r hread
  simp only [matchClause, Option.bind_eq_bind, Option.bind_eq_some_iff, Option.pure_def,
    Option.some.injEq, Prod.exists, Prod.mk.injEq] at hread
  obtain ⟨t, -, p, t', hp, rfl, -⟩ := hread
  exact (yields_nodePattern _ _ _ hp).map fun _ _ _ => nofun

theorem yields_mergeClause : Yields (Passes Clause.MergesPlain) mergeClause := by
  intro s c r hread
  simp only [mergeClause, Option.bind_eq_bind, Option.bind_eq_some_iff, Option.pure_def] at hread
  obtain ⟨t, -, hread⟩ := hread
  split at hread
  · cases hread
    rintro _ ⟨⟩ _ ⟨⟩
  · simp only [Option.bind_eq_some_iff, Option.some.injEq, Prod.exists, Prod.mk.injEq] at hread
    obtain ⟨p, t', hp, rfl, -⟩ := hread
    refine (yields_nodePattern _ _ _ hp).map fun p hplain => ?_
    rintro _ ⟨⟩
    exact hplain

theorem yields_setClause : Yields (Passes Clause.MergesPlain) setClause := by
  intro s c r hread
  simp only [setClause, Option.bind_eq_bind, Option.bind_eq_some_iff, Option.pure_def,
    Option.some.injEq, Prod.exists, Prod.mk.injEq] at hread
  obtain ⟨t, -, var, t', -, t'', -, key, t₃, -, t₄, -, v, t₅, hv, rfl, -⟩ := hread
  exact (yields_value _ _ _ _ hv).map fun _ _ _ => nofun

theorem yields_clause : Yields (Passes Clause.MergesPlain) clause := by
  intro s c r hread
  simp only [clause, Option.orElse_eq_orElse, Option.orElse_eq_or, Option.or_eq_some_iff] at hread
  rcases hread with hread | ⟨-, hread | ⟨-, hread⟩⟩
  · exact yields_matchClause _ _ _ hread
  · exact yields_mergeClause _ _ _ hread
  · exact yields_setClause _ _ _ hread

theorem plain_of_parse {text : String} {s : Statement} (h : parse text = .ok s) {p : NodePattern}
    (hp : .mergeNode p ∈ s.clauses) : p.Plain := by
  unfold parse at h
  cases hread : statement text.toList with
  | none => simp [hread] at h
  | some c =>
    obtain rfl : c = .ok s := by simpa [hread] using h
    simp only [statement, Option.bind_eq_bind, Option.bind_eq_some_iff, Prod.exists] at hread
    obtain ⟨returns, r, -, hread⟩ := hread
    split at hread
    · obtain ⟨cs, hcs, rfl⟩ := map_eq_ok.1 (Option.some.inj hread)
      have hclauses := yields_clause.many text.toList.length text.toList
      exact passes_checkAll hclauses cs hcs _ hp p rfl
    · cases hread

end Dialect

end RecordGraph
