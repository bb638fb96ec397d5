import Mathlib.Tactic

/-!
Results of computations. A composition succeeds exactly when each of its steps does,
so a computation that has succeeded can be taken apart into the values it passed on,
and one that has failed into those before the step that failed. A computation that looks at the
elements of a list one after the other ends with the first that does not pass. A relation that
gives each element of a list a partner gives the list one.
-/

namespace RecordGraph

variable {ε ε' α β : Type}

theorem bind_eq_ok {x : Except ε α} {f : α → Except ε β} {b : β} :
    (x >>= f) = .ok b ↔ ∃ a, x = .ok a ∧ f a = .ok b := by
  cases x <;> simp [bind, Except.bind]

theorem bind_eq_error {x : Except ε α} {f : α → Except ε β} {e : ε} :
    (x >>= f) = .error e ↔ x = .error e ∨ ∃ a, x = .ok a ∧ f a = .error e := by
  cases x <;> simp [bind, Except.bind]

theorem pure_eq_ok {a b : α} : (pure a : Except ε α) = .ok b ↔ a = b := by
  simp [pure, Except.pure]

theorem map_eq_ok {x : Except ε α} {f : α → β} {b : β} :
    x.map f = .ok b ↔ ∃ a, x = .ok a ∧ f a = b := by
  cases x <;> simp [Except.map]

theorem map_eq_error {x : Except ε α} {f : α → β} {e : ε} :
    x.map f = .error e ↔ x = .error e := by
  cases x <;> simp [Except.map]

theorem mapError_eq_ok {x : Except ε α} {f : ε → ε'} {a : α} :
    x.mapError f = .ok a ↔ x = .ok a := by
  cases x <;> simp [Except.mapError]

theorem mapError_eq_error {x : Except ε α} {f : ε → ε'} {e : ε'} :
    x.mapError f = .error e ↔ ∃ cause, x = .error cause ∧ f cause = e := by
  cases x <;> simp [Except.mapError]

theorem exists_error_iff {x : Except ε α} : (∃ e, x = .error e) ↔ ¬ ∃ a, x = .ok a := by
  cases x <;> simp

theorem exists_forall₂_iff {R : α → β → Prop} {xs : List α} :
    (∃ ys, List.Forall₂ R xs ys) ↔ ∀ x ∈ xs, ∃ y, R x y := by
  induction xs with
  | nil => simp
  | cons x rest ih =>
    rw [List.forall_mem_cons, ← ih]
    constructor
    · rintro ⟨ys, h⟩
      obtain ⟨y, more, hy, hmore, -⟩ := List.forall₂_cons_left_iff.1 h
      exact ⟨⟨y, hy⟩, more, hmore⟩
    · rintro ⟨⟨y, hy⟩, more, hmore⟩
      exact ⟨y :: more, .cons hy hmore⟩

/-- The first element that fails does so as told, and all before it pass. -/
def First {α : Type} (pass fail : α → Prop) (xs : List α) : Prop :=
  ∃ before x after, xs = before ++ x :: after ∧ (∀ y ∈ before, pass y) ∧ fail x

namespace First

variable {α : Type} {pass fail : α → Prop}

theorem nil_iff : First pass fail [] ↔ False := by
  simp [First]

theorem cons_iff {x : α} {xs : List α} :
    First pass fail (x :: xs) ↔ fail x ∨ pass x ∧ First pass fail xs := by
  constructor
  · rintro ⟨before, y, after, hsplit, hbefore, hy⟩
    cases before with
    | nil =>
      obtain ⟨rfl, -⟩ := List.cons.inj hsplit
      exact .inl hy
    | cons z before =>
      obtain ⟨rfl, rfl⟩ := List.cons.inj hsplit
      obtain ⟨hz, hbefore⟩ := List.forall_mem_cons.1 hbefore
      exact .inr ⟨hz, before, y, after, rfl, hbefore, hy⟩
  · rintro (hx | ⟨hx, before, y, after, rfl, hbefore, hy⟩)
    · exact ⟨[], x, xs, rfl, by simp, hx⟩
    · exact ⟨x :: before, y, after, rfl, List.forall_mem_cons.2 ⟨hx, hbefore⟩, hy⟩

theorem append_iff {xs ys : List α} :
    First pass fail (xs ++ ys) ↔ First pass fail xs ∨ (∀ x ∈ xs, pass x) ∧ First pass fail ys := by
  induction xs with
  | nil => simp [nil_iff]
  | cons x xs ih =>
    rw [List.cons_append, cons_iff, cons_iff, ih, List.forall_mem_cons]
    tauto

theorem imp {fail' : α → Prop} {xs : List α} (h : First pass fail xs)
    (hfail : ∀ x ∈ xs, fail x → fail' x) : First pass fail' xs := by
  obtain ⟨before, x, after, rfl, hbefore, hx⟩ := h
  exact ⟨before, x, after, rfl, hbefore, hfail x (by simp) hx⟩

end First

/-- A computation that looks at elements one after the other: it succeeds if all of them pass, and
otherwise its error is that of the first that fails. -/
structure Checks {ε α β : Type} (pass : β → Prop) (fail : ε → β → Prop) (xs : List β)
    (result : Except ε α) : Prop where
  ok_iff : (∃ a, result = .ok a) ↔ ∀ x ∈ xs, pass x
  error_iff : ∀ e, result = .error e ↔ First pass (fail e) xs

namespace Checks

variable {ε α β γ : Type} {pass : β → Prop} {fail : ε → β → Prop} {xs ys : List β}

theorem ok (pass : β → Prop) (fail : ε → β → Prop) (a : α) :
    Checks pass fail [] (.ok a : Except ε α) :=
  ⟨by simp, by simp [First.nil_iff]⟩

theorem single {x : β} {result : Except ε α} (hok : (∃ a, result = .ok a) ↔ pass x)
    (herror : ∀ e, result = .error e ↔ fail e x) : Checks pass fail [x] result :=
  ⟨by simpa using hok, fun e => by simpa [First.cons_iff, First.nil_iff] using herror e⟩

/-- The bind lemma: what is passed on is checked after all that came before. -/
theorem bind {result : Except ε α} {f : α → Except ε γ} (h : Checks pass fail xs result)
    (hf : ∀ a, result = .ok a → Checks pass fail ys (f a)) :
    Checks pass fail (xs ++ ys) (result >>= f) := by
  constructor
  · simp only [bind_eq_ok, List.forall_mem_append, ← h.ok_iff]
    constructor
    · rintro ⟨b, a, ha, hb⟩
      exact ⟨⟨a, ha⟩, (hf a ha).ok_iff.1 ⟨b, hb⟩⟩
    · rintro ⟨⟨a, ha⟩, hys⟩
      obtain ⟨b, hb⟩ := (hf a ha).ok_iff.2 hys
      exact ⟨b, a, ha, hb⟩
  · intro e
    rw [bind_eq_error, First.append_iff, ← h.ok_iff, h.error_iff]
    refine or_congr_right ⟨?_, ?_⟩
    · rintro ⟨a, ha, he⟩
      exact ⟨⟨a, ha⟩, ((hf a ha).error_iff e).1 he⟩
    · rintro ⟨⟨a, ha⟩, hfirst⟩
      exact ⟨a, ha, ((hf a ha).error_iff e).2 hfirst⟩

theorem map {result : Except ε α} (h : Checks pass fail xs result) (f : α → γ) :
    Checks pass fail xs (result >>= fun a => pure (f a)) := by
  have hmap : Checks pass fail (xs ++ []) (result >>= fun a => pure (f a)) :=
    h.bind fun a _ => .ok pass fail (f a)
  rwa [List.append_nil] at hmap

theorem cons_of_pass {x : β} {result : Except ε α} (hpass : pass x) (hfail : ∀ e, ¬fail e x)
    (h : Checks pass fail xs result) : Checks pass fail (x :: xs) result :=
  ⟨by simp [h.ok_iff, hpass], fun e => by simp [h.error_iff, First.cons_iff, hpass, hfail e]⟩

theorem cons_of_fail {x : β} {cause : ε} (hpass : ¬pass x) (hfail : ∀ e, fail e x ↔ cause = e) :
    Checks pass fail (x :: xs) (.error cause : Except ε α) :=
  ⟨by simp [hpass], fun e => by simp [First.cons_iff, hpass, hfail e]⟩

end Checks

end RecordGraph
