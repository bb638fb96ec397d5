import RecordGraph.Proofs.JsonTokens

/-!
JSON text, written and read back. What is written compactly for a value is read in one way,
whatever follows, as long as each number in it is written as a numeral with its value. The form
that is read has the value that was written if arrays and objects nest at most as deep as the reader
follows them, and is refused otherwise.
-/

namespace RecordGraph

namespace Json

mutual

def depth : Json → Nat
  | array items => depthItems items + 1
  | object members => depthMembers members + 1
  | _ => 0

def depthItems : List Json → Nat
  | [] => 0
  | j :: rest => max (depth j) (depthItems rest)

def depthMembers : List (String × Json) → Nat
  | [] => 0
  | (_, j) :: rest => max (depth j) (depthMembers rest)

end

mutual

/-- Each number in the value is written as a numeral that has its value. -/
def Legible : Json → Prop
  | number n => n.Legible
  | array items => LegibleItems items
  | object members => LegibleMembers members
  | _ => True

def LegibleItems : List Json → Prop
  | [] => True
  | j :: rest => Legible j ∧ LegibleItems rest

def LegibleMembers : List (String × Json) → Prop
  | [] => True
  | (_, j) :: rest => Legible j ∧ LegibleMembers rest

end

/-- What is written has the value, wherever it may nest as deep as the value does. -/
def Written.Denotes (w : Written) (j : Json) : Prop :=
  ∀ bound, w.value? bound = if j.depth ≤ bound then some j else none

theorem itemValues?_eq {ws : List Written} {items : List Json}
    (h : List.Forall₂ Written.Denotes ws items) (bound : Nat) :
    itemValues? bound ws = if depthItems items ≤ bound then some items else none := by
  induction h with
  | nil => simp [itemValues?, depthItems]
  | @cons w j ws items hw more ih =>
    rw [itemValues?, hw bound, ih, depthItems]
    by_cases hj : j.depth ≤ bound <;> by_cases hitems : depthItems items ≤ bound <;>
      simp [hj, hitems]

theorem Written.denotes_array {ws : List Written} {items : List Json}
    (h : List.Forall₂ Denotes ws items) : (array ws).Denotes (.array items) := by
  intro bound
  cases bound with
  | zero => simp [value?, depth]
  | succ bound =>
    rw [value?, itemValues?_eq h, depth]
    by_cases hitems : depthItems items ≤ bound <;> simp [hitems]

/-- What is written for a member has its name and its value. -/
def DenotesMember (m : List TextUnit × Written) (e : String × Json) : Prop :=
  text? m.1 = some e.1 ∧ m.2.Denotes e.2

theorem memberValues?_eq {ms : List (List TextUnit × Written)} {members : List (String × Json)}
    (h : List.Forall₂ DenotesMember ms members) (bound : Nat) :
    memberValues? bound ms = if depthMembers members ≤ bound then some members else none := by
  induction h with
  | nil => simp [memberValues?, depthMembers]
  | @cons m e ms members hm more ih =>
    obtain ⟨units, w⟩ := m
    obtain ⟨name, j⟩ := e
    obtain ⟨hname, hw⟩ := hm
    simp only at hname hw
    rw [memberValues?, hname, Option.bind_some, hw bound, ih, depthMembers]
    by_cases hj : j.depth ≤ bound <;> by_cases hmembers : depthMembers members ≤ bound <;>
      simp [hj, hmembers]

theorem Written.denotes_object {ms : List (List TextUnit × Written)}
    {members : List (String × Json)} (h : List.Forall₂ DenotesMember ms members) :
    (object ms).Denotes (.object members) := by
  intro bound
  cases bound with
  | zero => simp [value?, depth]
  | succ bound =>
    rw [value?, memberValues?_eq h, depth]
    by_cases hmembers : depthMembers members ≤ bound <;> simp [hmembers]

/-- The rule reads the text as `x` before anything that does not go on with a numeral, and a list
of such texts can tell it from its end. -/
structure Spells {α : Type} (rule : Nat → Rule α) (text : List Char) (x : α) : Prop where
  starts : ∃ c more, text = c :: more ∧ isSpace c = false ∧ c ≠ ']' ∧ c ≠ '\x7d'
  reads : ∀ bound rest, text.length ≤ bound → Numeral.Ends rest →
    rule bound (text ++ rest) = some (x, rest)

theorem skip_cons {c : Char} (h : isSpace c = false) (s : List Char) : skip (c :: s) = c :: s := by
  simp [skip, h]

theorem toList_intercalate_cons (t t' : String) (texts : List String) :
    (",".intercalate (t :: t' :: texts)).toList =
      t.toList ++ ',' :: (",".intercalate (t' :: texts)).toList := by
  rw [String.intercalate_cons_of_ne_nil (List.cons_ne_nil _ _), String.toList_append,
    String.toList_append, List.append_assoc]
  rfl

theorem isSpace_of_mark {c : Char} (h : c ∈ [',', ']', '\x7d']) : isSpace c = false := by
  simp only [List.mem_cons, List.not_mem_nil, or_false] at h
  rcases h with rfl | rfl | rfl <;> rfl

theorem ends_cons_of_mark {c : Char} (h : c ∈ [',', ']', '\x7d']) (rest : List Char) :
    Numeral.Ends (c :: rest) := by
  rintro d ⟨⟩
  simp only [List.mem_cons, List.not_mem_nil, or_false] at h
  rcases h with rfl | rfl | rfl <;> decide

namespace Spells

variable {α : Type} {rule : Nat → Rule α} {text : List Char} {x : α} {texts : List String}
  {xs : List α}

theorem length_pos (h : Spells rule text x) : 0 < text.length := by
  obtain ⟨c, more, rfl, -⟩ := h.starts
  exact Nat.succ_pos _

theorem starts_intercalate (h : List.Forall₂ (fun t x => Spells rule t.toList x) texts xs)
    (hne : texts ≠ []) : ∃ c more, (",".intercalate texts).toList = c :: more ∧
      isSpace c = false ∧ c ≠ ']' ∧ c ≠ '\x7d' := by
  cases h with
  | nil => exact absurd rfl hne
  | @cons t x texts xs h more =>
    obtain ⟨c, s, hs, hc⟩ := h.starts
    cases texts with
    | nil => exact ⟨c, s, by simpa using hs, hc⟩
    | cons t' texts =>
      exact ⟨c, _, by rw [toList_intercalate_cons, hs, List.cons_append], hc⟩

theorem length_le_intercalate (h : List.Forall₂ (fun t x => Spells rule t.toList x) texts xs) :
    texts.length ≤ (",".intercalate texts).toList.length := by
  induction h with
  | nil => exact Nat.zero_le _
  | @cons t x texts xs h more ih =>
    have hpos := h.length_pos
    cases texts with
    | nil => simpa using Nat.succ_le_of_lt hpos
    | cons t' texts =>
      simp only [toList_intercalate_cons, List.length_append, List.length_cons] at ih ⊢
      omega

theorem elements_intercalate (h : List.Forall₂ (fun t x => Spells rule t.toList x) texts xs)
    (hne : texts ≠ []) {close : Char} (hclose : close ∈ [']', '\x7d']) {bound fuel : Nat}
    (hbound : (",".intercalate texts).toList.length ≤ bound) (hfuel : texts.length ≤ fuel)
    (rest : List Char) :
    elements close (rule bound) fuel ((",".intercalate texts).toList ++ close :: rest) =
      some (xs, rest) := by
  have hmark := List.mem_cons_of_mem ',' hclose
  have hends := ends_cons_of_mark hmark rest
  have hspace := isSpace_of_mark hmark
  -- the rule looks for a comma first, and the closing mark is none
  have hcomma : close = ',' → False := by
    rintro rfl
    simp at hclose
  induction h generalizing fuel with
  | nil => exact absurd rfl hne
  | @cons t x texts xs h more ih =>
    obtain ⟨fuel, rfl⟩ := Nat.exists_eq_add_of_lt (show 0 < fuel by simp at hfuel; omega)
    rw [List.length_cons, Nat.zero_add, Nat.add_le_add_iff_right] at hfuel
    cases texts with
    | nil =>
      cases more
      simp only [String.intercalate_singleton] at hbound ⊢
      simp [elements, h.reads bound _ hbound hends, skip_cons hspace]
    | cons t' texts =>
      obtain ⟨c, s, hs, hspace, -⟩ := starts_intercalate more (List.cons_ne_nil _ _)
      rw [toList_intercalate_cons] at hbound ⊢
      simp only [List.length_append, List.length_cons] at hbound
      have hread := h.reads bound (',' :: ((",".intercalate (t' :: texts)).toList ++ close :: rest))
        (by omega) (ends_cons_of_mark (by simp) _)
      have hmore := ih (List.cons_ne_nil _ _) (by omega) hfuel
      have hskip : skip ((",".intercalate (t' :: texts)).toList ++ close :: rest) =
          (",".intercalate (t' :: texts)).toList ++ close :: rest := by
        rw [hs]
        exact skip_cons hspace _
      simp only [List.append_assoc, List.cons_append, elements, Nat.zero_add, hread,
        Option.bind_some, skip_cons (show isSpace ',' = false by decide), hskip, hmore,
        Option.map_some]

theorem enclosed_intercalate (h : List.Forall₂ (fun t x => Spells rule t.toList x) texts xs)
    {close : Char} (hclose : close ∈ [']', '\x7d']) {bound : Nat}
    (hbound : (",".intercalate texts).toList.length ≤ bound) (rest : List Char) :
    enclosed close (rule bound) bound ((",".intercalate texts).toList ++ close :: rest) =
      some (xs, rest) := by
  by_cases hne : texts = []
  · subst hne
    cases h
    simp [enclosed, skip_cons (isSpace_of_mark (List.mem_cons_of_mem ',' hclose))]
  · have hread := elements_intercalate h hne hclose hbound
      ((length_le_intercalate h).trans hbound) rest
    obtain ⟨c, s, hs, hspace, hsquare, hcurly⟩ := starts_intercalate h hne
    have hother : c ≠ close := by
      rintro rfl
      simp [hsquare, hcurly] at hclose
    rw [hs, List.cons_append] at hread ⊢
    simp only [enclosed, skip_cons hspace, beq_iff_eq, hother, if_false, hread]

theorem null : Spells written "null".toList .null where
  starts := ⟨'n', _, rfl, by decide⟩
  reads bound rest _ _ := by cases bound <;> rfl

theorem bool (b : Bool) : Spells written (compact (.bool b)).toList (.bool b) where
  starts := by cases b <;> exact ⟨_, _, rfl, by decide⟩
  reads bound rest _ _ := by cases b <;> cases bound <;> rfl

theorem numeral {s : List Char} {m : Numeral} (h : Numeral.scan s = some (m, [])) :
    Spells written s (.numeral m) := by
  obtain ⟨c, more, rfl, hc⟩ := Numeral.head_of_scan h
  have hnumeric : isNumeric c = true := by
    rcases hc with rfl | hdigit
    · rfl
    · simp [isNumeric, hdigit]
  have hspace := isSpace_of_isNumeric hnumeric
  have hother : ∀ d ∈ ['n', 't', 'f', '"', '[', '\x7b', ']', '\x7d'], c ≠ d := by
    rintro d hd rfl
    revert hnumeric
    simp only [List.mem_cons, List.not_mem_nil, or_false] at hd
    rcases hd with rfl | rfl | rfl | rfl | rfl | rfl | rfl | rfl <;> decide
  refine ⟨⟨c, more, rfl, hspace, hother _ (by simp), hother _ (by simp)⟩,
    fun bound rest _ hrest => ?_⟩
  have hscan := Numeral.scan_append h hrest
  rw [List.cons_append] at hscan ⊢
  unfold written
  rw [skip_cons hspace]
  simp [hother 'n', hother 't', hother 'f', hother '"', hother '[', hother '\x7b', hscan]

theorem toList_quoted (s : String) :
    (quoted s).toList = '"' :: (s.toList.flatMap escapeChar ++ ['"']) := by
  simp [quoted, quotedChars]

theorem string (s : String) : Spells written (quoted s).toList (.string (s.toList.map unitOf)) where
  starts := ⟨'"', _, toList_quoted s, by decide⟩
  reads bound rest _ _ := by
    have hbody := stringBody_quoted s.toList rest
    rw [toList_quoted, List.cons_append, List.append_assoc, List.singleton_append]
    cases bound <;> simp [written, skip_cons (show isSpace '"' = false by decide), hbody]

theorem array {ws : List Written}
    (h : List.Forall₂ (fun t w => Spells written t.toList w) texts ws) :
    Spells written ("[" ++ ",".intercalate texts ++ "]").toList (.array ws) := by
  have htext : ("[" ++ ",".intercalate texts ++ "]").toList =
      '[' :: ((",".intercalate texts).toList ++ [']']) := by
    simp only [String.toList_append]
    rfl
  rw [htext]
  refine ⟨⟨'[', _, rfl, by decide⟩, fun bound rest hbound _ => ?_⟩
  simp only [List.length_cons, List.length_append, List.length_nil] at hbound
  obtain ⟨bound, rfl⟩ : ∃ b, bound = b + 1 := ⟨bound - 1, by omega⟩
  have hmark : ']' ∈ [']', '\x7d'] := by simp
  have hlength : (",".intercalate texts).toList.length ≤ bound := by omega
  have hitems := enclosed_intercalate h hmark hlength rest
  simp only [List.cons_append, List.append_assoc, List.nil_append, written,
    skip_cons (show isSpace '[' = false by decide), hitems, Option.map_some]

theorem member {name text : String} {w : Written} (h : Spells written text.toList w) :
    Spells (fun bound => Json.member (written bound)) (quoted name ++ ":" ++ text).toList
      (name.toList.map unitOf, w) := by
  have htext : (quoted name ++ ":" ++ text).toList =
      '"' :: (name.toList.flatMap escapeChar ++ '"' :: ':' :: text.toList) := by
    simp only [String.toList_append, toList_quoted, List.cons_append, List.append_assoc]
    rfl
  rw [htext]
  refine ⟨⟨'"', _, rfl, by decide⟩, fun bound rest hbound hrest => ?_⟩
  simp only [List.length_cons, List.length_append] at hbound
  have hname := stringBody_quoted name.toList (':' :: (text.toList ++ rest))
  have hread := h.reads bound rest (by omega) hrest
  simp only [List.cons_append, List.append_assoc, Json.member, hname, Option.bind_some,
    skip_cons (show isSpace ':' = false by decide), hread, Option.map_some]

theorem object {ms : List (List TextUnit × Written)}
    (h : List.Forall₂ (fun t m => Spells (fun bound => Json.member (written bound)) t.toList m)
      texts ms) :
    Spells written ("\x7b" ++ ",".intercalate texts ++ "\x7d").toList (.object ms) := by
  have htext : ("\x7b" ++ ",".intercalate texts ++ "\x7d").toList =
      '\x7b' :: ((",".intercalate texts).toList ++ ['\x7d']) := by
    simp only [String.toList_append]
    rfl
  rw [htext]
  refine ⟨⟨'\x7b', _, rfl, by decide⟩, fun bound rest hbound _ => ?_⟩
  simp only [List.length_cons, List.length_append, List.length_nil] at hbound
  obtain ⟨bound, rfl⟩ : ∃ b, bound = b + 1 := ⟨bound - 1, by omega⟩
  have hmark : '\x7d' ∈ [']', '\x7d'] := by simp
  have hlength : (",".intercalate texts).toList.length ≤ bound := by omega
  have hmembers := enclosed_intercalate h hmark hlength rest
  simp only [List.cons_append, List.append_assoc, List.nil_append, written,
    skip_cons (show isSpace '\x7b' = false by decide), hmembers, Option.map_some]

end Spells

mutual

theorem spells_compact : (j : Json) → j.Legible →
    ∃ w, Spells written (compact j).toList w ∧ w.Denotes j
  | .null, _ => ⟨_, .null, fun _ => by simp [Written.value?, depth]⟩
  | .bool b, _ => ⟨_, .bool b, fun _ => by simp [Written.value?, depth]⟩
  | .number n, h => by
    obtain ⟨m, hscan, hvalue⟩ := h
    exact ⟨_, .numeral hscan, fun _ => by simp [Written.value?, depth, hvalue]⟩
  | .string s, _ => ⟨_, .string s, fun _ => by
      simp [Written.value?, depth, text?, chars?_unitOf]⟩
  | .array items, h => by
    obtain ⟨ws, htexts, hdenotes⟩ := spells_compactItems items h
    exact ⟨_, .array htexts, Written.denotes_array hdenotes⟩
  | .object members, h => by
    obtain ⟨ms, htexts, hdenotes⟩ := spells_compactMembers members h
    exact ⟨_, .object htexts, Written.denotes_object hdenotes⟩

theorem spells_compactItems : (items : List Json) → LegibleItems items →
    ∃ ws, List.Forall₂ (fun t w => Spells written t.toList w) (compactItems items) ws ∧
      List.Forall₂ Written.Denotes ws items
  | [], _ => ⟨[], .nil, .nil⟩
  | j :: rest, h => by
    obtain ⟨w, htext, hdenotes⟩ := spells_compact j h.1
    obtain ⟨ws, htexts, hmore⟩ := spells_compactItems rest h.2
    exact ⟨w :: ws, .cons htext htexts, .cons hdenotes hmore⟩

theorem spells_compactMembers : (members : List (String × Json)) → LegibleMembers members →
    ∃ ms, List.Forall₂ (fun t m => Spells (fun bound => member (written bound)) t.toList m)
        (compactMembers members) ms ∧ List.Forall₂ DenotesMember ms members
  | [], _ => ⟨[], .nil, .nil⟩
  | (name, j) :: rest, h => by
    obtain ⟨w, htext, hdenotes⟩ := spells_compact j h.1
    obtain ⟨ms, htexts, hmore⟩ := spells_compactMembers rest h.2
    exact ⟨_ :: ms, .cons htext.member htexts,
      .cons ⟨by simp [text?, chars?_unitOf], hdenotes⟩ hmore⟩

end

theorem Written.read?_of_spells {text : String} {w : Written}
    (h : Spells written text.toList w) : Written.read? text = some w := by
  have hread := h.reads text.toList.length [] le_rfl nofun
  rw [List.append_nil] at hread
  simp only [Written.read?, hread, Option.bind_some, skip, List.dropWhile_nil, List.isEmpty_nil,
    if_true]

/-- A value is read back from its compact text if it nests at most as deep as the reader follows,
and no value is read otherwise. -/
theorem read?_compact {j : Json} (h : j.Legible) :
    read? (compact j) = if j.depth ≤ maxDepth then some j else none := by
  obtain ⟨w, htext, hdenotes⟩ := spells_compact j h
  rw [read?, Written.read?_of_spells htext, Option.bind_some, hdenotes]

end Json

theorem JsonNumber.Legible.read? {n : JsonNumber} (h : n.Legible) :
    Json.read? (Json.numberText n) = some (.number n) :=
  (Json.read?_compact (j := .number n) h).trans (if_pos (Nat.zero_le _))

end RecordGraph
