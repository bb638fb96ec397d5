import RecordGraph.Proofs.Clauses
import RecordGraph.Proofs.DictEntries
import RecordGraph.Proofs.Stored

/-!
Layouts of statements. A statement is written as a row of tokens: keywords in any case
of their letters, and marks, names and literals as they are. Blanks may stand before
every token and at the end, and must stand after each clause. Every statement is read
back in every layout.
-/

namespace RecordGraph

namespace PropertyValue

mutual

/-- Whether a value has a literal: no number in it is infinite or no number at all. -/
def isWritable : PropertyValue → Bool
  | float x => x.isFinite
  | list items => isWritableAll items
  | _ => true

def isWritableAll : List PropertyValue → Bool
  | [] => true
  | v :: rest => isWritable v && isWritableAll rest

end

end PropertyValue

namespace Dialect

open RecordGraph.Statement RecordGraph.Number

inductive Token where
  /-- A keyword, given in lower case. -/
  | keyword (word : String)
  | text (text : String)
  | blank

def Token.mark (c : Char) : Token :=
  .text (String.singleton c)

def Token.spells : Token → List Char → Bool
  | keyword k, s => s.map lowerAscii == k.toList
  | text t, s => s == t.toList
  | blank, s => s.length == 1 && s.all isSpace

/-- A row of tokens as it is written: the blanks before each token, and its characters. -/
abbrev Layout := List (Gap × List Char)

namespace Layout

def chars (l : Layout) : List Char :=
  l.flatMap fun p => p.1.chars ++ p.2

def spells : Layout → List Token → Bool
  | [], [] => true
  | p :: l, t :: ts => t.spells p.2 && spells l ts
  | _, _ => false

end Layout

def commas : List (List Token) → List Token
  | [] => []
  | [ts] => ts
  | ts :: more => ts ++ .mark ',' :: commas more

mutual

def valueTokens : PropertyValue → List Token
  | .null => [.keyword "null"]
  | .boolean b => [.keyword (if b then "true" else "false")]
  | .integer i => [.text (intText i.toInt)]
  | .float x => [.text ((floatLiteral x).toOption.getD x.plainText)]
  | .string s => [.text (quote .cypher s)]
  | .list items => .mark '[' :: (commas (itemTokens items) ++ [.mark ']'])

def itemTokens : List PropertyValue → List (List Token)
  | [] => []
  | v :: rest => valueTokens v :: itemTokens rest

end

def nameToken (n : String) : Token :=
  .text (escapeName n)

def entryTokens (e : String × PropertyValue) : List Token :=
  nameToken e.1 :: .mark ':' :: valueTokens e.2

/-- Properties stand between braces in any order; without any, the braces may be left out. -/
inductive PropertyTokens (m : PropertyMap) : List Token → Prop
  | absent (h : m.entries = []) : PropertyTokens m []
  | braces {entries : List (String × PropertyValue)} (h : entries.Perm m.entries) :
      PropertyTokens m (.mark '{' :: (commas (entries.map entryTokens) ++ [.mark '}']))

def labelTokens : List String → List Token
  | [] => []
  | l :: rest => .mark ':' :: nameToken l :: labelTokens rest

inductive NodePattern.WrittenAs (p : NodePattern) : List Token → Prop
  | intro {properties : List Token} (h : PropertyTokens p.properties properties) :
      WrittenAs p (.mark '(' :: .text p.var :: (labelTokens p.labels ++
        (properties ++ [.mark ')'])))

def referenceTokens (var : String) : List Token :=
  [.mark '(', .text var, .mark ')']

def RelationshipPattern.tokens (p : RelationshipPattern) : List Token :=
  referenceTokens p.left ++
    (.text p.arrow.opening :: .mark ':' :: nameToken p.type :: .text p.arrow.closing ::
      referenceTokens p.right)

def Assignment.tokens (a : Assignment) : List Token :=
  .text a.var :: .mark '.' :: nameToken a.key :: .mark '=' :: valueTokens a.value

inductive Clause.WrittenAs : Clause → List Token → Prop
  | matchNode {p : NodePattern} {ts : List Token} (h : p.WrittenAs ts) :
      WrittenAs (.matchNode p) (.keyword "match" :: ts)
  | mergeNode {p : NodePattern} {ts : List Token} (h : p.WrittenAs ts) :
      WrittenAs (.mergeNode p) (.keyword "merge" :: ts)
  | mergeRelationship (p : RelationshipPattern) :
      WrittenAs (.mergeRelationship p) (.keyword "merge" :: p.tokens)
  | set (a : Assignment) : WrittenAs (.set a) (.keyword "set" :: a.tokens)

/-- The clauses, each with blanks after it, and then the return clause. -/
inductive Statement.WrittenAs (s : Statement) : List Token → Prop
  | intro {parts : List (List Token)} (h : List.Forall₂ Clause.WrittenAs s.clauses parts) :
      WrittenAs s (parts.flatMap (· ++ [.blank]) ++ [.keyword "return", .text s.returns])

def isVariable (var : String) : Bool :=
  isPlainName var.toList

def NodePattern.isWritable (p : NodePattern) : Bool :=
  isVariable p.var && p.properties.entries.all fun e => e.2.isWritable

def Clause.isWritable : Clause → Bool
  | .matchNode p => p.isWritable
  | .mergeNode p => p.isWritable
  | .mergeRelationship p => isVariable p.left && isVariable p.right
  | .set a => isVariable a.var && a.value.isWritable

def Statement.isWritable (s : Statement) : Bool :=
  s.clauses.all Clause.isWritable && isVariable s.returns

namespace Gap

def append (g g' : Gap) : Gap :=
  ⟨g.chars ++ g'.chars, by simp [g.blank, g'.blank]⟩

@[simp] theorem chars_append (g g' : Gap) : (g.append g').chars = g.chars ++ g'.chars := rfl

end Gap

/-- Blanks, perhaps none, and after them a text of a kind. -/
def AfterGap (P : List Char → Prop) (s : List Char) : Prop :=
  ∃ (g : Gap) (t : List Char), P t ∧ s = g.chars ++ t

/-- The tokens can be laid out as the text. -/
def Laid (ts : List Token) (s : List Char) : Prop :=
  ∃ l : Layout, l.spells ts = true ∧ s = l.chars

section Laid

variable {t : Token} {ts us : List Token} {s : List Char}

theorem laid_nil (h : Laid [] s) : s = [] := by
  obtain ⟨l, hl, rfl⟩ := h
  cases l with
  | nil => rfl
  | cons p l => cases hl

theorem laid_cons (h : Laid (t :: ts) s) :
    ∃ (g : Gap) (form rest : List Char),
      t.spells form = true ∧ Laid ts rest ∧ s = g.chars ++ (form ++ rest) := by
  obtain ⟨l, hl, rfl⟩ := h
  cases l with
  | nil => cases hl
  | cons p l =>
    obtain ⟨hp, hmore⟩ := Bool.and_eq_true_iff.1 hl
    exact ⟨p.1, p.2, Layout.chars l, hp, ⟨l, hmore, rfl⟩, by simp [Layout.chars]⟩

theorem laid_text {text : String} (h : Laid (.text text :: ts) s) :
    ∃ (g : Gap) (rest : List Char), Laid ts rest ∧ s = g.chars ++ (text.toList ++ rest) := by
  obtain ⟨g, form, rest, hform, hrest, rfl⟩ := laid_cons h
  obtain rfl : form = text.toList := eq_of_beq hform
  exact ⟨g, rest, hrest, rfl⟩

theorem laid_mark {c : Char} (h : Laid (.mark c :: ts) s) :
    ∃ (g : Gap) (rest : List Char), Laid ts rest ∧ s = g.chars ++ c :: rest := by
  obtain ⟨g, rest, hrest, rfl⟩ := laid_text h
  exact ⟨g, rest, hrest, by simp⟩

theorem laid_keyword {k : String} (h : Laid (.keyword k :: ts) s) :
    ∃ (g : Gap) (word rest : List Char),
      Spells word k ∧ Laid ts rest ∧ s = g.chars ++ (word ++ rest) := by
  obtain ⟨g, word, rest, hword, hrest, rfl⟩ := laid_cons h
  exact ⟨g, word, rest, eq_of_beq hword, hrest, rfl⟩

theorem laid_blank (h : Laid (.blank :: ts) s) :
    ∃ (g : Gap) (rest : List Char), g.chars ≠ [] ∧ Laid ts rest ∧ s = g.chars ++ rest := by
  obtain ⟨g, form, rest, hform, hrest, rfl⟩ := laid_cons h
  obtain ⟨hlen, hblank⟩ := Bool.and_eq_true_iff.1 hform
  have hne : form ≠ [] := by
    rintro rfl
    cases hlen
  exact ⟨g.append ⟨form, hblank⟩, rest, by simp [hne], hrest, by simp⟩

theorem laid_append (h : Laid (ts ++ us) s) :
    ∃ a b, Laid ts a ∧ Laid us b ∧ s = a ++ b := by
  induction ts generalizing s with
  | nil => exact ⟨[], s, ⟨[], rfl, rfl⟩, h, rfl⟩
  | cons t ts ih =>
    obtain ⟨g, form, rest, hform, hrest, rfl⟩ := laid_cons h
    obtain ⟨a, b, ⟨l, hl, rfl⟩, hb, rfl⟩ := ih hrest
    exact ⟨_, b, ⟨(g, form) :: l, Bool.and_eq_true_iff.2 ⟨hform, hl⟩, rfl⟩, hb,
      by simp [Layout.chars]⟩

end Laid

namespace Separated

variable {α : Type} {Item : List Char → α → Prop} {xs : List α}

theorem append_gap {s : List Char} (h : Separated Item s xs) (g : Gap) :
    Separated Item (s ++ g.chars) xs := by
  induction h with
  | last g' h => simpa using Separated.last (g'.append g) h
  | cons g' g'' h more ih => simpa using Separated.cons g' g'' h ih

theorem of_laid {parts : List (List Token)}
    (h : List.Forall₂ (fun ts x => ∀ {s}, Laid ts s → AfterGap (Item · x) s) parts xs)
    (hne : parts ≠ []) {s : List Char} (hs : Laid (commas parts) s) :
    AfterGap (Separated Item · xs) s := by
  induction h generalizing s with
  | nil => exact absurd rfl hne
  | @cons ts x parts xs hfirst hmore ih =>
    cases hmore with
    | nil =>
      obtain ⟨g, t, ht, rfl⟩ := hfirst hs
      exact ⟨g, _, .last .none ht, by simp⟩
    | cons =>
      obtain ⟨a, b, ha, hb, rfl⟩ := laid_append hs
      obtain ⟨g', rest, hrest, rfl⟩ := laid_mark hb
      obtain ⟨g, t, ht, rfl⟩ := hfirst ha
      obtain ⟨g'', t', ht', rfl⟩ := ih (List.cons_ne_nil _ _) hrest
      exact ⟨g, _, .cons g' g'' ht ht', by simp⟩

end Separated

/-- Items between an opening and a closing mark. -/
inductive Bracketed {α : Type} (opening closing : Char) (Item : List Char → α → Prop) :
    List Char → List α → Prop
  | empty (g : Gap) : Bracketed opening closing Item (opening :: (g.chars ++ [closing])) []
  | items {body : List Char} {xs : List α} (g : Gap) (h : Separated Item body xs) :
      Bracketed opening closing Item (opening :: (g.chars ++ (body ++ [closing]))) xs

theorem Bracketed.of_laid {α : Type} {opening closing : Char} {Item : List Char → α → Prop}
    {parts : List (List Token)} {xs : List α}
    (h : List.Forall₂ (fun ts x => ∀ {s}, Laid ts s → AfterGap (Item · x) s) parts xs)
    {s : List Char} (hs : Laid (.mark opening :: (commas parts ++ [.mark closing])) s) :
    AfterGap (Bracketed opening closing Item · xs) s := by
  obtain ⟨g, rest, hrest, rfl⟩ := laid_mark hs
  obtain ⟨a, b, ha, hb, rfl⟩ := laid_append hrest
  obtain ⟨g', last, hlast, rfl⟩ := laid_mark hb
  obtain rfl := laid_nil hlast
  refine ⟨g, _, ?_, rfl⟩
  by_cases hne : parts = []
  · subst hne
    cases h
    obtain rfl := laid_nil ha
    exact .empty g'
  · obtain ⟨g'', body, hbody, rfl⟩ := Separated.of_laid h hne ha
    simpa using Bracketed.items g'' (hbody.append_gap g')

theorem Bracketed.readsValue {s : List Char} {vs : List PropertyValue}
    (h : Bracketed '[' ']' ReadsValue s vs) : ReadsValue s (.list vs) := by
  cases h with
  | empty g => exact readsValue_list_nil g
  | items g h => exact readsValue_list h g

theorem Bracketed.readsProperties {s : List Char} {entries : List (String × PropertyValue)}
    (h : Bracketed '{' '}' (Reads property) s (entries.map fun e => (e.1, .ok e.2))) :
    ReadsProperties s entries := by
  generalize hxs : (entries.map fun e => (e.1, Except.ok e.2)) = xs at h
  cases h with
  | empty g =>
    obtain rfl := List.map_eq_nil_iff.1 hxs
    exact .empty g
  | items g h => exact .entries g (hxs ▸ h)

mutual

theorem laid_value : (v : PropertyValue) → v.isWritable = true → ∀ {s}, Laid (valueTokens v) s →
    AfterGap (ReadsValue · v) s
  | .null, _, s, h => by
    obtain ⟨g, word, rest, hword, hrest, rfl⟩ := laid_keyword h
    obtain rfl := laid_nil hrest
    exact ⟨g, word, readsValue_word (by rw [hword]; decide), by simp⟩
  | .boolean b, _, s, h => by
    obtain ⟨g, word, rest, hword, hrest, rfl⟩ := laid_keyword h
    obtain rfl := laid_nil hrest
    exact ⟨g, word, readsValue_word (by rw [hword]; cases b <;> decide), by simp⟩
  | .integer i, _, s, h => by
    obtain ⟨g, rest, hrest, rfl⟩ := laid_text h
    obtain rfl := laid_nil hrest
    exact ⟨g, _, readsValue_integer i, by simp⟩
  | .float x, hv, s, h => by
    obtain ⟨text, htext⟩ := (floatLiteral_ok_iff x).2 hv
    obtain ⟨g, rest, hrest, rfl⟩ := laid_text h
    obtain rfl := laid_nil hrest
    obtain ⟨hfin, hread⟩ := readsValue_floatLiteral Format.double_withinReach htext
    rw [Binary.asDouble_double hfin] at hread
    exact ⟨g, _, hread, by simp [htext, Except.toOption]⟩
  | .string t, _, s, h => by
    obtain ⟨g, rest, hrest, rfl⟩ := laid_text h
    obtain rfl := laid_nil hrest
    exact ⟨g, _, readsValue_string t, by simp⟩
  | .list items, hv, s, h => by
    obtain ⟨g, t, ht, rfl⟩ := Bracketed.of_laid (laid_items items hv) h
    exact ⟨g, t, ht.readsValue, rfl⟩

theorem laid_items : (vs : List PropertyValue) → PropertyValue.isWritableAll vs = true →
    List.Forall₂ (fun ts v => ∀ {s}, Laid ts s → AfterGap (ReadsValue · v) s) (itemTokens vs) vs
  | [], _ => .nil
  | v :: rest, h => by
    obtain ⟨hv, hrest⟩ := Bool.and_eq_true_iff.1 h
    exact .cons (fun hs => laid_value v hv hs) (laid_items rest hrest)

end

theorem laid_entry {e : String × PropertyValue} (he : e.2.isWritable = true) {s : List Char}
    (h : Laid (entryTokens e) s) :
    AfterGap (fun t => Reads property t (e.1, .ok e.2)) s := by
  obtain ⟨g, s', hs', rfl⟩ := laid_text h
  obtain ⟨g', literal, hliteral, rfl⟩ := laid_mark hs'
  obtain ⟨g'', t, ht, rfl⟩ := laid_value e.2 he hliteral
  exact ⟨g, _, reads_property e.1 g' g'' ht, rfl⟩

theorem laid_properties {m : PropertyMap} (hm : m.entries.all (fun e => e.2.isWritable) = true)
    {ts : List Token} (hts : PropertyTokens m ts) {s : List Char} (h : Laid ts s) :
    ∃ entries, entries.Perm m.entries ∧ AfterGap (ReadsProperties · entries) s := by
  cases hts with
  | absent hempty =>
    obtain rfl := laid_nil h
    exact ⟨[], by rw [hempty], .none, [], .absent, rfl⟩
  | @braces entries hperm =>
    refine ⟨entries, hperm, ?_⟩
    have hentries : List.Forall₂ (fun ts x => ∀ {s}, Laid ts s →
        AfterGap (fun t => Reads property t x) s) (entries.map entryTokens)
          (entries.map fun e => (e.1, .ok e.2)) := by
      rw [List.forall₂_map_left_iff, List.forall₂_map_right_iff, List.forall₂_same]
      exact fun e he _ hs => laid_entry (List.all_eq_true.1 hm e (hperm.subset he)) hs
    obtain ⟨g, t, ht, rfl⟩ := Bracketed.of_laid hentries h
    exact ⟨g, t, ht.readsProperties, rfl⟩

theorem laid_labels {labels : List String} {s : List Char} (h : Laid (labelTokens labels) s) :
    ReadsLabels s labels := by
  induction labels generalizing s with
  | nil =>
    obtain rfl := laid_nil h
    exact .nil
  | cons l rest ih =>
    obtain ⟨g, s', hs', rfl⟩ := laid_mark h
    obtain ⟨g', more, hmore, rfl⟩ := laid_text hs'
    exact .cons g g' l (ih hmore)

theorem NodePattern.WrittenAs.readsNode {p : NodePattern} {ts : List Token} (h : p.WrittenAs ts)
    (hp : p.isWritable = true) {s : List Char} (hs : Laid ts s) : AfterGap (ReadsNode · p) s := by
  obtain ⟨hvar, hvalues⟩ := Bool.and_eq_true_iff.1 hp
  cases h with
  | intro hproperties =>
    obtain ⟨g, s₁, hs₁, rfl⟩ := laid_mark hs
    obtain ⟨g₁, s₂, hs₂, rfl⟩ := laid_text hs₁
    obtain ⟨labelText, s₃, hlabels, hs₃, rfl⟩ := laid_append hs₂
    obtain ⟨s₄, closing, hmap, hclosing, rfl⟩ := laid_append hs₃
    obtain ⟨g₃, s₅, hs₅, rfl⟩ := laid_mark hclosing
    obtain rfl := laid_nil hs₅
    obtain ⟨entries, hperm, g₂, properties, hread, rfl⟩ :=
      laid_properties hvalues hproperties hmap
    have hnode := ReadsNode.intro g₁ g₂ g₃ p.var hvar (laid_labels hlabels) hread
      (Dict.nodup_keys_of_perm hperm)
    rw [Dict.ofList_of_perm hperm] at hnode
    exact ⟨g, _, hnode, by simp⟩

theorem laid_reference {var : String} {s : List Char} (h : Laid (referenceTokens var) s) :
    ∃ g g' g'' : Gap, s = g.chars ++ referenceChars g' g'' var := by
  obtain ⟨g, s₁, hs₁, rfl⟩ := laid_mark h
  obtain ⟨g', s₂, hs₂, rfl⟩ := laid_text hs₁
  obtain ⟨g'', s₃, hs₃, rfl⟩ := laid_mark hs₂
  obtain rfl := laid_nil hs₃
  exact ⟨g, g', g'', rfl⟩

theorem laid_relationship {p : RelationshipPattern}
    (hp : (isVariable p.left && isVariable p.right) = true) {s : List Char}
    (h : Laid p.tokens s) : AfterGap (ReadsRelationship · p) s := by
  obtain ⟨hleft, hright⟩ := Bool.and_eq_true_iff.1 hp
  obtain ⟨left, s₁, hl, hs₁, rfl⟩ := laid_append h
  obtain ⟨g₁, s₂, hs₂, rfl⟩ := laid_text hs₁
  obtain ⟨e, s₃, hs₃, rfl⟩ := laid_mark hs₂
  obtain ⟨e', s₄, hs₄, rfl⟩ := laid_text hs₃
  obtain ⟨e'', right, hr, rfl⟩ := laid_text hs₄
  obtain ⟨g, l, l', rfl⟩ := laid_reference hl
  obtain ⟨g₂, r, r', rfl⟩ := laid_reference hr
  exact ⟨g, _, .intro l l' e e' e'' r r' g₁ g₂ p.left p.right p.type p.arrow hleft hright,
    by simp [edgeChars]⟩

theorem laid_assignment {a : Assignment}
    (ha : (isVariable a.var && a.value.isWritable) = true) {s : List Char}
    (h : Laid a.tokens s) : AfterGap (ReadsAssignment · a) s := by
  obtain ⟨hvar, hvalue⟩ := Bool.and_eq_true_iff.1 ha
  obtain ⟨g, s₁, hs₁, rfl⟩ := laid_text h
  obtain ⟨g₁, s₂, hs₂, rfl⟩ := laid_mark hs₁
  obtain ⟨g₂, s₃, hs₃, rfl⟩ := laid_text hs₂
  obtain ⟨g₃, s₄, hs₄, rfl⟩ := laid_mark hs₃
  obtain ⟨g₄, text, htext, rfl⟩ := laid_value a.value hvalue hs₄
  exact ⟨g, _, .intro g₁ g₂ g₃ g₄ a.var a.key a.value hvar htext, rfl⟩

theorem Clause.WrittenAs.readsClause {c : Clause} {ts : List Token} (h : c.WrittenAs ts)
    (hc : c.isWritable = true) {s : List Char} (hs : Laid ts s) :
    AfterGap (ReadsClause · c) s := by
  cases h with
  | matchNode hp =>
    obtain ⟨g, word, rest, hword, hrest, rfl⟩ := laid_keyword hs
    obtain ⟨g', t, ht, rfl⟩ := hp.readsNode hc hrest
    exact ⟨g, _, ht.readsClause_match hword g', rfl⟩
  | mergeNode hp =>
    obtain ⟨g, word, rest, hword, hrest, rfl⟩ := laid_keyword hs
    obtain ⟨g', t, ht, rfl⟩ := hp.readsNode hc hrest
    exact ⟨g, _, ht.readsClause_merge hword g', rfl⟩
  | mergeRelationship p =>
    obtain ⟨g, word, rest, hword, hrest, rfl⟩ := laid_keyword hs
    obtain ⟨g', t, ht, rfl⟩ := laid_relationship hc hrest
    exact ⟨g, _, ht.readsClause hword g', rfl⟩
  | set a =>
    obtain ⟨g, word, rest, hword, hrest, rfl⟩ := laid_keyword hs
    obtain ⟨g', t, ht, rfl⟩ := laid_assignment hc hrest
    exact ⟨g, _, ht.readsClause hword g', rfl⟩

theorem ReadsClauses.of_laid {cs : List Clause} {parts : List (List Token)}
    (h : List.Forall₂ Clause.WrittenAs cs parts) (hcs : ∀ c ∈ cs, c.isWritable = true)
    {s : List Char} (hs : Laid (parts.flatMap (· ++ [.blank])) s) (last : Gap) :
    AfterGap (ReadsClauses · cs) (s ++ last.chars) := by
  induction h generalizing s with
  | nil =>
    obtain rfl := laid_nil hs
    exact ⟨last, [], .nil, by simp⟩
  | @cons c ts cs parts hc hmore ih =>
    rw [List.flatMap_cons] at hs
    obtain ⟨first, rest, hfirst, hrest, rfl⟩ := laid_append hs
    obtain ⟨text, s', htext, hs', rfl⟩ := laid_append hfirst
    obtain ⟨g', s'', hg', hs'', rfl⟩ := laid_blank hs'
    obtain rfl := laid_nil hs''
    obtain ⟨g, t, ht, rfl⟩ := hc.readsClause (hcs c List.mem_cons_self) htext
    obtain ⟨g'', more, hread, hmore⟩ := ih (fun d hd => hcs d (List.mem_cons_of_mem _ hd)) hrest
    refine ⟨g, _, .cons ht (g'.append g'') (by simp [hg']) hread, ?_⟩
    simp [hmore]

/-- A statement is read back, whatever its names and strings, in every layout of its tokens. -/
theorem Statement.parse_layout {s : Statement} (hs : s.isWritable = true) {ts : List Token}
    (hts : s.WrittenAs ts) {l : Layout} (hl : l.spells ts = true) (last : Gap) :
    parse (String.ofList (l.chars ++ last.chars)) = .ok s := by
  obtain ⟨hclauses, hreturns⟩ := Bool.and_eq_true_iff.1 hs
  cases hts with
  | intro hparts =>
    obtain ⟨clauseText, s₁, hclauseText, hs₁, hchars⟩ := laid_append ⟨l, hl, rfl⟩
    obtain ⟨g₁, word, s₂, hword, hs₂, rfl⟩ := laid_keyword hs₁
    obtain ⟨g₂, s₃, hs₃, rfl⟩ := laid_text hs₂
    obtain rfl := laid_nil hs₃
    obtain ⟨g₀, t, ht, heq⟩ :=
      ReadsClauses.of_laid hparts (List.all_eq_true.1 hclauses) hclauseText g₁
    have htext : l.chars ++ last.chars = g₀.chars ++ (t ++ (word ++ (g₂.chars ++
        (s.returns.toList ++ last.chars)))) := by
      rw [hchars, ← List.append_assoc g₀.chars, ← heq]
      simp
    rw [htext]
    exact ht.parse hword hreturns g₀ g₂ last

namespace Sample

def reminder : Statement :=
  ⟨[.matchNode ⟨"match", ["a`b"], Dict.ofList [("note", .string "it's"),
      ("days", .list [.integer (-7), .list [], .null])]⟩,
    .mergeRelationship ⟨"match", "b", "HAS A", .undirected⟩,
    .set ⟨"match", "null", .boolean true⟩], "match"⟩

def reminderLayout : Layout :=
  [("", "MaTcH"), (" ", "("), ("", "match"), ("", ":"), ("\n", "`a``b`"), ("", "\x7b"),
    ("", "note"), ("", ":"), ("", "'it\\'s'"), (" ", ","), ("", "days"), ("", ":"), ("", "["),
    ("", "-7"), ("\t", ","), ("", "["), (" ", "]"), ("", ","), ("", "NULL"), ("", "]"),
    ("", "\x7d"), ("", ")"), ("\r", "\n"), ("", "merge"), ("", "("), ("", "match"), ("", ")"),
    ("", "-["), (" ", ":"), ("", "`HAS A`"), ("", "]-"), (" ", "("), ("", "b"), ("", ")"),
    ("", "\n"), ("", "Set"), ("", "match"), ("", "."), ("", "null"), ("", "="), ("", "tRUE"),
    ("", " "), ("", "RETURN"), ("", "match")].map fun p =>
      (⟨p.1.toList.filter isSpace, by simp⟩, p.2.toList)

def reminderText : String :=
  "MaTcH (match:\n`a``b`\x7bnote:'it\\'s' ,days:[-7\t,[ ],NULL]\x7d)\r\n" ++
    "merge(match)-[ :`HAS A`]- (b)\nSetmatch.null=tRUE RETURNmatch"

end Sample

theorem parse_layout_reminder :
    Sample.reminder.isWritable = true ∧
    (∃ ts, Sample.reminder.WrittenAs ts ∧ Sample.reminderLayout.spells ts = true) ∧
    parse Sample.reminderText = .ok Sample.reminder := by
  have hs : Sample.reminder.isWritable = true := by decide
  obtain ⟨ts, hts, hl⟩ :
      ∃ ts, Sample.reminder.WrittenAs ts ∧ Sample.reminderLayout.spells ts = true := by
    refine ⟨_, .intro (.cons (.matchNode (.intro (.braces (.swap _ _ _))))
      (.cons (.mergeRelationship _) (.cons (.set _) .nil))), ?_⟩
    decide
  have htext : String.ofList (Sample.reminderLayout.chars ++ Gap.none.chars) =
      Sample.reminderText := by
    decide
  exact ⟨hs, ⟨ts, hts, hl⟩, htext ▸ Statement.parse_layout hs hts hl .none⟩

end Dialect

end RecordGraph
