import RecordGraph.Proofs.Reading

/-!
Reading of written patterns. Nodes and relationships are read back in every layout
of their tokens. A node is no relationship, so trying relationships first leaves
every node to the rule for nodes.
-/

namespace RecordGraph.Dialect

open RecordGraph.Statement

theorem isSpace_eq_false_of_startsName {c : Char} (h : startsName c = true) :
    isSpace c = false := by
  by_contra hspace
  simp only [Bool.not_eq_false, isSpace, Bool.or_eq_true, beq_iff_eq] at hspace
  rcases hspace with ((rfl | rfl) | rfl) | rfl <;> exact absurd h (by decide)

theorem reads_variableName {v : String} (h : isPlainName v.toList = true) :
    Reads variableName v.toList v where
  starts rest := by
    cases hv : v.toList with
    | nil => simp [hv, isPlainName] at h
    | cons c s =>
      simp only [hv, isPlainName, Bool.and_eq_true] at h
      exact skip_cons (isSpace_eq_false_of_startsName h.1) _
  reads _ hrest := variableName_append h hrest.name

theorem reads_name (n : String) : Reads name (escapeName n).toList n where
  starts rest := by
    rw [toList_escapeName, nameChars]
    by_cases hn : isPlainName n.toList = true
    · rw [if_pos hn]
      exact (reads_variableName hn).starts rest
    · rw [if_neg hn]
      exact skip_cons (by decide) _
  reads _ hrest := name_append n hrest.name

@[simp] theorem token_self (c : Char) (rest : List Char) : token [c] (c :: rest) = some rest :=
  token_append [c] rest

theorem reads_property (k : String) (g g' : Gap) {text : List Char} {v : PropertyValue}
    (h : ReadsValue text v) :
    Reads property ((escapeName k).toList ++ (g.chars ++ ':' :: (g'.chars ++ text)))
      (k, .ok v) where
  starts rest := by rw [List.append_assoc, (reads_name k).starts]
  reads rest hrest := by
    have hname := name_append k (g.ends (by decide : endsToken ':' = true)
      (g'.chars ++ (text ++ rest))).name
    simp (disch := decide) only [property, List.append_assoc, List.cons_append, hname,
      Gap.skip_append, skip_cons, token_self, h.anyValue.starts, h.anyValue.reads rest hrest,
      Option.bind_eq_bind, Option.bind_some, Option.pure_def]

theorem propertyMap_ok (done : PropertyMap) (entries : List (String × PropertyValue))
    (hkeys : (entries.map (·.1)).Nodup) (hnew : ∀ e ∈ entries, done.contains e.1 = false) :
    propertyMap done (entries.map fun e => (e.1, .ok e.2)) =
      .ok (entries.foldl (fun d e => d.insert e.1 e.2) done) := by
  induction entries generalizing done with
  | nil => rfl
  | cons e rest ih =>
    obtain ⟨key, v⟩ := e
    simp only [List.map_cons, List.nodup_cons, List.mem_map, not_exists, not_and] at hkeys
    have hkey : done.contains key = false := hnew (key, v) List.mem_cons_self
    have hrest : ∀ e ∈ rest, (done.insert key v).contains e.1 = false := by
      intro e he
      have hne : key ≠ e.1 := fun h => hkeys.1 e he h.symm
      rw [Dict.contains, Dict.get?_insert, if_neg hne]
      exact hnew e (List.mem_cons_of_mem _ he)
    simp only [List.map_cons, propertyMap, hkey, Bool.false_eq_true, if_false, ih _ hkeys.2 hrest,
      List.foldl_cons]

theorem propertyMap_empty_ok {entries : List (String × PropertyValue)}
    (hkeys : (entries.map (·.1)).Nodup) :
    propertyMap .empty (entries.map fun e => (e.1, .ok e.2)) = .ok (Dict.ofList entries) :=
  propertyMap_ok .empty entries hkeys fun _ _ => rfl

/-- Properties as they are written: not at all, or between braces. -/
inductive ReadsProperties : List Char → List (String × PropertyValue) → Prop
  | absent : ReadsProperties [] []
  | empty (g : Gap) : ReadsProperties ('{' :: (g.chars ++ ['}'])) []
  | entries {text : List Char} {entries : List (String × PropertyValue)} (g : Gap)
      (h : Separated (Reads property) text (entries.map fun e => (e.1, .ok e.2))) :
      ReadsProperties ('{' :: (g.chars ++ (text ++ ['}']))) entries

namespace ReadsProperties

variable {text : List Char} {entries : List (String × PropertyValue)}

theorem ends (h : ReadsProperties text entries) {rest : List Char} (hrest : Ends rest) :
    Ends (text ++ rest) := by
  cases h with
  | absent => exact hrest
  | empty g => simp; decide
  | entries g h => simp; decide

theorem skip_append (h : ReadsProperties text entries) (g g' : Gap) (rest : List Char) :
    skip (g.chars ++ (text ++ (g'.chars ++ ')' :: rest))) = ')' :: rest ∨
      ∃ s, skip (g.chars ++ (text ++ (g'.chars ++ ')' :: rest))) = '{' :: s := by
  cases h with
  | absent => exact .inl (by simp (disch := decide) [skip_cons])
  | empty => exact .inr ⟨_, by rw [Gap.skip_append]; exact skip_cons (by decide) _⟩
  | entries => exact .inr ⟨_, by rw [Gap.skip_append]; exact skip_cons (by decide) _⟩

theorem reads (h : ReadsProperties text entries) (g : Gap) (rest : List Char) :
    ∃ ps r, properties (skip (text ++ (g.chars ++ ')' :: rest))) = (ps, r) ∧
      skip r = ')' :: rest ∧ ps.getD [] = entries.map fun e => (e.1, .ok e.2) := by
  have hclose : skip (g.chars ++ ')' :: rest) = ')' :: rest := by
    rw [Gap.skip_append, skip_cons (by decide)]
  cases h with
  | absent =>
    refine ⟨none, ')' :: rest, ?_, skip_cons (by decide) rest, rfl⟩
    rw [List.nil_append, hclose]
    rfl
  | empty g' =>
    have hread : enclosed property '}' (g'.chars ++ '}' :: (g.chars ++ ')' :: rest)) = _ :=
      enclosed_nil g' _ (by decide) rfl
    refine ⟨some [], g.chars ++ ')' :: rest, ?_, hclose, rfl⟩
    simp (disch := decide) [skip_cons, properties, hread]
  | entries g' h =>
    have hread := h.enclosed_append g' (by decide) (by decide : isSpace '}' = false) (by decide)
      (g.chars ++ ')' :: rest)
    refine ⟨some _, g.chars ++ ')' :: rest, ?_, hclose, rfl⟩
    simp (disch := decide) [skip_cons, properties, hread]

end ReadsProperties

/-- Labels as they are written: each after a colon, with gaps before and after it. -/
inductive ReadsLabels : List Char → List String → Prop
  | nil : ReadsLabels [] []
  | cons {text : List Char} {labels : List String} (g g' : Gap) (l : String)
      (more : ReadsLabels text labels) :
      ReadsLabels (g.chars ++ ':' :: (g'.chars ++ ((escapeName l).toList ++ text))) (l :: labels)

namespace ReadsLabels

variable {text : List Char} {labels : List String}

theorem ends (h : ReadsLabels text labels) {rest : List Char} (hrest : Ends rest) :
    Ends (text ++ rest) := by
  cases h with
  | nil => exact hrest
  | cons g g' l more =>
    rw [List.append_assoc, List.cons_append]
    exact g.ends (by decide) _

theorem length_le (h : ReadsLabels text labels) : labels.length ≤ text.length := by
  induction h with
  | nil => exact le_refl _
  | cons g g' l more ih =>
    simp only [List.length_append, List.length_cons]
    omega

theorem many_append (h : ReadsLabels text labels) {rest : List Char} (hrest : Ends rest)
    (hstop : ∀ c ∈ (skip rest).head?, c ≠ ':') (fuel : Nat) (hfuel : labels.length ≤ fuel) :
    many label fuel (text ++ rest) = (labels, rest) := by
  induction h generalizing fuel with
  | nil =>
    cases fuel with
    | zero => rfl
    | succ fuel =>
      have hnone : label (skip rest) = none := by
        cases hs : skip rest with
        | nil => rfl
        | cons c s => simp [label, token_ne (hstop c (by simp [hs])).symm]
      simp [many, hnone]
  | @cons text labels g g' l more ih =>
    simp only [List.length_cons] at hfuel
    obtain ⟨fuel, rfl⟩ := Nat.exists_eq_add_of_lt (show 0 < fuel by omega)
    have hname := name_append l (more.ends hrest).name
    have hmany := ih fuel (by omega)
    simp (disch := decide) only [Nat.zero_add, many, List.append_assoc, List.cons_append,
      Gap.skip_append, skip_cons, label, token_self, (reads_name l).starts, hname, hmany,
      Option.bind_eq_bind, Option.bind_some]

end ReadsLabels

/-- A node pattern as it is written. -/
inductive ReadsNode : List Char → NodePattern → Prop
  | intro {labelText properties : List Char} {labels : List String}
      {entries : List (String × PropertyValue)} (g g' g'' : Gap) (var : String)
      (hvar : isPlainName var.toList = true) (hlabels : ReadsLabels labelText labels)
      (hproperties : ReadsProperties properties entries) (hkeys : (entries.map (·.1)).Nodup) :
      ReadsNode ('(' :: (g.chars ++ (var.toList ++ (labelText ++ (g'.chars ++
        (properties ++ (g''.chars ++ [')'])))))))
        ⟨var, labels, Dict.ofList entries⟩

/-- Where an edge cannot begin. -/
def NoEdge (rest : List Char) : Prop :=
  ∀ c ∈ (skip rest).head?, c ≠ '-' ∧ c ≠ '<'

theorem edge_none {rest : List Char} (h : NoEdge rest) : edge (skip rest) = none := by
  unfold NoEdge at h
  cases hs : skip rest with
  | nil => rfl
  | cons c s =>
    obtain ⟨hminus, hless⟩ := h c (by simp [hs])
    simp [edge, edgeBetween, token_ne hminus.symm, token_ne hless.symm]

namespace ReadsNode

variable {text : List Char} {p : NodePattern}

theorem reads (h : ReadsNode text p) : Reads nodePattern text (.ok p) where
  starts rest := by
    cases h with
    | intro => exact skip_cons (by decide) _
  reads rest hrest := by
    cases h with
    | @intro labelText propertyText labels entries g g' g'' var hvar hlabels hproperties hkeys =>
      obtain ⟨ps, r, hps, hr, hentries⟩ := hproperties.reads g'' rest
      have hends : Ends (g'.chars ++ (propertyText ++ (g''.chars ++ ')' :: rest))) :=
        g'.ends_append (hproperties.ends (g''.ends (by decide) rest))
      have hvariable := variableName_append hvar (hlabels.ends hends).name
      have hstop : ∀ c ∈ (skip (g'.chars ++ (propertyText ++
          (g''.chars ++ ')' :: rest)))).head?, c ≠ ':' := by
        rcases hproperties.skip_append g' g'' rest with hskip | ⟨s, hskip⟩ <;> simp [hskip]
      have hmany := hlabels.many_append hends hstop
        (labelText ++ (g'.chars ++ (propertyText ++ (g''.chars ++ ')' :: rest)))).length
        (by have := hlabels.length_le; simp only [List.length_append]; omega)
      simp (disch := decide) only [nodePattern, List.append_assoc, List.cons_append,
        List.nil_append, token_self, Gap.skip_append, (reads_variableName hvar).starts, hvariable,
        hmany, hps, hr, hentries, propertyMap_empty_ok hkeys, Option.bind_eq_bind,
        Option.bind_some, Option.pure_def]
      rfl

theorem not_relationship (h : ReadsNode text p) {rest : List Char} (hrest : NoEdge rest) :
    relationshipPattern (text ++ rest) = none := by
  cases h with
  | @intro labelText propertyText labels entries g g' g'' var hvar hlabels hproperties hkeys =>
    have hends : Ends (g'.chars ++ (propertyText ++ (g''.chars ++ ')' :: rest))) :=
      g'.ends_append (hproperties.ends (g''.ends (by decide) rest))
    have hvariable := variableName_append hvar (hlabels.ends hends).name
    have hreference : nodeReference ('(' :: (g.chars ++ (var.toList ++ (labelText ++ (g'.chars ++
        (propertyText ++ (g''.chars ++ ')' :: rest))))))) = none ∨
        nodeReference ('(' :: (g.chars ++ (var.toList ++ (labelText ++ (g'.chars ++
        (propertyText ++ (g''.chars ++ ')' :: rest))))))) = some (var, rest) := by
      simp only [nodeReference, token_self, Gap.skip_append, (reads_variableName hvar).starts,
        hvariable, Option.bind_eq_bind, Option.bind_some, Option.pure_def]
      cases hlabels with
      | nil =>
        rcases hproperties.skip_append g' g'' rest with hskip | ⟨s, hskip⟩
        · exact .inr (by simp [hskip])
        · exact .inl (by simp [hskip, token_ne])
      | cons => exact .inl (by simp (disch := decide) [skip_cons, token_ne])
    simp only [List.append_assoc, List.cons_append, List.nil_append, relationshipPattern]
    rcases hreference with hreference | hreference <;> simp [hreference, edge_none hrest]

end ReadsNode

def referenceChars (g g' : Gap) (var : String) : List Char :=
  '(' :: (g.chars ++ (var.toList ++ (g'.chars ++ [')'])))

theorem nodeReference_append (g g' : Gap) {var : String} (h : isPlainName var.toList = true)
    (rest : List Char) :
    nodeReference (referenceChars g g' var ++ rest) = some (var, rest) := by
  have hvariable := variableName_append h (g'.ends (by decide : endsToken ')' = true) rest).name
  simp (disch := decide) only [nodeReference, referenceChars, List.cons_append, List.append_assoc,
    List.nil_append, token_self, Gap.skip_append, (reads_variableName h).starts, hvariable,
    skip_cons, Option.bind_eq_bind, Option.bind_some, Option.pure_def]

def Arrow.opening : Arrow → String
  | leftToRight | undirected => "-["
  | rightToLeft => "<-["

def Arrow.closing : Arrow → String
  | leftToRight => "]->"
  | rightToLeft | undirected => "]-"

def edgeChars (arrow : Arrow) (g g' g'' : Gap) (type : String) : List Char :=
  arrow.opening.toList ++ (g.chars ++ ':' :: (g'.chars ++ ((escapeName type).toList ++
    (g''.chars ++ arrow.closing.toList))))

def Arrow.between (arrow : Arrow) : Rule (String × Arrow) :=
  edgeBetween arrow.opening arrow.closing arrow

theorem edge_eq (s : List Char) :
    edge s = (Arrow.leftToRight.between s <|> Arrow.rightToLeft.between s <|>
      Arrow.undirected.between s) := rfl

theorem Arrow.between_edgeChars {arrow arrow' : Arrow} (h : arrow'.opening = arrow.opening)
    (g g' g'' : Gap) (type : String) (rest : List Char) :
    arrow'.between (edgeChars arrow g g' g'' type ++ rest) =
      (token arrow'.closing.toList (arrow.closing.toList ++ rest)).map
        fun r => ((type, arrow'), r) := by
  obtain ⟨tail, htail⟩ : ∃ tail, arrow.closing.toList = ']' :: tail := by
    cases arrow <;> exact ⟨_, rfl⟩
  have hname := name_append type (g''.ends (by decide : endsToken ']' = true) (tail ++ rest)).name
  rw [Arrow.between, h, edgeChars, htail]
  simp (disch := decide) only [edgeBetween, List.append_assoc, List.cons_append, token_append,
    Gap.skip_append, skip_cons, token_self, (reads_name type).starts, hname, Option.bind_eq_bind,
    Option.bind_some, Option.pure_def]
  cases token arrow'.closing.toList (']' :: (tail ++ rest)) <;> rfl

theorem Arrow.between_edgeChars_none {arrow arrow' : Arrow}
    (h : arrow'.opening.toList.head? ≠ arrow.opening.toList.head?)
    (g g' g'' : Gap) (type : String) (rest : List Char) :
    arrow'.between (edgeChars arrow g g' g'' type ++ rest) = none := by
  obtain ⟨c, s, hc⟩ : ∃ c s, arrow.opening.toList = c :: s := by
    cases arrow <;> exact ⟨_, _, rfl⟩
  obtain ⟨d, s', hd⟩ : ∃ d s, arrow'.opening.toList = d :: s := by
    cases arrow' <;> exact ⟨_, _, rfl⟩
  rw [hc, hd] at h
  have hne : d ≠ c := fun e => h (congrArg some e)
  simp only [Arrow.between, edgeBetween, edgeChars, hc, hd, List.cons_append, token_ne hne,
    Option.bind_eq_bind, Option.bind_none]

theorem edge_append (arrow : Arrow) (g g' g'' : Gap) (type : String) {rest : List Char}
    (h : ∀ c ∈ rest.head?, c ≠ '>') :
    edge (edgeChars arrow g g' g'' type ++ rest) = some ((type, arrow), rest) := by
  have hown : token arrow.closing.toList (arrow.closing.toList ++ rest) = some rest :=
    token_append _ rest
  rw [edge_eq]
  cases arrow with
  | leftToRight => rw [Arrow.between_edgeChars rfl, hown]; rfl
  | rightToLeft =>
    rw [Arrow.between_edgeChars_none (by decide), Arrow.between_edgeChars rfl, hown]
    rfl
  | undirected =>
    have hdirected : token Arrow.leftToRight.closing.toList
        (Arrow.undirected.closing.toList ++ rest) = none := by
      cases rest with
      | nil => rfl
      | cons c rest => simp [Arrow.closing, token, (h c rfl).symm]
    have hopen : Arrow.leftToRight.opening = Arrow.undirected.opening := rfl
    rw [Arrow.between_edgeChars hopen, hdirected, Arrow.between_edgeChars_none (by decide),
      Arrow.between_edgeChars rfl, hown]
    rfl

/-- A relationship pattern as it is written. -/
inductive ReadsRelationship : List Char → RelationshipPattern → Prop
  | intro (l l' e e' e'' r r' g g' : Gap) (left right type : String) (arrow : Arrow)
      (hleft : isPlainName left.toList = true) (hright : isPlainName right.toList = true) :
      ReadsRelationship (referenceChars l l' left ++ (g.chars ++ (edgeChars arrow e e' e'' type ++
        (g'.chars ++ referenceChars r r' right)))) ⟨left, right, type, arrow⟩

theorem Gap.mem_head (g : Gap) {c d : Char} {rest : List Char}
    (h : d ∈ (g.chars ++ c :: rest).head?) : isSpace d = true ∨ d = c := by
  obtain ⟨chars, blank⟩ := g
  cases chars with
  | nil => exact .inr (Option.mem_some.1 h).symm
  | cons b chars =>
    obtain rfl : b = d := Option.mem_some.1 h
    exact .inl (by simpa using List.all_eq_true.1 blank b List.mem_cons_self)

theorem referenceChars_starts (g g' : Gap) (var : String) (rest : List Char) :
    skip (referenceChars g g' var ++ rest) = referenceChars g g' var ++ rest :=
  skip_cons (by decide) _

theorem edgeChars_starts (arrow : Arrow) (g g' g'' : Gap) (type : String) (rest : List Char) :
    skip (edgeChars arrow g g' g'' type ++ rest) = edgeChars arrow g g' g'' type ++ rest := by
  cases arrow <;> exact skip_cons (by decide) _

theorem ReadsRelationship.reads {text : List Char} {p : RelationshipPattern}
    (h : ReadsRelationship text p) : Reads relationshipPattern text p where
  starts rest := by
    cases h with
    | intro => exact skip_cons (by decide) _
  reads rest _ := by
    cases h with
    | intro l l' e e' e'' r r' g g' left right type arrow hleft hright =>
      have hafter : ∀ c ∈ (g'.chars ++ (referenceChars r r' right ++ rest)).head?, c ≠ '>' := by
        intro c hc
        rcases g'.mem_head hc with hspace | rfl
        · rintro rfl
          exact absurd hspace (by decide)
        · decide
      simp only [relationshipPattern, List.append_assoc, nodeReference_append _ _ hleft,
        nodeReference_append _ _ hright, Gap.skip_append, edgeChars_starts, referenceChars_starts,
        edge_append arrow e e' e'' type hafter, Option.bind_eq_bind, Option.bind_some,
        Option.pure_def]

end RecordGraph.Dialect
