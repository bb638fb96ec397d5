import RecordGraph.Graph.Json
import RecordGraph.Proofs.AgreementLaws
import RecordGraph.Proofs.DictEntries
import RecordGraph.Proofs.JsonText

/-!
JSON forms of property values and nodes, written and read back. Each kind of value has a form of
its own, so the form of a value gives back that value at any depth. Its text does so as long as
arrays and objects nest no deeper than the reader follows, and is refused beyond.
-/

namespace RecordGraph

namespace PropertyValue

mutual

theorem ofJson?_toJson : (v : PropertyValue) → ofJson? v.toJson = some v
  | .null | .boolean _ | .float _ | .string _ => rfl
  | .integer i => by
    have hrange : Int64.minValue.toInt ≤ i.toInt ∧ i.toInt ≤ Int64.maxValue.toInt :=
      ⟨i.minValue_le_toInt, i.toInt_le⟩
    simp only [toJson, Json.ofInt, ofJson?, JsonNumber.toInt64?, if_pos hrange, Int64.ofInt_toInt]
  | .list items => by rw [toJson, ofJson?, itemsOfJson?_itemsToJson items]; rfl

theorem itemsOfJson?_itemsToJson : (items : List PropertyValue) →
    itemsOfJson? (itemsToJson items) = some items
  | [] => rfl
  | v :: rest => by
    rw [itemsToJson, itemsOfJson?, ofJson?_toJson v, itemsOfJson?_itemsToJson rest]
    rfl

end

/-- Each floating-point number in the value, at any depth, is read back from its JSON text. -/
def Legible (v : PropertyValue) : Prop :=
  ∀ x, Occurs (.float x) v → Json.read? (Json.doubleText x) = some (.number (.float x))

theorem legible_list_iff {items : List PropertyValue} :
    (list items).Legible ↔ ∀ v ∈ items, v.Legible := by
  constructor
  · exact fun h v hv x hx => h x (.item hv hx)
  · intro h x hx
    obtain ⟨v, hv, hx⟩ := (occurs_list_iff.1 hx).resolve_left nofun
    exact h v hv x hx

theorem legible_float {x : Number.Double} (h : (JsonNumber.float x).Legible) :
    (float x).Legible := by
  intro y hy
  have hscalar : ∀ items, float x ≠ .list items := by simp
  obtain rfl := PropertyValue.float.inj ((occurs_iff_eq hscalar).1 hy)
  exact h.read?

theorem FloatFree.legible {v : PropertyValue} (h : v.FloatFree) : v.Legible := fun x hx =>
  absurd hx (h x)

mutual

theorem legible_toJson : (v : PropertyValue) → v.Legible → v.toJson.Legible
  | .null, _ | .boolean _, _ | .string _, _ => trivial
  | .integer i, _ =>
    JsonNumber.legible_whole i.le_toInt (i.toInt_lt.trans (by decide))
  | .float x, h => JsonNumber.legible_of_read? (h x .here)
  | .list items, h => legible_itemsToJson items (legible_list_iff.1 h)

theorem legible_itemsToJson : (items : List PropertyValue) → (∀ v ∈ items, v.Legible) →
    Json.LegibleItems (itemsToJson items)
  | [], _ => trivial
  | v :: rest, h =>
    ⟨legible_toJson v (h v List.mem_cons_self),
      legible_itemsToJson rest fun w hw => h w (List.mem_cons_of_mem _ hw)⟩

end

/-- A value is read back from its text unless lists nest deeper in it than the reader follows. -/
theorem read?_compact {v : PropertyValue} (h : v.Legible) :
    (Json.read? v.toJson.compact).bind ofJson? =
      if v.toJson.depth ≤ Json.maxDepth then some v else none := by
  rw [Json.read?_compact (legible_toJson v h)]
  split
  · exact ofJson?_toJson v
  · rfl

end PropertyValue

namespace PropertyMap

theorem ofMembers?_toJson (entries : List (String × PropertyValue)) :
    ofMembers? (entries.map fun e => (e.1, e.2.toJson)) = some entries := by
  induction entries with
  | nil => rfl
  | cons e rest ih =>
    rw [List.map_cons, ofMembers?, PropertyValue.ofJson?_toJson, ih]
    rfl

theorem ofJson?_toJson (m : PropertyMap) : ofJson? m.toJson = some m := by
  rw [toJson, ofJson?, ofMembers?_toJson, Option.map_some, Dict.ofList_of_perm (List.Perm.refl _)]

theorem legible_toJson {m : PropertyMap} (h : ∀ e ∈ m.entries, e.2.Legible) : m.toJson.Legible := by
  change Json.LegibleMembers _
  generalize m.entries = entries at h
  induction entries with
  | nil => trivial
  | cons e rest ih =>
    exact ⟨PropertyValue.legible_toJson e.2 (h e List.mem_cons_self),
      ih fun e he => h e (List.mem_cons_of_mem _ he)⟩

end PropertyMap

namespace Json

theorem toStrings?_ofStrings (texts : List String) : toStrings? (ofStrings texts) = some texts := by
  change allStrings? (texts.map string) = some texts
  induction texts with
  | nil => rfl
  | cons s rest ih => rw [List.map_cons, allStrings?, ih, Option.map_some]

theorem legible_ofStrings (texts : List String) : (ofStrings texts).Legible := by
  change LegibleItems (texts.map string)
  induction texts with
  | nil => trivial
  | cons s rest ih => exact ⟨trivial, ih⟩

theorem depth_ofStrings_le (texts : List String) : (ofStrings texts).depth ≤ 1 := by
  change depthItems (texts.map string) + 1 ≤ 1
  induction texts with
  | nil => exact le_rfl
  | cons s rest ih => simpa [depthItems, depth] using ih

end Json

namespace GraphNode

theorem fields?_toJson {n : GraphNode} (h : ∀ e ∈ n.properties.entries, e.2.Legible) :
    ∃ w id labels properties, Json.Written.read? n.toJson.compact = some w ∧
      w.fields? ["id", "labels", "properties"] = some [some id, some labels, some properties] ∧
      id.Denotes (.string n.id) ∧ labels.Denotes (.ofStrings n.labels) ∧
      properties.Denotes n.properties.toJson := by
  have hlegible : Json.LegibleMembers [("id", .string n.id), ("labels", .ofStrings n.labels),
      ("properties", n.properties.toJson)] :=
    ⟨trivial, Json.legible_ofStrings n.labels, PropertyMap.legible_toJson h, trivial⟩
  obtain ⟨ms, htexts, hdenotes⟩ := Json.spells_compactMembers _ hlegible
  obtain _ | @⟨⟨u₁, id⟩, _, _, _, hid, hdenotes⟩ := hdenotes
  obtain _ | @⟨⟨u₂, labels⟩, _, _, _, hlabels, hdenotes⟩ := hdenotes
  obtain _ | @⟨⟨u₃, properties⟩, _, _, _, hproperties, hdenotes⟩ := hdenotes
  cases hdenotes
  refine ⟨_, id, labels, properties, Json.Written.read?_of_spells (.object htexts), ?_, hid.2,
    hlabels.2, hproperties.2⟩
  simp only [Json.Written.fields?, Json.namedMembers?, hid.1, hlabels.1, hproperties.1,
    Option.bind_some, Option.map_some]
  rfl

theorem read?_compact {n : GraphNode} (h : ∀ e ∈ n.properties.entries, e.2.Legible) :
    (Json.Written.read? n.toJson.compact).bind ofJson? =
      if n.toJson.depth ≤ Json.maxDepth then some n else none := by
  obtain ⟨w, id, labels, properties, hread, hfields, hid, hlabels, hproperties⟩ := fields?_toJson h
  have hshallow := Json.depth_ofStrings_le n.labels
  have hdepth : n.toJson.depth ≤ Json.maxDepth ↔ n.properties.toJson.depth ≤ 126 := by
    simp only [toJson, Json.depth, Json.depthMembers, Json.maxDepth]
    omega
  rw [hread, Option.bind_some, ofJson?, Json.Written.structureFields?, hfields, Option.bind_some]
  have hvalues : Json.fieldValues? (Json.maxDepth - 1) [some id, some labels, some properties] =
      if n.properties.toJson.depth ≤ 126 then
        some [some (.string n.id), some (.ofStrings n.labels), some n.properties.toJson]
      else none := by
    have hid : id.value? (Json.maxDepth - 1) = some (.string n.id) := by
      rw [hid]
      exact if_pos (Nat.zero_le _)
    have hlabels : labels.value? (Json.maxDepth - 1) = some (.ofStrings n.labels) := by
      rw [hlabels, if_pos (hshallow.trans (by decide))]
    simp only [Json.fieldValues?, hid, hlabels, hproperties _, Option.bind_some]
    rw [show Json.maxDepth - 1 = 126 from rfl]
    split <;> rfl
  rw [hvalues]
  by_cases hle : n.properties.toJson.depth ≤ 126
  · rw [if_pos hle, if_pos (hdepth.2 hle)]
    simp only [Json.asString?, Json.toStrings?_ofStrings, PropertyMap.ofJson?_toJson]
    rfl
  · rw [if_neg hle, if_neg (hle ∘ hdepth.1)]

end GraphNode

/-- Property values and nodes are what is read of their JSON, with the kind of every value in them.
The form of a value is read at any depth; its text, or that of a node, is read exactly if arrays
and objects nest no deeper in it than the reader follows. -/
theorem json_read_back :
    (∀ v : PropertyValue, PropertyValue.ofJson? v.toJson = some v) ∧
    (∀ v : PropertyValue, v.Legible →
      (Json.read? v.toJson.compact).bind PropertyValue.ofJson? =
        if v.toJson.depth ≤ Json.maxDepth then some v else none) ∧
    ∀ n : GraphNode, (∀ e ∈ n.properties.entries, e.2.Legible) →
      (Json.Written.read? n.toJson.compact).bind GraphNode.ofJson? =
        if n.toJson.depth ≤ Json.maxDepth then some n else none :=
  ⟨PropertyValue.ofJson?_toJson, fun _ => PropertyValue.read?_compact,
    fun _ => GraphNode.read?_compact⟩

namespace Sample

open Number

def mixed : PropertyValue :=
  .list [.float (.ofRatio .double true 5 2), .float (.ofInt .double 7), .integer 7,
    .string "7\n", .boolean true, .list [.float (.zero true), .null, .list []]]

theorem legible_mixed : mixed.Legible := by
  have hfraction : (JsonNumber.float (.ofRatio .double true 5 2)).Legible :=
    ⟨⟨true, ['2'], some ['5'], none⟩, by decide +kernel, by decide +kernel⟩
  have hwhole : (JsonNumber.float (.ofInt .double 7)).Legible :=
    ⟨⟨false, ['7'], some ['0'], none⟩, by decide +kernel, by decide +kernel⟩
  have hzero : (JsonNumber.float (.zero true)).Legible :=
    ⟨⟨true, ['0'], some ['0'], none⟩, by decide +kernel, by decide +kernel⟩
  have hscalar {v : PropertyValue} (hlist : ∀ items, v ≠ .list items)
      (hfloat : ∀ x, v ≠ .float x) : v.Legible :=
    (PropertyValue.FloatFree.of_scalar hlist hfloat).legible
  simp only [mixed, PropertyValue.legible_list_iff, List.forall_mem_cons]
  exact ⟨PropertyValue.legible_float hfraction, PropertyValue.legible_float hwhole,
    hscalar nofun nofun, hscalar nofun nofun, hscalar nofun nofun,
    ⟨PropertyValue.legible_float hzero, hscalar nofun nofun, nofun, nofun⟩, nofun⟩

def mixedNode : GraphNode :=
  ⟨"0", ["person", "a\\b"], Dict.ofList [("tags", mixed), ("uid", .integer Int64.minValue)]⟩

def nestedLists : Nat → PropertyValue
  | 0 => .list []
  | n + 1 => .list [nestedLists n]

theorem floatFree_nestedLists (n : Nat) : (nestedLists n).FloatFree := by
  induction n with
  | zero => exact PropertyValue.floatFree_list_iff.2 nofun
  | succ n ih => exact PropertyValue.floatFree_list_iff.2 (by simpa using ih)

theorem depth_nestedLists (n : Nat) : (nestedLists n).toJson.depth = n + 1 := by
  induction n with
  | zero => rfl
  | succ n ih =>
    simp only [nestedLists, PropertyValue.toJson, PropertyValue.itemsToJson, Json.depth,
      Json.depthItems, ih, Nat.max_zero]

end Sample

theorem json_read_back_mixed : Sample.mixed.Legible ∧
    (∀ e ∈ Sample.mixedNode.properties.entries, e.2.Legible) ∧
    (Json.read? Sample.mixed.toJson.compact).bind PropertyValue.ofJson? = some Sample.mixed ∧
    (Json.Written.read? Sample.mixedNode.toJson.compact).bind GraphNode.ofJson? =
      some Sample.mixedNode := by
  have hnode : ∀ e ∈ Sample.mixedNode.properties.entries, e.2.Legible := by
    intro e he
    have hkeys : ([("tags", Sample.mixed), ("uid", PropertyValue.integer Int64.minValue)].map
        (·.1)).Nodup := by decide
    have he := (Dict.mem_entries_ofList hkeys).1 he
    simp only [List.mem_cons, List.not_mem_nil, or_false] at he
    rcases he with rfl | rfl
    · exact Sample.legible_mixed
    · exact (PropertyValue.FloatFree.of_scalar (v := .integer Int64.minValue) nofun nofun).legible
  obtain ⟨-, hvalues, hnodes⟩ := json_read_back
  refine ⟨Sample.legible_mixed, hnode, ?_, ?_⟩
  · rw [hvalues _ Sample.legible_mixed, if_pos (by decide)]
  · rw [hnodes _ hnode, if_pos (by decide)]

/-- One list more than the reader follows, and the value is not read back from its text. -/
theorem json_refused_nestedLists : (Sample.nestedLists 127).FloatFree ∧
    (Json.read? (Sample.nestedLists 127).toJson.compact).bind PropertyValue.ofJson? = none := by
  have hfree := Sample.floatFree_nestedLists 127
  refine ⟨hfree, ?_⟩
  rw [PropertyValue.read?_compact hfree.legible, Sample.depth_nestedLists]
  rfl

end RecordGraph
