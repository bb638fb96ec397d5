import RecordGraph.Config.Execution
import RecordGraph.Proofs.DictEntries
import RecordGraph.Proofs.RelationTexts

/-!
Settings on their way from configuration to execution. Each setting stands once in
the flattened map, so the execution stage finds what the configuration put there
and checks again what was found valid.
-/

namespace RecordGraph

namespace SinkConfig

theorem validate_eq_ok_iff {c : SinkConfig} {schema : RecordSchema} {relations : List Relation} :
    c.validate schema = .ok relations ↔
      isReferenceName c.referenceName = true ∧ findMacro? c.relations.toList = none ∧
        c.compiler.validate = .ok () ∧ ∃ layout, Layout.classify schema = .ok layout ∧
          Relation.parseList c.relations layout.structuralFields = .ok relations := by
  unfold validate
  cases isReferenceName c.referenceName with
  | false => simp [throw, throwThe, MonadExceptOf.throw, bind, Except.bind]
  | true =>
    cases findMacro? c.relations.toList with
    | some found => simp [throw, throwThe, MonadExceptOf.throw, bind, Except.bind]
    | none => simp [bind_eq_ok, mapError_eq_ok, Unique.exists_iff]

variable (c : SinkConfig) (relations : List Relation)

def entries : List (String × String) :=
  [("reference_name", c.referenceName), ("url", c.connection.url), ("user", c.connection.user),
    ("password", c.connection.password), ("relations", Relation.encodeList relations),
    ("label_field", c.compiler.labelField), ("key_field", c.compiler.keyField),
    ("node_alias", c.compiler.nodeAlias), ("escape", c.compiler.escape.name),
    ("create_nulls", c.compiler.createNulls.name), ("failure_policy", c.failurePolicy.name)] ++
  (c.connection.database.map fun d => ("database", d)).toList

theorem nodup_keys_entries : ((c.entries relations).map (·.1)).Nodup := by
  cases hdatabase : c.connection.database <;> simp [entries, hdatabase]

theorem get?_settings {key value : String} :
    (c.settings relations).get? key = some value ↔ (key, value) ∈ c.entries relations :=
  Dict.get?_ofList (c.nodup_keys_entries relations) key value

theorem get?_settings_database :
    (c.settings relations).get? "database" = c.connection.database := by
  refine Option.ext fun d => ?_
  rw [get?_settings]
  cases hdatabase : c.connection.database <;> simp [entries, hdatabase, eq_comm]

end SinkConfig

namespace ExecutionConfig

variable {settings : Dict String} {key : String}

theorem required_of_get? {value : String} (h : settings.get? key = some value) :
    required settings key = .ok value := by
  simp [required, h]

theorem choice_of_get? {α : Type} {ofName : String → Option α} {default value : α} {name : String}
    (h : settings.get? key = some name) (hname : ofName name = some value) :
    choice settings key ofName default = .ok value := by
  simp [choice, h, hname]

/-- Settings with valid compiler settings and relations that survive the wire are read back as
they were. -/
theorem ofSettings_settings {c : SinkConfig} {relations : List Relation}
    (hvalid : c.compiler.validate = .ok ())
    (hwire : Relation.decodeList (Relation.encodeList relations) = .ok relations) :
    ofSettings (c.settings relations) =
      .ok ⟨c.referenceName, c.connection, c.compiler, relations, c.failurePolicy⟩ := by
  have hentries : ∀ e ∈ c.entries relations, (c.settings relations).get? e.1 = some e.2 :=
    fun _ => (c.get?_settings relations).2
  simp only [SinkConfig.entries, List.cons_append, List.forall_mem_cons] at hentries
  obtain ⟨hname, hurl, huser, hpassword, hrelations, hlabel, hkey, halias, hescape, hnulls, hpolicy,
    -⟩ := hentries
  have hcompiler : compilerOf (c.settings relations) = .ok c.compiler := by
    rw [compilerOf, choice_of_get? hescape (Escape.ofName?_name _),
      choice_of_get? hnulls (NullPolicy.ofName?_name _), hlabel, hkey, halias]
    rfl
  rw [ofSettings, hcompiler, required_of_get? hname, required_of_get? hurl, required_of_get? huser,
    choice_of_get? hpolicy (FailurePolicy.ofName?_name _), hpassword, hrelations,
    c.get?_settings_database]
  simp [bind, Except.bind, pure, Except.pure, Except.mapError, hvalid, hwire]

end ExecutionConfig

namespace SinkConfig

variable (c : SinkConfig) (schema : RecordSchema)

/-- A configuration whose settings are written is read back from them with the relations that
validation found, and they are written unless validation fails. -/
theorem ofSettings_outputSettings :
    (∀ settings, c.outputSettings schema = .ok settings →
      ∃ relations, c.validate schema = .ok relations ∧
        ExecutionConfig.ofSettings settings =
          .ok ⟨c.referenceName, c.connection, c.compiler, relations, c.failurePolicy⟩) ∧
    ∀ e, c.outputSettings schema = .error e ↔ c.validate schema = .error e := by
  refine ⟨fun settings h => ?_, fun e => ?_⟩
  · obtain ⟨relations, hvalidate, rfl⟩ := map_eq_ok.1 h
    obtain ⟨-, -, hcompiler, layout, -, hparsed⟩ := validate_eq_ok_iff.1 hvalidate
    obtain ⟨hnodup, hfit⟩ := Relation.parseList_eq_ok hparsed
    have hwire := (Relation.decodeList_encodeList_eq_ok_iff relations).2
      ⟨hnodup, fun r hr => (hfit r hr).1⟩
    exact ⟨relations, hvalidate, ExecutionConfig.ofSettings_settings hcompiler hwire⟩
  · unfold outputSettings
    cases c.validate schema <;> simp [Except.map]

end SinkConfig

namespace Sample

def memberSchema : RecordSchema :=
  let club := .record "Club" [("uid", .string)]
  ⟨"Member", [("uid", .string), ("captain", .nullable club), ("clubs", .array club)]⟩

def memberSink : SinkConfig :=
  ⟨"members-1", ⟨"bolt://localhost:7687", "neo4j", "", some ""⟩,
    " leads :>(captain),MEMBER OF:<(clubs)", ⟨"kind", "key", "member", .verbatim, .writeNull⟩, .skip⟩

def memberships : List Relation :=
  [⟨"leads", .outgoing, "captain"⟩, ⟨"MEMBER OF", .incoming, "clubs"⟩]

end Sample

theorem ofSettings_outputSettings_members :
    Sample.memberSink.outputSettings Sample.memberSchema =
        .ok (Sample.memberSink.settings Sample.memberships) ∧
      ExecutionConfig.ofSettings (Sample.memberSink.settings Sample.memberships) =
        .ok ⟨"members-1", ⟨"bolt://localhost:7687", "neo4j", "", some ""⟩,
          ⟨"kind", "key", "member", .verbatim, .writeNull⟩, Sample.memberships, .skip⟩ := by
  have hvalidate : Sample.memberSink.validate Sample.memberSchema = .ok Sample.memberships :=
    SinkConfig.validate_eq_ok_iff.2
      ⟨by decide +kernel, by decide +kernel, by rfl, ⟨_, rfl, by decide +kernel⟩⟩
  have hsettings : Sample.memberSink.outputSettings Sample.memberSchema =
      .ok (Sample.memberSink.settings Sample.memberships) :=
    map_eq_ok.2 ⟨Sample.memberships, hvalidate, rfl⟩
  obtain ⟨relations, hrelations, hread⟩ :=
    (Sample.memberSink.ofSettings_outputSettings Sample.memberSchema).1 _ hsettings
  obtain rfl : Sample.memberships = relations := by simpa [hvalidate] using hrelations
  exact ⟨hsettings, hread⟩

end RecordGraph
