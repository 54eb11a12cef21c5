import LocalNet.Proofs.Config.Wording
import LocalNet.Proofs.Json.Restoring

/-!
# Decoding a configuration undoes encoding it

Every field of a configuration is encoded as a value that the field decodes to what it was. Only the
settings of a node's launcher are free in their form: what was decoded of them is never null.
-/

namespace LocalNet

open Json

/-! ## Health checks -/

namespace HealthConfig

theorem encode_eq (config : HealthConfig) : config.encode = .object [
    ("api_request_timeout_secs", .ofNat config.apiRequestTimeoutSecs.toNat),
    ("max_attempts", .ofNat config.maxAttempts.toNat),
    ("poll_interval_millis", .ofNat config.pollIntervalMillis.toNat),
    ("timeout_secs", .ofNat config.timeoutSecs.toNat)] := by
  simp only [encode, Value.ofMembers, List.foldl_cons, List.foldl_nil, putMember, String.reduceEq,
    String.reduceLT, ↓reduceIte]

theorem encode_well_formed (config : HealthConfig) : config.encode.WellFormed := by
  have long (value : UInt64) := Value.of_nat_well_formed value.toNat_lt
  have short (value : UInt32) : (Value.ofNat value.toNat).WellFormed :=
    Value.of_nat_well_formed (Nat.lt_trans value.toNat_lt (by decide))
  refine Value.of_members_well_formed ?_
  simp only [List.forall_mem_cons]
  exact ⟨long _, long _, long _, short _, List.forall_mem_nil _⟩

theorem encode_real_free (config : HealthConfig) : config.encode.RealFree := by
  refine Value.of_members_real_free ?_
  simp only [List.forall_mem_cons]
  exact ⟨.integer, .integer, .integer, .integer, List.forall_mem_nil _⟩

theorem encode_nested (config : HealthConfig) {depth : Nat} :
    config.encode.NestedWithin (depth + 1) := by
  refine Value.of_members_nested ?_
  simp only [List.forall_mem_cons]
  exact ⟨.number, .number, .number, .number, List.forall_mem_nil _⟩

theorem decode_encode (config : HealthConfig) : decoder.ofValue config.encode = .ok config := by
  have wellFormed := config.encode_well_formed
  rw [encode_eq] at wellFormed ⊢
  exact Record.object_restored orderless wellFormed <|
    .cons (Record.defaulted_stores rfl (Decoder.word64_of_value _)) <|
    .cons (Record.defaulted_stores rfl (Decoder.word32_of_value _)) <|
    .cons (Record.defaulted_stores rfl (Decoder.word64_of_value _)) <|
    .cons (Record.defaulted_stores rfl (Decoder.word64_of_value _)) .nil

theorem agrees {value : Value} (wellFormed : value.WellFormed) : decoder.Agrees value :=
  Record.record_agrees orderless fields_uniform
    (fun field listed value _ => fields_agree value field listed) wellFormed

theorem restored (config : HealthConfig) : decoder.Restores config.encode config True :=
  Decoder.restores (Record.record_is_uniform fields_uniform) config.decode_encode
    (agrees config.encode_well_formed) config.encode_well_formed config.encode_real_free
    fun _ => config.encode_nested

end HealthConfig

/-! ## Nodes -/

namespace NodeConfig

def Settings (holds : Value → Prop) (config : NodeConfig) : Prop :=
  ∀ settings, config.implConfig = some settings → holds settings

def Decoded : NodeConfig → Prop :=
  Settings fun settings => settings.WellFormed ∧ settings ≠ .null

theorem decoded_settings : decoder.Ensures Decoded := by
  refine Record.record_ensures ?_ fun _ none => by cases none
  simp only [record, List.forall_mem_cons]
  refine ⟨?_, ?_, ?_, ?_, ?_, ?_, ?_,
    Record.defaulted_keeps Decoder.optional_kept_ensures fun _ _ fine _ => fine,
    List.forall_mem_nil _⟩ <;>
    exact Record.untouched_keeps fun _ _ before => before

theorem encode_each (holds : Value → Prop) (config : NodeConfig)
    (text : ∀ value, holds (.text value)) (boolean : ∀ value, holds (.boolean value))
    (bytes : ∀ value, holds (.ofBytes value)) (null : holds .null)
    (settings : config.Settings holds) :
    ∃ members, config.encode = .ofMembers members ∧ ∀ member ∈ members, holds member.2 := by
  refine ⟨_, rfl, ?_⟩
  simp only [List.forall_mem_cons]
  refine ⟨text _, boolean _, bytes _, bytes _, bytes _, bytes _, bytes _, ?_,
    List.forall_mem_nil _⟩
  cases held : config.implConfig with
  | none => exact null
  | some value => exact settings value held

theorem encode_well_formed {config : NodeConfig} (decoded : config.Decoded) :
    config.encode.WellFormed := by
  obtain ⟨members, encoded, each⟩ := encode_each Value.WellFormed config
    (fun _ => .text) (fun _ => .boolean) Value.of_bytes_well_formed .null
    fun settings held => (decoded settings held).1
  rw [encoded]
  exact Value.of_members_well_formed each

theorem encode_real_free {config : NodeConfig} (realFree : config.Settings Value.RealFree) :
    config.encode.RealFree := by
  obtain ⟨members, encoded, each⟩ := encode_each Value.RealFree config
    (fun _ => .text) (fun _ => .boolean) Value.of_bytes_real_free .null realFree
  rw [encoded]
  exact Value.of_members_real_free each

theorem encode_nested {config : NodeConfig} {depth : Nat}
    (nested : config.Settings (Value.NestedWithin (depth + 1))) :
    config.encode.NestedWithin (depth + 2) := by
  obtain ⟨members, encoded, each⟩ := encode_each (Value.NestedWithin (depth + 1)) config
    (fun _ => .text) (fun _ => .boolean) (fun bytes => Value.of_bytes_nested bytes) .null nested
  rw [encoded]
  exact Value.of_members_nested each

theorem encode_eq (config : NodeConfig) : config.encode = .object [
    ("c_chain_config_file", .ofBytes config.cChainConfigFile),
    ("config_file", .ofBytes config.configFile),
    ("genesis_file", .ofBytes config.genesisFile),
    ("impl_specific_config", config.implConfig.getD .null),
    ("is_beacon", .boolean config.isBeacon),
    ("name", .text config.name),
    ("staking_cert", .ofBytes config.stakingCert),
    ("staking_key", .ofBytes config.stakingKey)] := by
  simp only [encode, Value.ofMembers, List.foldl_cons, List.foldl_nil, putMember, String.reduceEq,
    String.reduceLT, ↓reduceIte]

theorem settings_of_value {config : NodeConfig} (decoded : config.Decoded) :
    (Decoder.optional Decoder.kept).ofValue (config.implConfig.getD .null) =
      .ok config.implConfig := by
  cases held : config.implConfig with
  | none => rfl
  | some settings =>
      have present := (decoded settings held).2
      cases settings <;> first | exact absurd rfl present | rfl

theorem decode_encode {config : NodeConfig} (decoded : config.Decoded) :
    decoder.ofValue config.encode = .ok config := by
  have wellFormed := encode_well_formed decoded
  rw [encode_eq] at wellFormed ⊢
  exact Record.object_restored orderless wellFormed <|
    .cons (Record.defaulted_stores rfl (Decoder.bytes_of_value _)) <|
    .cons (Record.defaulted_stores rfl (Decoder.bytes_of_value _)) <|
    .cons (Record.defaulted_stores rfl (Decoder.bytes_of_value _)) <|
    .cons (Record.defaulted_stores rfl (settings_of_value decoded)) <|
    .cons (Record.defaulted_stores rfl rfl) <|
    .cons (Record.defaulted_stores rfl rfl) <|
    .cons (Record.defaulted_stores rfl (Decoder.bytes_of_value _)) <|
    .cons (Record.defaulted_stores rfl (Decoder.bytes_of_value _)) .nil

theorem agrees {value : Value} (wellFormed : value.WellFormed) : decoder.Agrees value := by
  refine Record.record_agrees orderless fields_uniform ?_ wellFormed
  simp only [record, List.forall_mem_cons]
  have bytes {set : Bytes → NodeConfig → NodeConfig} (value : Value) (_ : value.WellFormed) :
      (Decoder.bytes.map set).Agrees value :=
    Decoder.map_agrees set (Decoder.bytes_agrees value)
  exact ⟨fun value _ => Decoder.map_agrees _ (Decoder.text_agrees _ value),
    fun value _ => Decoder.map_agrees _ (Decoder.boolean_agrees value),
    bytes, bytes, bytes, bytes, bytes,
    fun value wellFormed => Decoder.map_agrees _ (Decoder.optional_agrees Decoder.kept_is_uniform
      (Decoder.kept_agrees wellFormed)),
    List.forall_mem_nil _⟩

theorem restored {config : NodeConfig} (decoded : config.Decoded)
    (realFree : config.Settings Value.RealFree) :
    decoder.Restores config.encode config (config.Settings (Value.NestedWithin 126)) :=
  Decoder.restores (Record.record_is_uniform fields_uniform) (decode_encode decoded)
    (agrees (encode_well_formed decoded)) (encode_well_formed decoded) (encode_real_free realFree)
    encode_nested

theorem lenient : record.Lenient :=
  ⟨orderless, fields_uniform, by decide, by decide⟩

theorem settings_nullable :
    record.Nullable "impl_specific_config" fun config => config.implConfig = none where
  blank := rfl
  others := by
    simp only [record, List.forall_mem_cons]
    refine ⟨?_, ?_, ?_, ?_, ?_, ?_, ?_, fun apart => absurd rfl apart, List.forall_mem_nil _⟩ <;>
      exact fun _ => Record.untouched_keeps fun _ _ before => before
  makes := by
    refine ⟨_, _, rfl, rfl, fun depth => ?_, fun config none => ?_⟩
    · have null : (Doc.word .null).Lexical :=
        ⟨List.forall_mem_nil _, List.forall_mem_nil _⟩
      rw [Record.defaulted_reads,
        (Decoder.optional_yields Decoder.kept_is_uniform null depth).meaning_eq]
      rfl
    · cases config
      cases none
      rfl

def byteFields : List String :=
  ["genesis_file", "config_file", "c_chain_config_file", "staking_cert", "staking_key"]

theorem byte_field {name : String} (isBytes : name ∈ byteFields) :
    ∃ set : Bytes → NodeConfig → NodeConfig,
      record.field? name = some (Record.defaulted name Decoder.bytes set) := by
  simp only [byteFields, List.mem_cons, List.not_mem_nil, or_false] at isBytes
  rcases isBytes with rfl | rfl | rfl | rfl | rfl <;> exact ⟨_, rfl⟩

/-- Bytes that are a text may be given as that text. -/
inductive SameBytes : String → Value → Value → Prop where
  | string {name text : String} (isBytes : name ∈ byteFields) :
      SameBytes name (.text text) (.ofBytes (Bytes.ofText text))

/-- Bytes may be spelled by a string, where a string can spell them. -/
inductive SpellsBytes : String → Doc → Doc → Prop where
  | string {name : String} {body bytes : Bytes} {listed : Doc} (isBytes : name ∈ byteFields)
      (spelled : bytesOf? body = some bytes) (formed : listed.WellFormed)
      (shows : listed.Shows (.ofBytes bytes)) : SpellsBytes name (.text body) listed

def ValueForms : Value → Value → Prop :=
  record.ValueForms SameBytes (· = "impl_specific_config")

def DocForms : Doc → Doc → Prop :=
  record.DocForms SpellsBytes (· = "impl_specific_config")

theorem same_bytes_stored {name : String} {one two : Value} (same : SameBytes name one two) :
    ∃ field, record.field? name = some field ∧
      Record.stored? field one = Record.stored? field two := by
  cases same with
  | @string text isBytes =>
      obtain ⟨set, known⟩ := byte_field isBytes
      have asText : Decoder.bytes.ofValue (.text text) = .ok (Bytes.ofText text) := rfl
      refine ⟨_, known, congrArg Except.toOption ?_⟩
      exact (Decoder.map_of_value asText set).trans
        (Decoder.map_of_value (Decoder.bytes_of_value _) set).symm

theorem spelled_bytes_read {depth : Nat} {name : String} {one two : Doc}
    (same : SpellsBytes name one two) (lexical : one.Lexical) :
    two.Lexical ∧ ∃ field, record.field? name = some field ∧
      meaning (field.store.read (depth + 1)) one = meaning (field.store.read (depth + 1)) two := by
  cases same with
  | @string body bytes _ isBytes spelled formed shows =>
      obtain ⟨set, known⟩ := byte_field isBytes
      refine ⟨formed.toLexical, _, known, ?_⟩
      have asList := Decoder.bytes_agrees (.ofBytes bytes) (depth + 1) two bytes formed shows
        (Value.of_bytes_nested bytes) (Decoder.bytes_of_value bytes)
      have asText : meaning (Decoder.bytes.read (depth + 1)) (.text body) = some bytes :=
        (Decoder.bytes_yields lexical (depth + 1)).meaning_eq.trans spelled
      rw [Record.defaulted_reads, Record.defaulted_reads, asList, asText]

theorem value_forms_alike {one two : Value} (forms : ValueForms one two)
    (wellFormed : one.WellFormed) {result : NodeConfig} :
    decoder.ofValue one = .ok result ↔ decoder.ofValue two = .ok result := by
  refine Record.value_forms_alike lenient (fun _ _ _ same _ => same_bytes_stored same) ?_ forms
    wellFormed
  rintro _ rfl
  exact ⟨_, settings_nullable⟩

theorem doc_forms_alike (depth : Nat) {one two : Doc} (forms : DocForms one two)
    (lexical : one.Lexical) :
    two.Lexical ∧
      meaning (decoder.read (depth + 2)) one = meaning (decoder.read (depth + 2)) two := by
  refine Record.doc_forms_alike lenient (fun _ _ _ => spelled_bytes_read) ?_ forms lexical
  rintro _ rfl
  exact ⟨_, settings_nullable⟩

end NodeConfig

/-! ## Networks -/

namespace NetworkConfig

def Settings (holds : Value → Prop) (config : NetworkConfig) : Prop :=
  ∀ node ∈ config.nodes, node.Settings holds

def Decoded (config : NetworkConfig) : Prop :=
  ∀ node ∈ config.nodes, node.Decoded

theorem decoded_settings : decoder.Ensures Decoded := by
  refine Record.record_ensures ?_ (List.forall_mem_nil _)
  simp only [record, List.forall_mem_cons]
  refine ⟨?_, ?_,
    Record.defaulted_keeps (Decoder.list_ensures NodeConfig.decoded_settings)
      fun _ _ fine _ => fine, ?_, List.forall_mem_nil _⟩ <;>
    exact Record.untouched_keeps fun _ _ before => before

theorem encode_each (holds : Value → Prop) (config : NetworkConfig)
    (text : ∀ value, holds (.text value))
    (nodes : holds (.array (config.nodes.map NodeConfig.encode)))
    (health : holds config.health.encode) :
    ∃ members, config.encode = .ofMembers members ∧ ∀ member ∈ members, holds member.2 := by
  refine ⟨_, rfl, ?_⟩
  simp only [List.forall_mem_cons]
  exact ⟨text _, text _, nodes, health, List.forall_mem_nil _⟩

theorem encode_well_formed {config : NetworkConfig} (decoded : config.Decoded) :
    config.encode.WellFormed := by
  obtain ⟨members, encoded, each⟩ := encode_each Value.WellFormed config
    (fun _ => .text)
    (.array <| List.forall_mem_map.mpr fun node listed =>
      NodeConfig.encode_well_formed (decoded node listed))
    config.health.encode_well_formed
  rw [encoded]
  exact Value.of_members_well_formed each

theorem encode_real_free {config : NetworkConfig} (realFree : config.Settings Value.RealFree) :
    config.encode.RealFree := by
  obtain ⟨members, encoded, each⟩ := encode_each Value.RealFree config
    (fun _ => .text)
    (.array <| List.forall_mem_map.mpr fun node listed =>
      NodeConfig.encode_real_free (realFree node listed))
    config.health.encode_real_free
  rw [encoded]
  exact Value.of_members_real_free each

theorem encode_nested {config : NetworkConfig} {depth : Nat}
    (nested : config.Settings (Value.NestedWithin (depth + 1))) :
    config.encode.NestedWithin (depth + 4) := by
  obtain ⟨members, encoded, each⟩ := encode_each (Value.NestedWithin (depth + 3)) config
    (fun _ => .text)
    (.array <| List.forall_mem_map.mpr fun node listed =>
      NodeConfig.encode_nested (nested node listed))
    config.health.encode_nested
  rw [encoded]
  exact Value.of_members_nested each

theorem encode_eq (config : NetworkConfig) : config.encode = .object [
    ("health", config.health.encode),
    ("log_level", .text config.logLevel),
    ("name", .text config.name),
    ("node_configs", .array (config.nodes.map NodeConfig.encode))] := by
  simp only [encode, Value.ofMembers, List.foldl_cons, List.foldl_nil, putMember, String.reduceEq,
    String.reduceLT, ↓reduceIte]

theorem decode_encode {config : NetworkConfig} (decoded : config.Decoded) :
    decoder.ofValue config.encode = .ok config := by
  have wellFormed := encode_well_formed decoded
  have nodes : (Decoder.list NodeConfig.decoder).ofValue
      (.array (config.nodes.map NodeConfig.encode)) = .ok config.nodes :=
    Decoder.map_each_map fun node listed => NodeConfig.decode_encode (decoded node listed)
  rw [encode_eq] at wellFormed ⊢
  exact Record.object_restored orderless wellFormed <|
    .cons (Record.defaulted_stores rfl config.health.decode_encode) <|
    .cons (Record.defaulted_stores rfl rfl) <|
    .cons (Record.defaulted_stores rfl rfl) <|
    .cons (Record.defaulted_stores rfl nodes) .nil

theorem agrees {value : Value} (wellFormed : value.WellFormed) : decoder.Agrees value := by
  refine Record.record_agrees orderless fields_uniform ?_ wellFormed
  simp only [record, List.forall_mem_cons]
  exact ⟨fun value _ => Decoder.map_agrees _ (Decoder.text_agrees _ value),
    fun value _ => Decoder.map_agrees _ (Decoder.text_agrees _ value),
    fun value wellFormed => Decoder.map_agrees _ (Decoder.list_agrees_all
      (Record.record_is_uniform NodeConfig.fields_uniform) NodeConfig.agrees wellFormed),
    fun value wellFormed => Decoder.map_agrees _ (HealthConfig.agrees wellFormed),
    List.forall_mem_nil _⟩

theorem restored {config : NetworkConfig} (decoded : config.Decoded)
    (realFree : config.Settings Value.RealFree) :
    decoder.Restores config.encode config (config.Settings (Value.NestedWithin 124)) :=
  Decoder.restores (Record.record_is_uniform fields_uniform) (decode_encode decoded)
    (agrees (encode_well_formed decoded)) (encode_well_formed decoded) (encode_real_free realFree)
    encode_nested

theorem lenient : record.Lenient :=
  ⟨orderless, fields_uniform, by decide, by decide⟩

inductive SameNodes : String → Value → Value → Prop where
  | node {before after : List Value} {one two : Value} (forms : NodeConfig.ValueForms one two) :
      SameNodes "node_configs" (.array (before ++ one :: after)) (.array (before ++ two :: after))

inductive SpellsNodes : String → Doc → Doc → Prop where
  | node {before after : List Doc} {one two : Doc} (forms : NodeConfig.DocForms one two) :
      SpellsNodes "node_configs" (.array (before ++ one :: after)) (.array (before ++ two :: after))

def ValueForms : Value → Value → Prop :=
  record.ValueForms SameNodes fun _ => False

def DocForms : Doc → Doc → Prop :=
  record.DocForms SpellsNodes fun _ => False

theorem value_forms_alike {one two : Value} (forms : ValueForms one two)
    (wellFormed : one.WellFormed) {result : NetworkConfig} :
    decoder.ofValue one = .ok result ↔ decoder.ofValue two = .ok result := by
  refine Record.value_forms_alike lenient (fun name one two same wellFormed => ?_)
    (fun _ none => none.elim) forms wellFormed
  cases same with
  | @node before after one two forms =>
      cases wellFormed with
      | array each =>
          have same : (NodeConfig.decoder.ofValue one).toOption =
              (NodeConfig.decoder.ofValue two).toOption :=
            Option.ext fun result => by
              rw [Record.to_option_iff, Record.to_option_iff]
              exact NodeConfig.value_forms_alike forms (each one (by simp))
          refine ⟨_, rfl, ?_⟩
          rw [Record.defaulted_stored, Record.defaulted_stored]
          exact congrArg _ (Decoder.map_each_replace same before after)

theorem doc_forms_alike (depth : Nat) {one two : Doc} (forms : DocForms one two)
    (lexical : one.Lexical) :
    two.Lexical ∧
      meaning (decoder.read (depth + 4)) one = meaning (decoder.read (depth + 4)) two := by
  refine Record.doc_forms_alike lenient (fun name one two same lexical => ?_)
    (fun _ none => none.elim) forms lexical
  cases same with
  | @node before after one two forms =>
      obtain ⟨lexicalTwo, same⟩ := NodeConfig.doc_forms_alike depth forms
        (lexical.element (by simp))
      have otherLexical := lexical.replace_element lexicalTwo
      refine ⟨otherLexical, _, rfl, ?_⟩
      rw [Record.defaulted_reads, Record.defaulted_reads, nodes_read lexical,
        nodes_read otherLexical, meanings_replace same]

end NetworkConfig

/-- What is decoded from the encoding of a configuration is that configuration, by value and from
any text of it that is not nested too deep. Null and absent settings are both none, and bytes may be
listed as integers or spelled by a string, in the nodes of a network too. -/
theorem decoding_undoes_encoding :
    (∀ config : HealthConfig, HealthConfig.decoder.Restores config.encode config True) ∧
    (∀ config, NodeConfig.decoder.Produces config → config.Settings Value.RealFree →
      NodeConfig.decoder.Restores config.encode config
        (config.Settings (Value.NestedWithin (maximalDepth - 1)))) ∧
    (∀ config, NetworkConfig.decoder.Produces config → config.Settings Value.RealFree →
      NetworkConfig.decoder.Restores config.encode config
        (config.Settings (Value.NestedWithin (maximalDepth - 3)))) ∧
    NodeConfig.record.EmptyWithout "impl_specific_config" (fun config => config.implConfig = none) ∧
    NodeConfig.record.AlikeInForms NodeConfig.ValueForms NodeConfig.DocForms ∧
    NetworkConfig.record.AlikeInForms NetworkConfig.ValueForms NetworkConfig.DocForms := by
  refine ⟨HealthConfig.restored, ?_, ?_, ?_, ?_, ?_⟩
  · exact fun config produced realFree =>
      NodeConfig.restored (NodeConfig.decoded_settings.produced produced) realFree
  · exact fun config produced realFree =>
      NetworkConfig.restored (NetworkConfig.decoded_settings.produced produced) realFree
  · exact Record.empty_without NodeConfig.lenient NodeConfig.settings_nullable
  · exact Record.alike_in_forms NodeConfig.lenient NodeConfig.value_forms_alike
      (NodeConfig.doc_forms_alike 125)
  · exact Record.alike_in_forms NetworkConfig.lenient NetworkConfig.value_forms_alike
      (NetworkConfig.doc_forms_alike 123)

def decoratedText : Bytes :=
  Bytes.ofText ("\x7b\"name\":\"\\u0001é\",\"node_configs\":[\x7b\"genesis_file\":[0,255]," ++
    "\"staking_key\":\"k\",\"impl_specific_config\":\x7b\"a\":[-1,null]\x7d\x7d]\x7d")

def decoratedSettings : Value :=
  .object [("a", .array [.number (.integer (-1)), .null])]

def decoratedNetwork : NetworkConfig where
  name := "\x01é"
  nodes := [{
    genesisFile := [0, 255]
    stakingKey := [0x6B]
    implConfig := some decoratedSettings }]

theorem decorated_network_comes_back :
    NetworkConfig.decoder.fromText decoratedText = .ok decoratedNetwork ∧
      NetworkConfig.decoder.ofValue decoratedNetwork.encode = .ok decoratedNetwork ∧
      NetworkConfig.decoder.fromText (Bytes.ofText decoratedNetwork.encode.print) =
        .ok decoratedNetwork := by
  have decoded : NetworkConfig.decoder.fromText decoratedText = .ok decoratedNetwork := by
    decide +kernel
  have onlyThese {holds : Value → Prop} (fine : holds decoratedSettings) :
      decoratedNetwork.Settings holds := by
    intro node listed settings held
    obtain rfl := List.mem_singleton.mp listed
    cases held
    exact fine
  have realFree : decoratedSettings.RealFree := by
    simp only [decoratedSettings]
    refine .object (List.forall_mem_singleton.mpr (.array ?_))
    simp only [List.forall_mem_cons]
    exact ⟨.integer, .null, List.forall_mem_nil _⟩
  have shallow : decoratedSettings.NestedWithin (maximalDepth - 3) := by
    simp only [decoratedSettings]
    refine .object (List.forall_mem_singleton.mpr (.array ?_))
    simp only [List.forall_mem_cons]
    exact ⟨.number, .null, List.forall_mem_nil _⟩
  obtain ⟨-, -, network, -⟩ := decoding_undoes_encoding
  have restored := network decoratedNetwork (.text decoratedText decoded) (onlyThese realFree)
  exact ⟨decoded, restored.byValue, restored.byPrint (onlyThese shallow)⟩

end LocalNet
