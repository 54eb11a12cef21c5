import LocalNet.Config.Logging
import LocalNet.Config.Network
import LocalNet.Proofs.Json.Rewording

/-!
# Configurations are read alike however they are worded

Every configuration is an orderless record. Its documented defaults are listed here as JSON values;
the members of a network that are records themselves may be reworded in turn.
-/

namespace LocalNet

open Json

/-! ## Health checks -/

namespace HealthConfig

theorem fields_uniform : ∀ field ∈ record.fields, field.store.IsUniform := by
  simp only [record, List.forall_mem_cons]
  refine ⟨?_, ?_, ?_, ?_, List.forall_mem_nil _⟩ <;>
    exact Decoder.map_is_uniform _
      (Decoder.map_is_uniform _ (Decoder.integer_is_uniform _ _ _))

theorem orderless : record.Orderless := by
  refine Record.orderless_of_apart rfl (by decide) ?_
  simp only [record, List.pairwise_cons, List.forall_mem_cons, List.Pairwise.nil, and_true]
  repeat' apply And.intro
  all_goals
    first
    | exact List.forall_mem_nil _
    | exact Record.defaulted_apart fun _ _ _ => rfl

theorem fields_agree (value : Value) : ∀ field ∈ record.fields, field.store.Agrees value := by
  simp only [record, List.forall_mem_cons]
  refine ⟨?_, ?_, ?_, ?_, List.forall_mem_nil _⟩ <;>
    exact Decoder.map_agrees _ (Decoder.map_agrees _ (Decoder.integer_agrees _ _ _ _))

theorem object_agrees (members : List (String × Value)) : decoder.Agrees (.object members) :=
  Record.object_agrees orderless fields_uniform fun member _ field known =>
    fields_agree member.2 field (Record.field_of_name known).1

def defaults : List (String × Value) := [
  ("poll_interval_millis", .ofNat 1000),
  ("timeout_secs", .ofNat 120),
  ("api_request_timeout_secs", .ofNat 10),
  ("max_attempts", .ofNat 0)]

theorem defaults_documented (depth : Nat) :
    ∀ entry ∈ defaults, record.IsDefault entry.1 entry.2 ∧ entry.2.NestedWithin depth := by
  simp only [defaults, List.forall_mem_cons]
  refine ⟨⟨?_, .number⟩, ⟨?_, .number⟩, ⟨?_, .number⟩, ⟨?_, .number⟩, List.forall_mem_nil _⟩ <;>
    exact ⟨_, _, rfl, Decoder.map_agrees _ (Decoder.map_agrees _ (Decoder.integer_agrees _ _ _ _)),
      rfl, rfl⟩

/-- No member of a health check is a record. -/
def Rewords : List (Bytes × Doc) → List (Bytes × Doc) → Prop :=
  record.Rewords defaults fun _ _ _ => False

def Repeats : List (Bytes × Doc) → Prop :=
  record.Repeats fun _ _ => False

end HealthConfig

/-! ## Logging -/

namespace LoggingConfig

theorem fields_uniform : ∀ field ∈ record.fields, field.store.IsUniform := by
  simp only [record, List.forall_mem_cons]
  exact ⟨Decoder.map_is_uniform _ (Decoder.optional_is_uniform (Decoder.text_is_uniform _)),
    Decoder.map_is_uniform _ Decoder.boolean_is_uniform, List.forall_mem_nil _⟩

theorem orderless : record.Orderless := by
  refine Record.orderless_of_apart rfl (by decide) ?_
  simp only [record, List.pairwise_cons, List.forall_mem_cons, List.Pairwise.nil, and_true]
  repeat' apply And.intro
  all_goals
    first
    | exact List.forall_mem_nil _
    | exact Record.defaulted_apart fun _ _ _ => rfl

def defaults : List (String × Value) :=
  [("filter", .null), ("json_format", .boolean false)]

theorem defaults_documented (depth : Nat) :
    ∀ entry ∈ defaults, record.IsDefault entry.1 entry.2 ∧ entry.2.NestedWithin depth := by
  simp only [defaults, List.forall_mem_cons]
  refine ⟨⟨⟨_, _, rfl, Decoder.map_agrees _ (Decoder.optional_agrees (Decoder.text_is_uniform _)
      (Decoder.text_agrees _ _)), rfl, rfl⟩, .null⟩,
    ⟨⟨_, _, rfl, Decoder.map_agrees _ (Decoder.boolean_agrees _), rfl, rfl⟩, .boolean⟩,
    List.forall_mem_nil _⟩

def Rewords : List (Bytes × Doc) → List (Bytes × Doc) → Prop :=
  record.Rewords defaults fun _ _ _ => False

def Repeats : List (Bytes × Doc) → Prop :=
  record.Repeats fun _ _ => False

end LoggingConfig

/-! ## Nodes -/

namespace NodeConfig

theorem fields_uniform : ∀ field ∈ record.fields, field.store.IsUniform := by
  simp only [record, List.forall_mem_cons]
  exact ⟨Decoder.map_is_uniform _ (Decoder.text_is_uniform _),
    Decoder.map_is_uniform _ Decoder.boolean_is_uniform,
    Decoder.map_is_uniform _ Decoder.bytes_is_uniform,
    Decoder.map_is_uniform _ Decoder.bytes_is_uniform,
    Decoder.map_is_uniform _ Decoder.bytes_is_uniform,
    Decoder.map_is_uniform _ Decoder.bytes_is_uniform,
    Decoder.map_is_uniform _ Decoder.bytes_is_uniform,
    Decoder.map_is_uniform _ (Decoder.optional_is_uniform Decoder.kept_is_uniform),
    List.forall_mem_nil _⟩

theorem orderless : record.Orderless := by
  refine Record.orderless_of_apart rfl (by decide) ?_
  simp only [record, List.pairwise_cons, List.forall_mem_cons, List.Pairwise.nil, and_true]
  repeat' apply And.intro
  all_goals
    first
    | exact List.forall_mem_nil _
    | exact Record.defaulted_apart fun _ _ _ => rfl

/-- No bytes may be written as an empty list or as an empty string. -/
def defaults : List (String × Value) := [
  ("name", .text ""),
  ("is_beacon", .boolean false),
  ("genesis_file", .array []), ("genesis_file", .text ""),
  ("config_file", .array []), ("config_file", .text ""),
  ("c_chain_config_file", .array []), ("c_chain_config_file", .text ""),
  ("staking_cert", .array []), ("staking_cert", .text ""),
  ("staking_key", .array []), ("staking_key", .text ""),
  ("impl_specific_config", .null)]

theorem defaults_documented (depth : Nat) :
    ∀ entry ∈ defaults, record.IsDefault entry.1 entry.2 ∧
      entry.2.NestedWithin (depth + 1) := by
  have noBytes : (Value.array []).NestedWithin (depth + 1) := .array (List.forall_mem_nil _)
  simp only [defaults, List.forall_mem_cons]
  refine ⟨⟨⟨_, _, rfl, Decoder.map_agrees _ (Decoder.text_agrees _ _), rfl, rfl⟩, .text⟩,
    ⟨⟨_, _, rfl, Decoder.map_agrees _ (Decoder.boolean_agrees _), rfl, rfl⟩, .boolean⟩,
    ⟨?_, noBytes⟩, ⟨?_, .text⟩, ⟨?_, noBytes⟩, ⟨?_, .text⟩, ⟨?_, noBytes⟩, ⟨?_, .text⟩,
    ⟨?_, noBytes⟩, ⟨?_, .text⟩, ⟨?_, noBytes⟩, ⟨?_, .text⟩,
    ⟨⟨_, _, rfl, Decoder.map_agrees _ (Decoder.optional_agrees Decoder.kept_is_uniform
      (Decoder.kept_agrees .null)), rfl, rfl⟩, .null⟩,
    List.forall_mem_nil _⟩ <;>
    exact ⟨_, _, rfl, Decoder.map_agrees _ (Decoder.bytes_agrees _), rfl, rfl⟩

def Rewords : List (Bytes × Doc) → List (Bytes × Doc) → Prop :=
  record.Rewords defaults fun _ _ _ => False

def Repeats : List (Bytes × Doc) → Prop :=
  record.Repeats fun _ _ => False

/-- Of the nodes of a network, those that are objects may be reworded. -/
inductive RewordsElement : Doc → Doc → Prop where
  | kept {doc : Doc} : RewordsElement doc doc
  | object {members others : List (Bytes × Doc)} (rewords : Rewords members others) :
      RewordsElement (.object members) (.object others)

theorem element_reads_alike (depth : Nat) {doc other : Doc} (rewords : RewordsElement doc other)
    (lexical : doc.Lexical) :
    other.Lexical ∧
      meaning (decoder.read (depth + 2)) doc = meaning (decoder.read (depth + 2)) other := by
  cases rewords with
  | kept => exact ⟨lexical, rfl⟩
  | object rewords =>
      exact Record.object_reads_alike _ orderless fields_uniform (defaults_documented depth)
        (fun _ _ _ none => none.elim) rewords lexical

theorem elements_read_alike (depth : Nat) {elements others : List Doc}
    (rewords : List.Forall₂ RewordsElement elements others)
    (lexical : ∀ element ∈ elements, element.Lexical) :
    (∀ other ∈ others, other.Lexical) ∧
      meanings (decoder.read (depth + 2)) elements = meanings (decoder.read (depth + 2)) others := by
  induction rewords with
  | nil => exact ⟨lexical, rfl⟩
  | cons first _ induction =>
      rw [List.forall_mem_cons] at lexical
      obtain ⟨otherLexical, read⟩ := element_reads_alike depth first lexical.1
      obtain ⟨othersLexical, remaining⟩ := induction lexical.2
      refine ⟨List.forall_mem_cons.mpr ⟨otherLexical, othersLexical⟩, ?_⟩
      rw [meanings, meanings, read, remaining]

end NodeConfig

/-! ## Networks -/

namespace NetworkConfig

theorem fields_uniform : ∀ field ∈ record.fields, field.store.IsUniform := by
  simp only [record, List.forall_mem_cons]
  exact ⟨Decoder.map_is_uniform _ (Decoder.text_is_uniform _),
    Decoder.map_is_uniform _ (Decoder.text_is_uniform _),
    Decoder.map_is_uniform _ (Decoder.list_is_uniform
      (Record.record_is_uniform NodeConfig.fields_uniform)),
    Decoder.map_is_uniform _ (Record.record_is_uniform HealthConfig.fields_uniform),
    List.forall_mem_nil _⟩

theorem orderless : record.Orderless := by
  refine Record.orderless_of_apart rfl (by decide) ?_
  simp only [record, List.pairwise_cons, List.forall_mem_cons, List.Pairwise.nil, and_true]
  repeat' apply And.intro
  all_goals
    first
    | exact List.forall_mem_nil _
    | exact Record.defaulted_apart fun _ _ _ => rfl

/-- The default health check may be left empty or have its own defaults spelled out. -/
def defaults : List (String × Value) := [
  ("name", .text ""),
  ("log_level", .text "INFO"),
  ("node_configs", .array []),
  ("health", .object []),
  ("health", .object HealthConfig.defaults)]

theorem defaults_documented (depth : Nat) :
    ∀ entry ∈ defaults, record.IsDefault entry.1 entry.2 ∧
      entry.2.NestedWithin (depth + 1) := by
  have healthAgrees := HealthConfig.object_agrees
  simp only [defaults, List.forall_mem_cons]
  refine ⟨⟨⟨_, _, rfl, Decoder.map_agrees _ (Decoder.text_agrees _ _), rfl, rfl⟩, .text⟩,
    ⟨⟨_, _, rfl, Decoder.map_agrees _ (Decoder.text_agrees _ _), rfl, rfl⟩, .text⟩,
    ⟨⟨_, _, rfl, Decoder.map_agrees _ (Decoder.list_agrees
      (Record.record_is_uniform NodeConfig.fields_uniform) (List.forall_mem_nil _)), rfl, rfl⟩,
      .array (List.forall_mem_nil _)⟩,
    ⟨⟨_, _, rfl, Decoder.map_agrees _ (healthAgrees _), rfl, rfl⟩,
      .object (List.forall_mem_nil _)⟩,
    ⟨⟨_, _, rfl, Decoder.map_agrees _ (healthAgrees _), rfl, rfl⟩, .object ?_⟩,
    List.forall_mem_nil _⟩
  exact fun entry listed => (HealthConfig.defaults_documented _ entry listed).2

inductive RewordsWithin : String → Doc → Doc → Prop where
  | nodes {elements others : List Doc}
      (each : List.Forall₂ NodeConfig.RewordsElement elements others) :
      RewordsWithin "node_configs" (.array elements) (.array others)
  | health {members others : List (Bytes × Doc)} (rewords : HealthConfig.Rewords members others) :
      RewordsWithin "health" (.object members) (.object others)

inductive RepeatsWithin : String → Doc → Prop where
  | nodes {elements : List Doc} {members : List (Bytes × Doc)}
      (listed : Doc.object members ∈ elements) (repeats : NodeConfig.Repeats members) :
      RepeatsWithin "node_configs" (.array elements)
  | health {members : List (Bytes × Doc)} (repeats : HealthConfig.Repeats members) :
      RepeatsWithin "health" (.object members)

def Rewords : List (Bytes × Doc) → List (Bytes × Doc) → Prop :=
  record.Rewords defaults RewordsWithin

def Repeats : List (Bytes × Doc) → Prop :=
  record.Repeats RepeatsWithin

theorem nodes_read {depth : Nat} {elements : List Doc}
    (lexical : (Doc.array elements).Lexical) :
    meaning ((Decoder.list NodeConfig.decoder).read (depth + 1)) (.array elements) =
      meanings (NodeConfig.decoder.read depth) elements :=
  (Decoder.list_yields (Record.record_is_uniform NodeConfig.fields_uniform) lexical
    (depth + 1)).meaning_eq

theorem within_reads_alike (depth : Nat) {name : String} {doc other : Doc}
    (rewords : RewordsWithin name doc other) : record.ReadsAlike (depth + 3) name doc other := by
  cases rewords with
  | @nodes elements others each =>
      refine ⟨_, rfl, fun lexical => ?_⟩
      obtain ⟨each, same⟩ := NodeConfig.elements_read_alike depth each
        (Doc.lexical_array_iff.mp lexical)
      have otherLexical := Doc.lexical_array_iff.mpr each
      refine ⟨otherLexical, ?_⟩
      rw [Record.defaulted_reads, Record.defaulted_reads, nodes_read lexical,
        nodes_read otherLexical, same]
  | health rewords =>
      refine ⟨_, rfl, fun lexical => ?_⟩
      obtain ⟨otherLexical, same⟩ := Record.object_reads_alike (depth + 2)
        HealthConfig.orderless HealthConfig.fields_uniform (HealthConfig.defaults_documented _)
        (fun _ _ _ none => none.elim) rewords lexical
      refine ⟨otherLexical, ?_⟩
      rw [Record.defaulted_reads, Record.defaulted_reads]
      exact congrArg _ same

theorem within_unread (depth : Nat) {name : String} {doc : Doc}
    (repeats : RepeatsWithin name doc) (lexical : doc.Lexical) :
    ∃ field, record.field? name = some field ∧
      meaning (field.store.read (depth + 2)) doc = none := by
  cases repeats with
  | nodes listed repeats =>
      refine ⟨_, rfl, ?_⟩
      have unread : meaning (NodeConfig.decoder.read (depth + 1)) _ = none :=
        Record.object_unread depth NodeConfig.orderless NodeConfig.fields_uniform
          (fun _ _ none => none.elim) repeats (lexical.element listed)
      rw [Record.defaulted_reads, nodes_read lexical, meanings_none listed unread]
      rfl
  | health repeats =>
      refine ⟨_, rfl, ?_⟩
      have unread := Record.object_unread (depth + 1) HealthConfig.orderless
        HealthConfig.fields_uniform (fun _ _ none => none.elim) repeats lexical
      rw [Record.defaulted_reads]
      exact congrArg _ unread

end NetworkConfig

/-- The object form of every configuration means the same in any order of its members, with any
unknown members, in any spacing and with defaults left out or spelled out, in nested objects too. A
known name that stands twice is always refused. -/
theorem object_form_is_indifferent :
    NetworkConfig.record.Indifferent NetworkConfig.Rewords NetworkConfig.Repeats ∧
    NodeConfig.record.Indifferent NodeConfig.Rewords NodeConfig.Repeats ∧
    HealthConfig.record.Indifferent HealthConfig.Rewords HealthConfig.Repeats ∧
    LoggingConfig.record.Indifferent LoggingConfig.Rewords LoggingConfig.Repeats := by
  refine ⟨?_, ?_, ?_, ?_⟩
  · exact Record.indifferent NetworkConfig.orderless NetworkConfig.fields_uniform
      (NetworkConfig.defaults_documented 125)
      (fun _ _ _ rewords => NetworkConfig.within_reads_alike 123 rewords)
      fun _ _ repeats lexical => NetworkConfig.within_unread 124 repeats lexical
  · exact Record.indifferent NodeConfig.orderless NodeConfig.fields_uniform
      (NodeConfig.defaults_documented 125) (fun _ _ _ none => none.elim)
      fun _ _ none => none.elim
  · exact Record.indifferent HealthConfig.orderless HealthConfig.fields_uniform
      (HealthConfig.defaults_documented _) (fun _ _ _ none => none.elim) fun _ _ none => none.elim
  · exact Record.indifferent LoggingConfig.orderless LoggingConfig.fields_uniform
      (LoggingConfig.defaults_documented _) (fun _ _ _ none => none.elim) fun _ _ none => none.elim

/-- The text is `{"name":"n","health":{"timeout_secs":5}}`. -/
def plainMembers : List (Bytes × Doc) := [
  (Bytes.ofText "name", .text (Bytes.ofText "n")),
  (Bytes.ofText "health", .object [(Bytes.ofText "timeout_secs", .number (Bytes.ofText "5"))])]

/-- The text is `{"extra":[{}],"health":{"max_attempts":0,"timeout_secs":5},"name":"n"}`. -/
def rewordedMembers : List (Bytes × Doc) := [
  (Bytes.ofText "extra", .array [.object []]),
  (Bytes.ofText "health", .object [
    (Bytes.ofText "max_attempts", .number (Bytes.ofText "0")),
    (Bytes.ofText "timeout_secs", .number (Bytes.ofText "5"))]),
  (Bytes.ofText "name", .text (Bytes.ofText "n"))]

def rewordedNetwork : NetworkConfig where
  name := "n"
  health := { timeoutSecs := 5 }

theorem digit_numeral {digit : UInt8} (isDigit : Cursor.isDigit digit = true) :
    Numeral [digit] := by
  have magnitude : Magnitude [digit] [] [] := ⟨⟨by simp, by simp [isDigit]⟩, by simp, .none, .none⟩
  simpa using Numeral.unsigned magnitude

theorem plain_members_lexical : (Doc.object plainMembers).Lexical where
  bodies body inside := by
    have plain : ∀ body ∈ (Doc.object plainMembers).bodies,
        ∀ byte ∈ body, byte ≠ 0x22 ∧ byte ≠ 0x5C := by decide +kernel
    exact Body.of_plain (plain body inside)
  numerals literal inside := by
    have digits : ∀ literal ∈ (Doc.object plainMembers).numerals, literal = [0x35] := by
      decide +kernel
    rw [digits literal inside]
    exact digit_numeral rfl

theorem plain_members_reworded : NetworkConfig.Rewords plainMembers rewordedMembers := by
  have key (name : String) (plain : ∀ byte ∈ Bytes.ofText name, byte ≠ 0x22 ∧ byte ≠ 0x5C) :
      Body (Bytes.ofText name) := Body.of_plain plain
  have zero : (Doc.number (Bytes.ofText "0")).WellFormed := by
    refine ⟨⟨List.forall_mem_nil _, fun literal listed => ?_⟩, rfl⟩
    obtain rfl : literal = Bytes.ofText "0" := List.mem_singleton.mp listed
    have isDigit : Cursor.isDigit 0x30 = true := rfl
    exact digit_numeral isDigit
  have shows : (Doc.number (Bytes.ofText "0")).Shows (.ofNat 0) := .number (by decide +kernel)
  have attempts : textOf? (Bytes.ofText "max_attempts") = some "max_attempts" := by decide +kernel
  have health : HealthConfig.Rewords
      [(Bytes.ofText "timeout_secs", .number (Bytes.ofText "5"))]
      [(Bytes.ofText "max_attempts", .number (Bytes.ofText "0")),
        (Bytes.ofText "timeout_secs", .number (Bytes.ofText "5"))] :=
    .spelledOut (key _ (by decide +kernel)) attempts (by decide +kernel)
      (by simp [HealthConfig.defaults]) shows zero
  have extra : (Doc.array [.object []]).WellFormed :=
    ⟨⟨List.forall_mem_nil _, List.forall_mem_nil _⟩, rfl⟩
  have unknown : textOf? (Bytes.ofText "extra") = some "extra" := by decide +kernel
  have inside : textOf? (Bytes.ofText "health") = some "health" := by decide +kernel
  refine .trans (.reordered (List.Perm.swap _ _ _)) (.trans ?_
    (.extended (key _ (by decide +kernel)) unknown (by decide +kernel) extra))
  show NetworkConfig.Rewords ([] ++ _ :: _) ([] ++ _ :: _)
  exact .inside inside (.health health)

theorem network_means_the_same :
    NetworkConfig.decoder.fromText (Doc.object plainMembers).compact = .ok rewordedNetwork ∧
      NetworkConfig.decoder.fromText (Doc.object rewordedMembers).compact = .ok rewordedNetwork := by
  have decoded :
      NetworkConfig.decoder.fromText (Doc.object plainMembers).compact = .ok rewordedNetwork := by
    decide +kernel
  exact ⟨decoded, object_form_is_indifferent.1.reworded plainMembers rewordedMembers _ _ _
    plain_members_lexical (Doc.spells_compact _) plain_members_reworded (Doc.spells_compact _)
    decoded⟩

end LocalNet
