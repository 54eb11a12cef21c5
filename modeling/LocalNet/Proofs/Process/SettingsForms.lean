import LocalNet.Process.LaunchConfig
import LocalNet.Proofs.Json.ClosedRecord

/-!
# The forms of launcher settings

Which values are settings, and what they mean, is laid down here without the decoder: an object or an
array, with a program that is not blank and up to three parts more. The decoder accepts these values and no
others, and gives each its meaning. Encoded settings are the one form of each meaning to which all of its
other forms are brought.
-/

namespace LocalNet

open Json

namespace OutputSink

/-- The ways to write a sink. -/
inductive Spelled : Value → OutputSink → Prop where
  | inherit : Spelled (.text "inherit") .inherit
  | null : Spelled (.text "null") .null
  | file (path : String) : Spelled (.object [("file", .text path)]) (.file path)
  | inheritMember : Spelled (.object [("inherit", .null)]) .inherit
  | nullMember : Spelled (.object [("null", .null)]) .null

variable {value : Value} {sink found : OutputSink}

theorem bare_iff {content : Option Value} :
    bare sink content = .ok found ↔ (content = none ∨ content = some .null) ∧ found = sink := by
  cases content with
  | none => simp [bare, eq_comm]
  | some value => cases value <;> simp [bare, eq_comm]

theorem spelled_of_value (decoded : ofValue value = .ok sink) : Spelled value sink := by
  unfold ofValue at decoded
  split at decoded
  · -- A name alone cannot be the name of a file.
    rename_i name
    unfold ofVariant at decoded
    split at decoded
    · rename_i named
      obtain ⟨-, rfl⟩ := bare_iff.mp decoded
      exact named ▸ .inherit
    · split at decoded
      · rename_i named
        obtain ⟨-, rfl⟩ := bare_iff.mp decoded
        exact named ▸ .null
      · split at decoded <;> cases decoded
  · rename_i name content
    unfold ofVariant at decoded
    split at decoded
    · rename_i named
      obtain ⟨absent | null, rfl⟩ := bare_iff.mp decoded
      · cases absent
      · cases null
        exact named ▸ .inheritMember
    · split at decoded
      · rename_i named
        obtain ⟨absent | null, rfl⟩ := bare_iff.mp decoded
        · cases absent
        · cases null
          exact named ▸ .nullMember
      · split at decoded
        · rename_i named
          obtain ⟨path, text, rfl⟩ := except_map_ok decoded
          obtain rfl := Decoder.text_of_value_iff.mp text
          exact named ▸ .file path
        · cases decoded
  · cases decoded
  · cases decoded

theorem of_value_iff : ofValue value = .ok sink ↔ Spelled value sink := by
  refine ⟨spelled_of_value, fun spelled => ?_⟩
  cases spelled <;> rfl

theorem Spelled.unique (spelled : Spelled value sink) (alsoSpelled : Spelled value found) :
    sink = found :=
  Except.ok.inj ((of_value_iff.mpr spelled).symm.trans (of_value_iff.mpr alsoSpelled))

theorem encode_spelled (sink : OutputSink) : Spelled sink.encode sink := by
  cases sink with
  | inherit => exact .inherit
  | null => exact .null
  | file path => exact .file path

end OutputSink

namespace LaunchConfig

/-- What settings come to that give a program, and give or leave out the other parts. -/
structure Fills (program stdout stderr extraArgs : Option Value) (config : LaunchConfig) : Prop where
  program : program = some (.text config.binaryPath)
  stdout : Given .inherit OutputSink.Spelled stdout config.stdout
  stderr : Given .inherit OutputSink.Spelled stderr config.stderr
  extraArgs : Given [] (fun value args => value = .array (args.map .text)) extraArgs
    config.extraArgs

abbrev FilledBy (members : List (String × Value)) (config : LaunchConfig) : Prop :=
  Fills (members.lookup "binary_path") (members.lookup "stdout") (members.lookup "stderr")
    (members.lookup "extra_args") config

/-- The values that are settings, with what they mean. An object names each member once. -/
inductive Written : Value → LaunchConfig → Prop where
  | object {members : List (String × Value)} {config : LaunchConfig}
      (distinct : (members.map Prod.fst).Nodup)
      (known : ∀ member ∈ members, member.1 ∈ ["binary_path", "stdout", "stderr", "extra_args"])
      (filled : FilledBy members config) (named : config.binaryPath ≠ "") :
    Written (.object members) config
  | array {elements : List Value} {config : LaunchConfig} (short : elements.length ≤ 4)
      (fills : Fills elements[0]? elements[1]? elements[2]? elements[3]? config)
      (named : config.binaryPath ≠ "") :
    Written (.array elements) config

inductive Stored : String × Value → (LaunchConfig → LaunchConfig) → Prop where
  | program (path : String) :
    Stored ("binary_path", .text path) fun config => { config with binaryPath := path }
  | stdout {value : Value} {sink : OutputSink} (spelled : OutputSink.Spelled value sink) :
    Stored ("stdout", value) fun config => { config with stdout := sink }
  | stderr {value : Value} {sink : OutputSink} (spelled : OutputSink.Spelled value sink) :
    Stored ("stderr", value) fun config => { config with stderr := sink }
  | extraArgs (args : List String) :
    Stored ("extra_args", .array (args.map .text)) fun config => { config with extraArgs := args }

variable {value : Value} {config : LaunchConfig} {members : List (String × Value)}

theorem stores_iff {member : String × Value} {change : LaunchConfig → LaunchConfig} :
    record.Stores member change ↔ Stored member change := by
  constructor
  · rintro ⟨field, found, made⟩
    obtain ⟨name, value⟩ := member
    obtain ⟨listed, rfl⟩ := Record.field_of_name found
    simp only [record, List.mem_cons, List.not_mem_nil, or_false] at listed
    rcases listed with rfl | rfl | rfl | rfl
    · obtain ⟨path, text, rfl⟩ := except_map_ok made
      obtain rfl := Decoder.text_of_value_iff.mp text
      exact .program path
    · obtain ⟨sink, decoded, rfl⟩ := except_map_ok made
      exact .stdout (OutputSink.of_value_iff.mp decoded)
    · obtain ⟨sink, decoded, rfl⟩ := except_map_ok made
      exact .stderr (OutputSink.of_value_iff.mp decoded)
    · obtain ⟨args, texts, rfl⟩ := except_map_ok made
      obtain rfl := Decoder.texts_of_value_iff.mp texts
      exact .extraArgs args
  · intro stored
    cases stored with
    | program path => exact (Record.stores_iff rfl).mpr ⟨path, rfl, rfl⟩
    | stdout spelled => exact (Record.stores_iff rfl).mpr ⟨_, OutputSink.of_value_iff.mpr spelled, rfl⟩
    | stderr spelled => exact (Record.stores_iff rfl).mpr ⟨_, OutputSink.of_value_iff.mpr spelled, rfl⟩
    | extraArgs args =>
        exact (Record.stores_iff rfl).mpr ⟨args, Decoder.texts_of_value_iff.mpr rfl, rfl⟩

theorem program_column :
    record.Column "binary_path" (fun value path => value = .text path) binaryPath where
  own stores _ := by
    obtain ⟨path, text, rfl⟩ := (Record.stores_iff rfl).mp stores
    exact Decoder.text_of_value_iff.mp text
  others apart stores _ := by
    cases stores_iff.mp stores with
    | program path => exact absurd rfl apart
    | _ => rfl

theorem stdout_column : record.Column "stdout" OutputSink.Spelled stdout where
  own stores _ := by
    obtain ⟨sink, decoded, rfl⟩ := (Record.stores_iff rfl).mp stores
    exact OutputSink.of_value_iff.mp decoded
  others apart stores _ := by
    cases stores_iff.mp stores with
    | stdout spelled => exact absurd rfl apart
    | _ => rfl

theorem stderr_column : record.Column "stderr" OutputSink.Spelled stderr where
  own stores _ := by
    obtain ⟨sink, decoded, rfl⟩ := (Record.stores_iff rfl).mp stores
    exact OutputSink.of_value_iff.mp decoded
  others apart stores _ := by
    cases stores_iff.mp stores with
    | stderr spelled => exact absurd rfl apart
    | _ => rfl

theorem extra_args_column :
    record.Column "extra_args" (fun value args => value = .array (args.map .text)) extraArgs where
  own stores _ := by
    obtain ⟨args, texts, rfl⟩ := (Record.stores_iff rfl).mp stores
    exact Decoder.texts_of_value_iff.mp texts
  others apart stores _ := by
    cases stores_iff.mp stores with
    | extraArgs args => exact absurd rfl apart
    | _ => rfl

theorem Fills.unique {program stdout stderr extraArgs : Option Value} {other : LaunchConfig}
    (fills : Fills program stdout stderr extraArgs config)
    (alsoFills : Fills program stdout stderr extraArgs other) : config = other := by
  have path : config.binaryPath = other.binaryPath := by
    simpa using fills.program.symm.trans alsoFills.program
  have out := fills.stdout.unique alsoFills.stdout fun _ => OutputSink.Spelled.unique
  have errors := fills.stderr.unique alsoFills.stderr fun _ => OutputSink.Spelled.unique
  have args : config.extraArgs = other.extraArgs := by
    refine fills.extraArgs.unique alsoFills.extraArgs ?_
    rintro _ rfl same
    exact List.map_injective_iff.mpr (fun _ _ => Value.text.inj) (Value.array.inj same)
  cases config
  cases other
  exact (LaunchConfig.mk.injEq ..).mpr ⟨path, out, errors, args⟩

theorem filled_of_stored {changes : List (LaunchConfig → LaunchConfig)}
    (stored : List.Forall₂ record.Stores members changes)
    (distinct : (members.map Prod.fst).Nodup) (listed : "binary_path" ∈ members.map Prod.fst) :
    FilledBy members (changes.foldl (fun value change => change value) record.blank) where
  program := by
    obtain ⟨⟨_, value⟩, inside, rfl⟩ := List.mem_map.mp listed
    have found := (lookup_iff_mem distinct).mpr inside
    have program := program_column.found stored distinct record.blank
    rw [found] at program ⊢
    exact congrArg some program
  stdout := stdout_column.found stored distinct record.blank
  stderr := stderr_column.found stored distinct record.blank
  extraArgs := extra_args_column.found stored distinct record.blank

theorem program_listed (filled : FilledBy members config) :
    "binary_path" ∈ members.map Prod.fst := by
  by_contra absent
  have missing : members.lookup "binary_path" = none := by
    refine List.lookup_eq_none_iff.mpr fun member inside => ?_
    have apart : member.1 ≠ "binary_path" := fun same => absent (List.mem_map.mpr ⟨member, inside, same⟩)
    simpa using Ne.symm apart
  have given := filled.program
  rw [missing] at given
  cases given

theorem stored_of_filled (distinct : (members.map Prod.fst).Nodup)
    (known : ∀ member ∈ members, member.1 ∈ ["binary_path", "stdout", "stderr", "extra_args"])
    (filled : FilledBy members config) :
    ∃ changes, List.Forall₂ record.Stores members changes ∧
      config = changes.foldl (fun value change => change value) record.blank := by
  have each : ∀ member ∈ members, ∃ change, record.Stores member change := by
    rintro ⟨name, value⟩ inside
    have found : members.lookup name = some value := (lookup_iff_mem distinct).mpr inside
    have named := known _ inside
    simp only [List.mem_cons, List.not_mem_nil, or_false] at named
    rcases named with rfl | rfl | rfl | rfl
    · obtain rfl := Option.some.inj (found.symm.trans filled.program)
      exact ⟨_, stores_iff.mpr (.program _)⟩
    · have spelled := filled.stdout
      rw [found] at spelled
      exact ⟨_, stores_iff.mpr (.stdout spelled)⟩
    · have spelled := filled.stderr
      rw [found] at spelled
      exact ⟨_, stores_iff.mpr (.stderr spelled)⟩
    · have listed := filled.extraArgs
      rw [found] at listed
      obtain rfl : value = .array (config.extraArgs.map .text) := listed
      exact ⟨_, stores_iff.mpr (.extraArgs _)⟩
  obtain ⟨changes, stored⟩ := related_list_iff.mpr each
  exact ⟨changes, stored, filled.unique (filled_of_stored stored distinct (program_listed filled))⟩

theorem record_object_iff :
    record.ofValue (.object members) = .ok config ↔
      (members.map Prod.fst).Nodup ∧
        (∀ member ∈ members, member.1 ∈ ["binary_path", "stdout", "stderr", "extra_args"]) ∧
        FilledBy members config := by
  rw [Record.of_closed_object_iff rfl]
  constructor
  · rintro ⟨distinct, required, changes, stored, rfl⟩
    have listed := required _ List.mem_cons_self rfl
    exact ⟨distinct, Record.stored_known stored, filled_of_stored stored distinct listed⟩
  · rintro ⟨distinct, known, filled⟩
    obtain ⟨changes, stored, whole⟩ := stored_of_filled distinct known filled
    refine ⟨distinct, fun field listed required => ?_, changes, stored, whole⟩
    have first : field.name = "binary_path" := by
      simp only [record, List.mem_cons, List.not_mem_nil, or_false] at listed
      rcases listed with rfl | rfl | rfl | rfl
      · rfl
      all_goals cases required
    exact first ▸ program_listed filled

theorem names_distinct : record.names.Nodup := by
  decide

/-- An array has its parts where the object of the same elements has them. -/
theorem filled_by_zip_iff (elements : List Value) :
    FilledBy (record.names.zip elements) config ↔
      Fills elements[0]? elements[1]? elements[2]? elements[3]? config := by
  have under {place : Nat} {name : String} (stands : record.names[place]? = some name) :=
    Record.lookup_zip names_distinct stands elements
  have program := @under 0 "binary_path" rfl
  have stdout := @under 1 "stdout" rfl
  have stderr := @under 2 "stderr" rfl
  have extraArgs := @under 3 "extra_args" rfl
  rw [FilledBy, program, stdout, stderr, extraArgs]

theorem required_iff {elements : List Value} :
    (∀ field ∈ record.fields.drop elements.length, field.requiredByPlace = false) ↔
      elements ≠ [] := by
  cases elements with
  | nil => exact ⟨fun optional => absurd (optional _ List.mem_cons_self) (by decide), absurd rfl⟩
  | cons element elements =>
      simp only [ne_eq, reduceCtorEq, not_false_eq_true, iff_true, List.length_cons]
      intro field listed
      have later : field ∈ record.fields.tail := List.mem_of_mem_drop listed
      simp only [record, List.tail_cons, List.mem_cons, List.not_mem_nil, or_false] at later
      rcases later with rfl | rfl | rfl <;> rfl

theorem record_array_iff {elements : List Value} :
    record.ofValue (.array elements) = .ok config ↔
      elements.length ≤ 4 ∧ Fills elements[0]? elements[1]? elements[2]? elements[3]? config := by
  have distinct := Record.zip_distinct names_distinct elements
  rw [Record.of_array_zip_iff names_distinct, required_iff, ← filled_by_zip_iff]
  constructor
  · rintro ⟨short, there, changes, stored, rfl⟩
    refine ⟨short, filled_of_stored stored distinct ?_⟩
    cases elements with
    | nil => exact absurd rfl there
    | cons element elements => exact List.mem_cons_self
  · rintro ⟨short, filled⟩
    refine ⟨short, ?_, stored_of_filled distinct ?_ filled⟩
    · rintro rfl
      exact absurd (program_listed filled) List.not_mem_nil
    · exact fun member inside => (List.of_mem_zip inside).1

theorem of_value_iff : ofValue value = .ok config ↔ Written value config := by
  have split : ofValue value = .ok config ↔
      record.ofValue value = .ok config ∧ config.binaryPath ≠ "" := by
    unfold ofValue
    cases record.ofValue value with
    | error reason => simp
    | ok found =>
        dsimp only
        split
        · rename_i blank
          simp only [reduceCtorEq, Except.ok.injEq, ne_eq, false_iff, not_and, not_not]
          rintro rfl
          exact blank
        · rename_i named
          simp only [Except.ok.injEq, ne_eq, iff_self_and]
          rintro rfl
          exact named
  rw [split]
  constructor
  · rintro ⟨decoded, named⟩
    cases value with
    | object members =>
        obtain ⟨distinct, known, filled⟩ := record_object_iff.mp decoded
        exact .object distinct known filled named
    | array elements =>
        obtain ⟨short, fills⟩ := record_array_iff.mp decoded
        exact .array short fills named
    | _ => cases decoded
  · intro written
    cases written with
    | object distinct known filled named =>
        exact ⟨record_object_iff.mpr ⟨distinct, known, filled⟩, named⟩
    | array short fills named => exact ⟨record_array_iff.mpr ⟨short, fills⟩, named⟩

/-- The form to which all others of one meaning are brought. -/
def normalForm (config : LaunchConfig) : Value :=
  .object [
    ("binary_path", .text config.binaryPath),
    ("extra_args", .array (config.extraArgs.map .text)),
    ("stderr", config.stderr.encode),
    ("stdout", config.stdout.encode)]

theorem encode_eq (config : LaunchConfig) : config.encode = config.normalForm := by
  simp only [encode, normalForm, Value.ofMembers, List.foldl_cons, List.foldl_nil, putMember,
    String.reduceEq, String.reduceLT, ↓reduceIte]

theorem encode_written (named : config.binaryPath ≠ "") : Written config.encode config := by
  rw [encode_eq]
  refine .object (by simp) (by simp) ?_ named
  exact {
    program := rfl
    stdout := config.stdout.encode_spelled
    stderr := config.stderr.encode_spelled
    extraArgs := rfl }

theorem Written.unique {other : LaunchConfig} (written : Written value config)
    (alsoWritten : Written value other) : config = other :=
  Except.ok.inj ((of_value_iff.mpr written).symm.trans (of_value_iff.mpr alsoWritten))

theorem Written.named (written : Written value config) : config.binaryPath ≠ "" := by
  cases written <;> assumption

def normalize (value : Value) : Except Mismatch Value :=
  (ofValue value).map encode

theorem normalize_iff {normal : Value} :
    normalize value = .ok normal ↔ ∃ config, Written value config ∧ config.normalForm = normal := by
  unfold normalize
  constructor
  · intro normalized
    obtain ⟨config, decoded, rfl⟩ := except_map_ok normalized
    exact ⟨config, of_value_iff.mp decoded, (encode_eq config).symm⟩
  · rintro ⟨config, written, rfl⟩
    rw [of_value_iff.mpr written, ← encode_eq]
    rfl

end LaunchConfig

open LaunchConfig in
/-- A value decodes to settings exactly if it is written as such, and to what it then means. Settings
with a program come back from what they are encoded as. So to decode and encode brings every accepted
value to a normal form, which stays as it is from then on, and which it shares with the values of its own
meaning and with no others. -/
theorem settings_decode_as_written :
    (∀ value config, LaunchConfig.ofValue value = .ok config ↔ Written value config) ∧
      (∀ config : LaunchConfig, config.binaryPath ≠ "" →
        LaunchConfig.ofValue config.encode = .ok config) ∧
      (∀ value config, LaunchConfig.ofValue value = .ok config →
        LaunchConfig.ofValue config.encode = .ok config) ∧
      ∀ value normal, normalize value = .ok normal →
        (∃ config, Written value config ∧ normal = config.normalForm) ∧
          normalize normal = .ok normal ∧
          ∀ other, normalize other = .ok normal ↔
            ∃ config, Written value config ∧ Written other config := by
  have restored (config : LaunchConfig) (named : config.binaryPath ≠ "") :
      LaunchConfig.ofValue config.encode = .ok config :=
    of_value_iff.mpr (encode_written named)
  refine ⟨fun value config => of_value_iff, restored, fun value config decoded => ?_,
    fun value normal normalized => ?_⟩
  · exact restored config (of_value_iff.mp decoded).named
  · obtain ⟨config, written, rfl⟩ := normalize_iff.mp normalized
    have again : Written config.normalForm config := encode_eq config ▸ encode_written written.named
    refine ⟨⟨config, written, rfl⟩, normalize_iff.mpr ⟨config, again, rfl⟩, fun other => ?_⟩
    rw [normalize_iff]
    constructor
    · rintro ⟨found, alsoWritten, same⟩
      have agreed : Written config.normalForm found :=
        same ▸ encode_eq found ▸ encode_written alsoWritten.named
      exact ⟨config, written, again.unique agreed ▸ alsoWritten⟩
    · rintro ⟨found, alsoWritten, means⟩
      exact ⟨found, means, written.unique alsoWritten ▸ rfl⟩

/-- An array may end early, and its sinks may be members of objects. -/
theorem array_comes_to_normal_form :
    let value := Value.array [.text "bin/node", .object [("null", .null)],
      .object [("file", .text "errors")]]
    let config : LaunchConfig :=
      { binaryPath := "bin/node", stdout := .null, stderr := .file "errors" }
    LaunchConfig.ofValue value = .ok config ∧ LaunchConfig.Written value config ∧
      LaunchConfig.ofValue config.encode = .ok config ∧
      LaunchConfig.normalize value = .ok config.normalForm ∧
      LaunchConfig.normalize config.normalForm = .ok config.normalForm ∧
      config.normalForm ≠ value := by
  intro value config
  obtain ⟨accepts, -, restored, normal⟩ := settings_decode_as_written
  have decoded : LaunchConfig.ofValue value = .ok config := by rfl
  have normalized : LaunchConfig.normalize value = .ok config.normalForm := by rfl
  exact ⟨decoded, (accepts value config).mp decoded, restored value config decoded, normalized,
    (normal value _ normalized).2.1, by decide⟩

end LocalNet
