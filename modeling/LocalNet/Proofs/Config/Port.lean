import LocalNet.Config.Node
import LocalNet.Proofs.Json.Alternatives
import LocalNet.Proofs.Json.Keeping

/-!
# The port of a node's API

A config file names a port if it is a valid document, whatever else that holds, whose outermost
object has an unsigned integer of 16 bits under the key. Keys count by what they denote, and the last
one wins. Every other file leaves the node at the default.
-/

namespace LocalNet

open Json

/-- Digits, with no sign, fraction or exponent, are what a document has under the key. -/
def Json.Doc.NamesPort (doc : Doc) (port : Nat) : Prop :=
  ∃ digits, doc.Settles "http-port" (.number digits) ∧ Digits digits ∧
    decimalFrom 0 digits = port ∧ port ≤ 65535

namespace NodeConfig

theorem port_of_iff {document : Value} {port : Nat} :
    portOf? document = some port ↔
      document.member? "http-port" = some (.number (.integer port)) ∧ port ≤ 65535 := by
  rw [portOf?]
  split
  · rename_i value found
    rw [found]
    by_cases within : 0 ≤ value ∧ value ≤ 65535
    · have toNat := Int.toNat_of_nonneg within.1
      simp only [Bool.and_eq_true, decide_eq_true_eq, within, and_self, if_true,
        Option.some.injEq, Value.number.injEq, Number.integer.injEq]
      omega
    · simp only [Bool.and_eq_true, decide_eq_true_eq, within, if_false, reduceCtorEq, false_iff,
        Option.some.injEq, Value.number.injEq, Number.integer.injEq]
      omega
  · rename_i unlike
    refine iff_of_false (by simp) ?_
    rintro ⟨found, -⟩
    exact unlike _ found

def GivesPort (file : Bytes) (port : Nat) : Prop :=
  ∃ doc : Doc, doc.Valid file ∧ doc.NamesPort port

/-- The port that the config file of a node gives, other than by default. -/
def namedPort? (config : NodeConfig) : Option Nat :=
  (Value.parse config.configFile).toOption.bind portOf?

theorem http_port_eq (config : NodeConfig) :
    config.httpPort = config.namedPort?.getD defaultHttpPort := by
  rw [httpPort, namedPort?]
  cases Value.parse config.configFile <;> rfl

theorem named_port_iff {config : NodeConfig} {port : Nat} :
    config.namedPort? = some port ↔ GivesPort config.configFile port := by
  rw [namedPort?, Option.bind_eq_some_iff]
  simp only [Record.to_option_iff, port_of_iff]
  constructor
  · rintro ⟨value, parsed, found, small⟩
    obtain ⟨doc, formed, spelled, kept⟩ := parsed_iff.mp parsed
    have valid : doc.Valid config.configFile := valid_iff.mpr ⟨formed, spelled, value, kept⟩
    obtain ⟨member, settles, read⟩ := (kept_member_iff formed.toLexical kept).mp found
    obtain ⟨literal, rfl, number⟩ := kept_number_iff.mp read
    have numeral := (settles.lexical formed.toLexical).number
    obtain ⟨writes, -, -⟩ := (number_of_integer_iff numeral).mp number
    obtain ⟨isDigits, same⟩ := writes_nat_iff.mp writes
    exact ⟨doc, valid, literal, settles, isDigits, same, small⟩
  · rintro ⟨doc, valid, digits, settles, isDigits, rfl, small⟩
    obtain ⟨formed, spelled, value, kept⟩ := valid_iff.mp valid
    have writes := writes_nat_iff.mpr ⟨isDigits, rfl⟩
    have power : Nat.pow 2 64 = 18446744073709551616 := rfl
    have number := (number_of_integer_iff (settles.lexical formed.toLexical).number).mpr
      ⟨writes, by omega, by omega⟩
    have read : Decoder.keptAt? 126 (.number digits) = some _ :=
      kept_number_iff.mpr ⟨digits, rfl, number⟩
    have found := (kept_member_iff formed.toLexical kept).mpr ⟨_, settles, read⟩
    exact ⟨value, parsed_iff.mpr ⟨doc, formed, spelled, kept⟩, found, small⟩

/-- A node serves its API at the port that its config file names, or at the default port where the file
names none. -/
theorem http_port_resolved (config : NodeConfig) :
    (∀ port, config.namedPort? = some port ↔ GivesPort config.configFile port) ∧
      (∀ port, GivesPort config.configFile port → config.httpPort = port) ∧
      ((∀ port, ¬GivesPort config.configFile port) → config.httpPort = 9650) := by
  refine ⟨fun port => named_port_iff, fun port gives => ?_, fun none => ?_⟩
  · rw [http_port_eq, named_port_iff.mpr gives, Option.getD_some]
  · have unnamed : config.namedPort? = Option.none :=
      Option.eq_none_iff_forall_ne_some.mpr fun port named => none port (named_port_iff.mp named)
    rw [http_port_eq, unnamed, Option.getD_none, defaultHttpPort]

/-- An escape in the key is read, and a member under the key before it no longer counts. -/
theorem escaped_key_names_port :
    let config : NodeConfig :=
      { configFile := Bytes.ofText "\x7b \"http-port\": \"\", \"http\\u002dport\": 9660 \x7d" }
    GivesPort config.configFile 9660 ∧ config.httpPort = 9660 := by
  intro config
  obtain ⟨resolved, given, -⟩ := http_port_resolved config
  have gives : GivesPort config.configFile 9660 := (resolved 9660).mp (by decide +kernel)
  exact ⟨gives, given 9660 gives⟩

end NodeConfig

end LocalNet
