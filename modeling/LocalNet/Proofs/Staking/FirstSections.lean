import LocalNet.Proofs.Pem.File
import LocalNet.Staking.Material

/-!
# What staking material depends on

Of two well-formed files only the first certificate and the first private key are looked at: whether the
pair is accepted, the leaf and the identity are the same whatever else the files are made of, however
their lines are cut and ended.
-/

namespace LocalNet

open Pem

namespace Staking

def FirstCertificate (parts : List Section) (leaf : Bytes) : Prop :=
  ∃ before after, parts = before ++ ⟨certificateLabel, leaf⟩ :: after ∧
    ∀ part ∈ before, part.label ≠ certificateLabel

/-- The kind of the first section with a private key, and what it holds. -/
def FirstKey (parts : List Section) (form : Keys.KeyForm) (key : Bytes) : Prop :=
  ∃ before label after, parts = before ++ ⟨label, key⟩ :: after ∧ keyForm? label = some form ∧
    ∀ part ∈ before, keyForm? part.label = none

/-! ### Reading files without faults -/

theorem certificates_ok (parts : List Section) :
    certificates (parts.map Except.ok) =
      .ok ((parts.filter (·.label = certificateLabel)).map Section.content) := by
  induction parts with
  | nil => rfl
  | cons part parts ih =>
      rw [List.map_cons, certificates, ih]
      by_cases labelled : part.label = certificateLabel <;> simp [labelled]

theorem no_certificates {parts : List Section} (none : ∀ part ∈ parts, part.label ≠ certificateLabel) :
    certificates (parts.map Except.ok) = .ok [] := by
  rw [certificates_ok, List.filter_eq_nil_iff.mpr (by simpa using none)]
  rfl

theorem first_of_certificates {parts : List Section} {leaf : Bytes}
    (first : FirstCertificate parts leaf) :
    ∃ others, certificates (parts.map Except.ok) = .ok (leaf :: others) := by
  obtain ⟨before, after, rfl, none⟩ := first
  refine ⟨(after.filter (·.label = certificateLabel)).map Section.content, ?_⟩
  rw [certificates_ok, List.filter_append, List.filter_eq_nil_iff.mpr (by simpa using none)]
  simp

theorem exists_first_certificate {parts : List Section}
    (given : ∃ part ∈ parts, part.label = certificateLabel) : ∃ leaf, FirstCertificate parts leaf := by
  induction parts with
  | nil => simp at given
  | cons part parts ih =>
      by_cases labelled : part.label = certificateLabel
      · exact ⟨part.content, [], parts, by rw [← labelled]; rfl, by simp⟩
      · obtain ⟨leaf, before, after, rfl, none⟩ := ih (by simpa [labelled] using given)
        exact ⟨leaf, part :: before, after, rfl, by simpa [labelled] using none⟩

theorem no_key {parts : List Section} (keyless : ∀ part ∈ parts, keyForm? part.label = none) :
    firstKey? (parts.map Except.ok) = .ok none := by
  induction parts with
  | nil => rfl
  | cons part parts ih =>
      obtain ⟨skipped, keyless⟩ := List.forall_mem_cons.mp keyless
      rw [List.map_cons, firstKey?, skipped]
      exact ih keyless

theorem first_of_keys {parts : List Section} {form : Keys.KeyForm} {key : Bytes}
    (first : FirstKey parts form key) :
    firstKey? (parts.map Except.ok) = .ok (some (form, key)) := by
  obtain ⟨before, label, after, rfl, kind, none⟩ := first
  induction before with
  | nil => simp [firstKey?, kind]
  | cons part before ih =>
      obtain ⟨skipped, none⟩ := List.forall_mem_cons.mp none
      rw [List.cons_append, List.map_cons, firstKey?, skipped]
      exact ih none

theorem exists_first_key {parts : List Section}
    (given : ∃ part ∈ parts, keyForm? part.label ≠ none) : ∃ form key, FirstKey parts form key := by
  induction parts with
  | nil => simp at given
  | cons part parts ih =>
      cases kind : keyForm? part.label with
      | some form => exact ⟨form, part.content, [], part.label, parts, rfl, kind, by simp⟩
      | none =>
          obtain ⟨form, key, before, label, after, rfl, known, none⟩ :=
            ih (by simpa [kind] using given)
          exact ⟨form, key, part :: before, label, after, rfl, known, by simpa [kind] using none⟩

end Staking

namespace StakingMaterial

open Staking

variable {certPem keyPem : Bytes} {certs keys : List Section} {leaf key : Bytes}
  {form : Keys.KeyForm}

theorem parse_without_certificate (certFile : File certPem certs)
    (bare : ∀ part ∈ certs, part.label ≠ certificateLabel) :
    parse certPem keyPem = .error (.noCertificate none) := by
  rw [parse, certFile.sections, no_certificates bare]

theorem parse_without_key (certFile : File certPem certs) (keyFile : File keyPem keys)
    (first : FirstCertificate certs leaf) (keyless : ∀ part ∈ keys, keyForm? part.label = none) :
    parse certPem keyPem = .error (.noPrivateKey none) := by
  obtain ⟨others, read⟩ := first_of_certificates first
  rw [parse, certFile.sections, read, keyFile.sections]
  simp only [no_key keyless]

/-- The pair is judged, and nothing else is looked at. -/
theorem parse_of_first (certFile : File certPem certs) (keyFile : File keyPem keys)
    (first : FirstCertificate certs leaf) (firstKey : FirstKey keys form key) :
    parse certPem keyPem =
      match checkPair leaf form key with
      | .error reason => .error (.invalidPair reason)
      | .ok () => .ok ⟨leaf⟩ := by
  obtain ⟨others, read⟩ := first_of_certificates first
  rw [parse, certFile.sections, read, keyFile.sections]
  cases judged : checkPair leaf form key <;> simp only [first_of_keys firstKey, judged]

theorem certificate_not_missing (certFile : File certPem certs) (keyFile : File keyPem keys)
    (first : FirstCertificate certs leaf) {reason : Option Fault} :
    parse certPem keyPem ≠ .error (.noCertificate reason) := by
  intro failed
  by_cases keyed : ∃ part ∈ keys, keyForm? part.label ≠ none
  · obtain ⟨form, key, firstKey⟩ := exists_first_key keyed
    rw [parse_of_first certFile keyFile first firstKey] at failed
    split at failed <;> cases failed
  · rw [parse_without_key certFile keyFile first (by simpa using keyed)] at failed
    cases failed

/-- A pair of well-formed files fails for want of a certificate exactly if the first has no certificate
section, and else for want of a key exactly if the second has no section with a key. Otherwise the first
certificate and the first key decide alone: on whether the pair is accepted, on the leaf and on the
identity, which are the same for all files that begin with these two, each among its kind. -/
theorem parse_depends_on_first_sections (certFile : File certPem certs)
    (keyFile : File keyPem keys) :
    ((∃ reason, parse certPem keyPem = .error (.noCertificate reason)) ↔
        ∀ part ∈ certs, part.label ≠ certificateLabel) ∧
      ((∃ part ∈ certs, part.label = certificateLabel) →
        ((∃ reason, parse certPem keyPem = .error (.noPrivateKey reason)) ↔
          ∀ part ∈ keys, keyForm? part.label = none)) ∧
      ∀ leaf form key, FirstCertificate certs leaf → FirstKey keys form key →
        parse certPem keyPem =
            (match checkPair leaf form key with
            | .error reason => .error (.invalidPair reason)
            | .ok () => .ok ⟨leaf⟩) ∧
          (∀ material, parse certPem keyPem = .ok material →
            material.leaf = leaf ∧ material.nodeId = NodeId.ofCertificate leaf) ∧
          ∀ twinCert twinKey twinCerts twinKeys, File twinCert twinCerts → File twinKey twinKeys →
            FirstCertificate twinCerts leaf → FirstKey twinKeys form key →
              parse twinCert twinKey = parse certPem keyPem := by
  refine ⟨⟨fun ⟨reason, failed⟩ part inside labelled => ?_, fun bare => ?_⟩, fun certified => ?_,
    fun leaf form key first firstKey => ?_⟩
  · obtain ⟨leaf, first⟩ := exists_first_certificate ⟨part, inside, labelled⟩
    exact certificate_not_missing certFile keyFile first failed
  · exact ⟨none, parse_without_certificate certFile bare⟩
  · obtain ⟨leaf, first⟩ := exists_first_certificate certified
    refine ⟨fun ⟨reason, failed⟩ => ?_, fun keyless => ?_⟩
    · by_contra keyed
      obtain ⟨form, key, firstKey⟩ := exists_first_key (by simpa using keyed)
      rw [parse_of_first certFile keyFile first firstKey] at failed
      split at failed <;> cases failed
    · exact ⟨none, parse_without_key certFile keyFile first keyless⟩
  · have judged := parse_of_first certFile keyFile first firstKey
    refine ⟨judged, fun material accepted => ?_, fun twinCert twinKey twinCerts twinKeys twinCertFile
      twinKeyFile twinFirst twinFirstKey => ?_⟩
    · rw [judged] at accepted
      split at accepted <;> cases accepted
      exact ⟨rfl, rfl⟩
    · rw [judged, parse_of_first twinCertFile twinKeyFile twinFirst twinFirstKey]

end StakingMaterial

/-! ### Two files with the same first sections -/

namespace Pem

def block (label : Bytes) (body later : List Bytes) : List Bytes :=
  beginLine label 0 :: (body ++ (endMark ++ label ++ dashes) :: later)

theorem Holds.block {label content : Bytes} (body : List Bytes) {later : List Bytes}
    {parts : List Section} (kind : label ∈ labels) (inside : ∀ line ∈ body, Inside label line)
    (written : Base64 body.flatten content) (rest : Holds later parts) :
    Holds (Pem.block label body later) (⟨label, content⟩ :: parts) :=
  .known 0 kind inside written (List.prefix_refl _) rest

end Pem

namespace Staking

def briefCert : List Bytes :=
  block certificateLabel [Bytes.ofText "AQID"] []

/-- The same certificate on two lines, below a note and a section that nobody uses, and a second one. -/
def lengthyCert : List Bytes :=
  Bytes.ofText "node 1" :: block (Bytes.ofText "NOTE") [Bytes.ofText "(none)"]
    (block certificateLabel [Bytes.ofText "AQ", Bytes.ofText "ID"]
      (block certificateLabel [Bytes.ofText "BAUG"] []))

def briefKey : List Bytes :=
  block (Bytes.ofText "PRIVATE KEY") [Bytes.ofText "AA=="] []

/-- The same key without padding, and with bits set that make no byte. -/
def lengthyKey : List Bytes :=
  block (Bytes.ofText "PUBLIC KEY") [[]]
    (block (Bytes.ofText "PRIVATE KEY") [Bytes.ofText "AB"] [])

/-- The text of lines that each end with this byte. -/
def written (ending : UInt8) (lines : List Bytes) : Bytes :=
  lines.flatMap (· ++ [ending])

theorem written_lines {ending : UInt8} (ends : Break ending) {lines : List Bytes}
    (plain : (lines.all fun line => line.all fun byte => !decide (Break byte)) = true) :
    Lines lines (written ending lines) :=
  Lines.join ends fun line listed byte inside => by
    simpa using List.all_eq_true.mp (List.all_eq_true.mp plain line listed) byte inside

theorem certificate_in_base64 : Base64 (Bytes.ofText "AQID") [1, 2, 3] := by
  have symbols : Symbols [0x41, 0x51, 0x49, 0x44] [some 0, some 16, some 8, some 3] :=
    .digit (by decide) (.digit (by decide) (.digit (by decide) (.digit (by decide) .nil)))
  exact ⟨[0, 16, 8, 3], 0, [], symbols, .inl rfl, by decide, by decide⟩

theorem second_certificate_in_base64 : Base64 (Bytes.ofText "BAUG") [4, 5, 6] := by
  have symbols : Symbols [0x42, 0x41, 0x55, 0x47] [some 1, some 0, some 20, some 6] :=
    .digit (by decide) (.digit (by decide) (.digit (by decide) (.digit (by decide) .nil)))
  exact ⟨[1, 0, 20, 6], 0, [], symbols, .inl rfl, by decide, by decide⟩

theorem key_in_base64 : Base64 (Bytes.ofText "AA==") [0] := by
  have symbols : Symbols [0x41, 0x41, 0x3D, 0x3D] [some 0, some 0, none, none] :=
    .digit (by decide) (.digit (by decide) (.padding (.padding .nil)))
  exact ⟨[0, 0], 2, bits 4 0, symbols, .inr (by decide), by decide, by decide⟩

theorem key_in_loose_base64 : Base64 (Bytes.ofText "AB") [0] := by
  have symbols : Symbols [0x41, 0x42] [some 0, some 1] :=
    .digit (by decide) (.digit (by decide) .nil)
  exact ⟨[0, 1], 0, bits 4 1, symbols, .inl rfl, by decide, by decide⟩

theorem nothing_in_base64 : Base64 [] [] :=
  ⟨[], 0, [], .nil, .inl rfl, rfl, by decide⟩

theorem certificate_known : certificateLabel ∈ labels := by decide

theorem key_known : Bytes.ofText "PRIVATE KEY" ∈ labels := by decide

theorem brief_cert_file : File (written 0x0A briefCert) [⟨certificateLabel, [1, 2, 3]⟩] :=
  ⟨briefCert, written_lines (by decide) (by decide),
    Holds.block _ certificate_known (by decide) certificate_in_base64 .nil⟩

theorem lengthy_cert_file : File (written 0x0D lengthyCert)
    [⟨certificateLabel, [1, 2, 3]⟩, ⟨certificateLabel, [4, 5, 6]⟩] := by
  have second := Holds.block [Bytes.ofText "BAUG"] certificate_known (by decide)
    second_certificate_in_base64 .nil
  have first := Holds.block [Bytes.ofText "AQ", Bytes.ofText "ID"] certificate_known (by decide)
    certificate_in_base64 second
  exact ⟨lengthyCert, written_lines (by decide) (by decide), .outside (by decide)
    (.other 0 (by decide) (by decide) (by decide) (List.prefix_refl _) first)⟩

theorem brief_key_file :
    File (written 0x0A briefKey) [⟨Bytes.ofText "PRIVATE KEY", [0]⟩] :=
  ⟨briefKey, written_lines (by decide) (by decide),
    Holds.block _ key_known (by decide) key_in_base64 .nil⟩

theorem lengthy_key_file : File (written 0x0D lengthyKey)
    [⟨Bytes.ofText "PUBLIC KEY", []⟩, ⟨Bytes.ofText "PRIVATE KEY", [0]⟩] := by
  have key := Holds.block [Bytes.ofText "AB"] key_known (by decide) key_in_loose_base64 .nil
  exact ⟨lengthyKey, written_lines (by decide) (by decide),
    Holds.block _ (by decide) (by decide) nothing_in_base64 key⟩

/-- The longer pair comes to the same answer as the brief one: its key is none. -/
theorem lengthy_pair_parses_as_brief :
    StakingMaterial.parse (written 0x0A briefCert) (written 0x0A briefKey) =
        .error (.invalidPair .unusableKey) ∧
      StakingMaterial.parse (written 0x0D lengthyCert) (written 0x0D lengthyKey) =
        .error (.invalidPair .unusableKey) := by
  have first (later : List Section) :
      FirstCertificate (⟨certificateLabel, [1, 2, 3]⟩ :: later) [1, 2, 3] :=
    ⟨[], later, rfl, by simp⟩
  have kind : keyForm? (Bytes.ofText "PRIVATE KEY") = some .pkcs8 := rfl
  have firstKey : FirstKey [⟨Bytes.ofText "PRIVATE KEY", [0]⟩] .pkcs8 [0] :=
    ⟨[], _, [], rfl, kind, by simp⟩
  have secondKey : FirstKey
      [⟨Bytes.ofText "PUBLIC KEY", []⟩, ⟨Bytes.ofText "PRIVATE KEY", [0]⟩] .pkcs8 [0] :=
    ⟨[⟨Bytes.ofText "PUBLIC KEY", []⟩], _, [], rfl, kind, by decide⟩
  obtain ⟨-, -, decided⟩ :=
    StakingMaterial.parse_depends_on_first_sections brief_cert_file brief_key_file
  obtain ⟨judged, -, twin⟩ := decided _ _ _ (first []) firstKey
  have unusable : checkPair [1, 2, 3] .pkcs8 [0] = .error .unusableKey := by decide
  rw [unusable] at judged
  exact ⟨judged, (twin _ _ _ _ lengthy_cert_file lengthy_key_file (first _) secondKey).trans judged⟩

end Staking

end LocalNet
