import LocalNet.Network.Node
import LocalNet.Proofs.Validation.Judgement

/-!
# The certificate that names a node

The leaf of staking material is the first certificate section of its file, whatever stands before it.
A config that is accepted has either no staking material or material that can be read.
-/

namespace LocalNet

namespace Staking

def certificate? : Except Pem.Fault Pem.Section → Option Bytes
  | .ok part => if part.label = certificateLabel then some part.content else none
  | .error _ => none

def firstCertificate? (certPem : Bytes) : Option Bytes :=
  (Pem.sections certPem).findSome? certificate?

theorem certificates_head {parts : List (Except Pem.Fault Pem.Section)} {found : List Bytes}
    (read : certificates parts = .ok found) : parts.findSome? certificate? = found.head? := by
  induction parts generalizing found with
  | nil =>
      cases read
      rfl
  | cons part parts ih =>
      cases part with
      | error fault => cases read
      | ok part =>
          unfold certificates at read
          cases rest : certificates parts with
          | error fault => simp [rest] at read
          | ok later =>
              rw [rest] at read
              cases read
              by_cases labelled : part.label = certificateLabel
              · simp [certificate?, labelled]
              · simp [certificate?, labelled, ih rest]

end Staking

theorem StakingMaterial.leaf_of_parse {certPem keyPem : Bytes} {material : StakingMaterial}
    (parsed : StakingMaterial.parse certPem keyPem = .ok material) :
    Staking.firstCertificate? certPem = some material.leaf := by
  unfold StakingMaterial.parse at parsed
  split at parsed
  · cases parsed
  · cases parsed
  · rename_i leaf others read
    split at parsed
    · cases parsed
    · cases parsed
    · split at parsed
      · cases parsed
      · cases parsed
        exact Staking.certificates_head read

theorem validate_node_staking {config : NodeConfig} (accepted : validateNode config = .ok ()) :
    config.stakingCert = [] ∧ config.stakingKey = [] ∨
      config.stakingCert ≠ [] ∧ config.stakingKey ≠ [] ∧
        ∃ material, StakingMaterial.parse config.stakingCert config.stakingKey = .ok material := by
  have clean := (validate_node_ok_iff config).mp accepted
  have staking : config.stakingViolations = [] := by
    simp only [NodeConfig.violations, List.append_eq_nil_iff] at clean
    exact clean.2
  unfold NodeConfig.stakingViolations at staking
  by_cases cert : config.stakingCert = []
  · by_cases key : config.stakingKey = []
    · exact .inl ⟨cert, key⟩
    · simp [cert, key] at staking
  · by_cases key : config.stakingKey = []
    · simp [cert, key] at staking
    · refine .inr ⟨cert, key, ?_⟩
      cases parsed : StakingMaterial.parse config.stakingCert config.stakingKey with
      | error reason => simp [cert, key, parsed] at staking
      | ok material => exact ⟨material, rfl⟩

/-- Filling in a name leaves the staking material as it is, so that reading it again succeeds again: a
node has an identity exactly if its config was given a certificate, and it is a digest of the first. -/
theorem identity_of_accepted {given resolved : NodeConfig} (resolves : Resolves given resolved)
    (accepted : validateNode given = .ok ()) :
    given.stakingCert = [] ∧ Node.identityOf resolved = none ∨
      given.stakingCert ≠ [] ∧
        ∃ der, Staking.firstCertificate? given.stakingCert = some der ∧
          Node.identityOf resolved = some (NodeId.ofCertificate der) := by
  have sameCert : resolved.stakingCert = given.stakingCert := by rw [resolves.1]
  have sameKey : resolved.stakingKey = given.stakingKey := by rw [resolves.1]
  rcases validate_node_staking accepted with ⟨noCert, -⟩ | ⟨cert, key, material, parsed⟩
  · exact .inl ⟨noCert, by simp [Node.identityOf, NodeConfig.hasStakingMaterial, sameCert, noCert]⟩
  · refine .inr ⟨cert, material.leaf, StakingMaterial.leaf_of_parse parsed, ?_⟩
    simp [Node.identityOf, NodeConfig.hasStakingMaterial, sameCert, sameKey, cert, key, parsed,
      Except.toOption, StakingMaterial.nodeId]

end LocalNet
