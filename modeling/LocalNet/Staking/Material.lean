import LocalNet.Pem.Section
import LocalNet.Keys.PrivateKey
import LocalNet.Staking.Certificate
import LocalNet.Digest.Sha256
import LocalNet.Digest.Ripemd160
import LocalNet.Json.Decoder

/-!
Staking material: a certificate and the private key that belongs to it, both in PEM. The identity
of a node is a digest of its certificate.
-/

namespace LocalNet

structure NodeId where
  bytes : Bytes
  deriving DecidableEq, Repr

namespace NodeId

def width : Nat := 20

def ofCertificate (der : Bytes) : NodeId :=
  ⟨Digest.Ripemd160.hash (Digest.Sha256.hash der)⟩

def text (identity : NodeId) : String :=
  "NodeID-" ++ Bytes.toHex identity.bytes

def encode (identity : NodeId) : Json.Value :=
  .ofBytes identity.bytes

/-- The bytes of an identity, counted as they are read. -/
def takeBytes (total : Nat) : (missing : Nat) → List Json.Value → Except Json.Mismatch Bytes
  | 0, [] => .ok []
  | 0, _ :: _ => .error (.wrongLength total "fewer elements in array")
  | missing + 1, [] =>
    .error (.wrongLength (width - (missing + 1)) "an array of length 20")
  | missing + 1, element :: rest =>
    match Json.Decoder.byte.ofValue element with
    | .error reason => .error reason
    | .ok byte => (takeBytes total missing rest).map (byte :: ·)

def ofValue : Json.Value → Except Json.Mismatch NodeId
  | .array elements => (takeBytes elements.length width elements).map NodeId.mk
  | other => .error (.wrongKind other.found "an array of length 20")

end NodeId

namespace Staking

inductive PairFault where
  | unusableKey
  | certificate (reason : CertificateFault)
  | keyMismatch
  deriving DecidableEq, Repr

def PairFault.message : PairFault → String
  | .unusableKey =>
    "unexpected error: failed to parse private key as RSA, ECDSA, or EdDSA"
  | .certificate reason => "invalid peer certificate: " ++ reason.message
  | .keyMismatch => "keys may not be consistent: KeyMismatch"

inductive Error where
  /-- Without a reason the file has no certificate section at all. -/
  | noCertificate (reason : Option Pem.Fault)
  | noPrivateKey (reason : Option Pem.Fault)
  | invalidPair (reason : PairFault)
  deriving DecidableEq, Repr

def Error.message : Error → String
  | .noCertificate reason =>
    "no certificate found in staking cert: " ++
      reason.elim "no PEM CERTIFICATE block" Pem.Fault.message
  | .noPrivateKey reason =>
    "no private key found in staking key: " ++
      reason.elim "no PEM private key block" Pem.Fault.message
  | .invalidPair reason => "staking cert/key pair rejected: " ++ reason.message

def certificateLabel : Bytes := Bytes.ofText "CERTIFICATE"

/-- Every certificate of a file, which must be free of faults to its end. -/
def certificates : List (Except Pem.Fault Pem.Section) → Except Pem.Fault (List Bytes)
  | [] => .ok []
  | .error fault :: _ => .error fault
  | .ok part :: rest =>
    match certificates rest with
    | .error fault => .error fault
    | .ok later =>
      .ok (if part.label = certificateLabel then part.content :: later else later)

def keyForm? (label : Bytes) : Option Keys.KeyForm :=
  if label = Bytes.ofText "PRIVATE KEY" then some .pkcs8
  else if label = Bytes.ofText "RSA PRIVATE KEY" then some .pkcs1
  else if label = Bytes.ofText "EC PRIVATE KEY" then some .sec1
  else none

/-- The first private key of a file, whatever follows it. -/
def firstKey? : List (Except Pem.Fault Pem.Section) →
    Except Pem.Fault (Option (Keys.KeyForm × Bytes))
  | [] => .ok none
  | .error fault :: _ => .error fault
  | .ok part :: rest =>
    match keyForm? part.label with
    | some form => .ok (some (form, part.content))
    | none => firstKey? rest

/-- A key is looked at before its certificate, and both must name the same public key. -/
def checkPair (leaf : Bytes) (form : Keys.KeyForm) (key : Bytes) : Except PairFault Unit :=
  match Keys.publicInfo? form key with
  | none => .error .unusableKey
  | some information =>
    match readCertificate leaf with
    | .error reason => .error (.certificate reason)
    | .ok certified => if information = certified then .ok () else .error .keyMismatch

end Staking

structure StakingMaterial where
  leaf : Bytes
  deriving DecidableEq, Repr

namespace StakingMaterial

def parse (certPem keyPem : Bytes) : Except Staking.Error StakingMaterial :=
  match Staking.certificates (Pem.sections certPem) with
  | .error fault => .error (.noCertificate (some fault))
  | .ok [] => .error (.noCertificate none)
  | .ok (leaf :: _) =>
    match Staking.firstKey? (Pem.sections keyPem) with
    | .error fault => .error (.noPrivateKey (some fault))
    | .ok none => .error (.noPrivateKey none)
    | .ok (some (form, key)) =>
      match Staking.checkPair leaf form key with
      | .error reason => .error (.invalidPair reason)
      | .ok () => .ok ⟨leaf⟩

def nodeId (material : StakingMaterial) : NodeId :=
  .ofCertificate material.leaf

end StakingMaterial

end LocalNet
