import LocalNet.Der

/-!
Certificates, as far as a key pair needs them: the third version, no extension that is critical and
unknown, and the public key information.
-/

namespace LocalNet.Staking

inductive CertificateFault where
  | badEncoding
  | unsupportedVersion
  | algorithmMismatch
  | repeatedExtension
  | unsupportedCriticalExtension
  deriving DecidableEq, Repr

def CertificateFault.message : CertificateFault → String
  | .badEncoding => "BadEncoding"
  | .unsupportedVersion => "Other(OtherError(UnsupportedCertVersion))"
  | .algorithmMismatch => "Other(OtherError(SignatureAlgorithmMismatch))"
  | .repeatedExtension => "Other(OtherError(ExtensionValueInvalid))"
  | .unsupportedCriticalExtension => "Other(OtherError(UnsupportedCriticalExtension))"

abbrev Checked (α : Type) := Except CertificateFault α

def itemLimit : Nat := 0xFFFF

def expectPart (tag : UInt8) (input : Bytes) : Checked (Bytes × Bytes) :=
  match Der.expect? itemLimit tag input with
  | some read => .ok read
  | none => .error .badEncoding

def checkVersion (input : Bytes) : Checked Bytes :=
  match Der.expect? itemLimit (Der.partTag 0) input with
  | none => .error .unsupportedVersion
  | some (content, rest) =>
    match Der.expectSmall? itemLimit content with
    | none => .error .badEncoding
    | some (version, behind) =>
      if version = 2 && behind.isEmpty then .ok rest else .error .unsupportedVersion

structure Extension where
  identifier : Bytes
  critical : Bool
  value : Bytes
  deriving DecidableEq, Repr

/-- A missing mark means that an extension is not critical. -/
def readCritical (input : Bytes) : Checked (Bool × Bytes) :=
  if input.head? = some Der.booleanTag then
    match Der.expect? itemLimit Der.booleanTag input with
    | some ([0xFF], rest) => .ok (true, rest)
    | some ([0x00], rest) => .ok (false, rest)
    | _ => .error .badEncoding
  else .ok (false, input)

def readExtension (content : Bytes) : Checked (Extension × Bytes) := do
  let (identifier, afterIdentifier) ← expectPart Der.identifierTag content
  let (critical, afterMark) ← readCritical afterIdentifier
  let (value, behind) ← expectPart Der.octetStringTag afterMark
  pure (⟨identifier, critical, value⟩, behind)

/-- The last byte of the identifier of an extension that is understood. -/
def knownExtension? (identifier : Bytes) : Option UInt8 :=
  match identifier with
  | [0x55, 0x1D, last] =>
    if [15, 17, 19, 30, 31, 37].contains last then some last else none
  | _ => none

/-- Key usage stays as it is; the other understood extensions hold one sequence. -/
def extensionFits (known : UInt8) (value : Bytes) : Bool :=
  known = 15 ||
    match Der.expect? itemLimit Der.sequenceTag value with
    | some (_, []) => true
    | _ => false

/-- Takes note of an extension, `seen` being the ones understood so far. -/
def noteExtension (seen : List UInt8) (extension : Extension) : Checked (List UInt8) :=
  match knownExtension? extension.identifier with
  | none => if extension.critical then .error .unsupportedCriticalExtension else .ok seen
  | some known =>
    if seen.contains known then .error .repeatedExtension
    else if extensionFits known extension.value then .ok (known :: seen)
    else .error .badEncoding

/-- An extension is judged before what may stand behind its value. -/
def checkExtensions : (fuel : Nat) → (seen : List UInt8) → Bytes → Checked Unit
  | 0, _, _ => .error .badEncoding
  | fuel + 1, seen, input => do
    let (content, rest) ← expectPart Der.sequenceTag input
    let (extension, behind) ← readExtension content
    let seen ← noteExtension seen extension
    if !behind.isEmpty then throw .badEncoding
    if rest.isEmpty then pure () else checkExtensions fuel seen rest

/-- The extensions are the last part of a certificate, and there may be none. -/
def checkLastPart (input : Bytes) : Checked Unit := do
  if input.isEmpty then return
  let (content, behind) ← expectPart (Der.partTag 3) input
  let (extensions, afterwards) ← expectPart Der.sequenceTag content
  if !extensions.isEmpty then checkExtensions extensions.length [] extensions
  if !afterwards.isEmpty || !behind.isEmpty then throw .badEncoding

/-- The public key information of a certificate body signed with `algorithm`. -/
def readBody (algorithm body : Bytes) : Checked Bytes := do
  let afterVersion ← checkVersion body
  let (_, afterSerial) ← expectPart Der.integerTag afterVersion
  let (stated, afterAlgorithm) ← expectPart Der.sequenceTag afterSerial
  if stated ≠ algorithm then throw .algorithmMismatch
  let (_, afterIssuer) ← expectPart Der.sequenceTag afterAlgorithm
  let (_, afterValidity) ← expectPart Der.sequenceTag afterIssuer
  let (_, afterSubject) ← expectPart Der.sequenceTag afterValidity
  let (information, lastPart) ← expectPart Der.sequenceTag afterSubject
  checkLastPart lastPart
  pure information

def readCertificate (der : Bytes) : Checked Bytes := do
  let (content, behind) ← expectPart Der.sequenceTag der
  let (body, afterBody) ← expectPart Der.sequenceTag content
  let (algorithm, afterAlgorithm) ← expectPart Der.sequenceTag afterBody
  let (signature, afterSignature) ← expectPart Der.bitStringTag afterAlgorithm
  if (Der.wholeBits? signature).isNone || !afterSignature.isEmpty || !behind.isEmpty then
    throw .badEncoding
  readBody algorithm body

end LocalNet.Staking
