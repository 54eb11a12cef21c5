import LocalNet.Keys.Weierstrass
import LocalNet.Keys.Edwards
import LocalNet.Keys.Rsa

/-!
Private keys in their three file forms, and the public key information that belongs to each.
-/

namespace LocalNet.Keys

inductive KeyForm where
  | pkcs8
  | pkcs1
  | sec1
  deriving DecidableEq, Repr

def rsaAlgorithm : Bytes :=
  Der.encode Der.identifierTag [0x2A, 0x86, 0x48, 0x86, 0xF7, 0x0D, 0x01, 0x01, 0x01] ++
    [0x05, 0x00]

def curveAlgorithm (curve : Curve) : Bytes :=
  Der.encode Der.identifierTag [0x2A, 0x86, 0x48, 0xCE, 0x3D, 0x02, 0x01] ++
    Der.encode Der.identifierTag curve.identifier

def edwardsAlgorithm : Bytes :=
  Der.encode Der.identifierTag [0x2B, 0x65, 0x70]

/-- The content of public key information: an algorithm and a bit string. -/
def publicInfo (algorithm key : Bytes) : Bytes :=
  Der.encode Der.sequenceTag algorithm ++ Der.encode Der.bitStringTag (0 :: key)

/-- The secret of a wrapped key and, in the second version, its public key. -/
structure Unwrapped where
  secret : Bytes
  publicKey : Option Bytes

def skipAttributes? (input : Bytes) : Option Bytes :=
  if input.head? = some (Der.partTag 0) then
    (Der.expect? 0x10000 (Der.partTag 0) input).map fun read => read.2
  else some input

/-- The public key of a wrapped key of the second version, in either of its spellings. -/
def wrappedPublicKey? (input : Bytes) : Option Bytes :=
  if input.head? = some (Der.partTag 1) then
    match Der.expect? 0x10000 (Der.partTag 1) input with
    | some (content, []) =>
      match Der.expect? 0x10000 Der.bitStringTag content with
      | some (bits, []) => Der.wholeBits? bits
      | _ => none
    | _ => none
  else
    match Der.expect? 0x10000 0x81 input with
    | some (bits, []) => Der.wholeBits? bits
    | _ => none

def unwrap? (algorithm : Bytes) (secondVersion : Bool) (der : Bytes) : Option Unwrapped := do
  let (content, outside) ← Der.expect? 0x10000 Der.sequenceTag der
  guard outside.isEmpty
  let (version, afterVersion) ← Der.expectSmall? 0x10000 content
  let (found, afterAlgorithm) ← Der.expect? 0x10000 Der.sequenceTag afterVersion
  guard (found = algorithm)
  guard (version = 0 || (version = 1 && secondVersion))
  let (secret, afterSecret) ← Der.expect? 0x10000 Der.octetStringTag afterAlgorithm
  let rest ← skipAttributes? afterSecret
  if version = 0 then
    guard rest.isEmpty
    some ⟨secret, none⟩
  else
    let key ← wrappedPublicKey? rest
    some ⟨secret, some key⟩

/-- A curve key carries its secret scalar and the public point, which must belong together. -/
def curvePoint? (curve : Curve) (der : Bytes) : Option Bytes := do
  let (content, outside) ← Der.expect? 0x10000 Der.sequenceTag der
  guard outside.isEmpty
  let (version, afterVersion) ← Der.expectSmall? 0x10000 content
  guard (version = 1)
  let (secret, afterSecret) ← Der.expect? 0x10000 Der.octetStringTag afterVersion
  let parameters := Der.encode Der.identifierTag curve.identifier
  let rest ←
    if afterSecret.head? = some (Der.partTag 0) then do
      let (named, rest) ← Der.expect? 0x10000 (Der.partTag 0) afterSecret
      guard (named = parameters)
      pure rest
    else pure afterSecret
  let (tagged, behind) ← Der.expect? 0x10000 (Der.partTag 1) rest
  guard behind.isEmpty
  let (bits, afterBits) ← Der.expect? 0x10000 Der.bitStringTag tagged
  guard afterBits.isEmpty
  let stated ← Der.wholeBits? bits
  let derived ← curve.publicPoint? secret
  guard (stated = derived)
  pure derived

def rsaInfo? (form : KeyForm) (der : Bytes) : Option Bytes :=
  let inner? := match form with
    | .pkcs1 => some der
    | .pkcs8 => (unwrap? rsaAlgorithm false der).map Unwrapped.secret
    | .sec1 => none
  (inner?.bind RsaKey.ofDer?).map fun key => publicInfo rsaAlgorithm key.publicPart

def curveInfo? (curve : Curve) (form : KeyForm) (der : Bytes) : Option Bytes :=
  let inner? := match form with
    | .sec1 => some der
    | .pkcs8 => (unwrap? (curveAlgorithm curve) false der).map Unwrapped.secret
    | .pkcs1 => none
  (inner?.bind (curvePoint? curve)).map fun point => publicInfo (curveAlgorithm curve) point

def edwardsInfo? (form : KeyForm) (der : Bytes) : Option Bytes := do
  guard (form = .pkcs8)
  let unwrapped ← unwrap? edwardsAlgorithm true der
  let (seed, behind) ← Der.expect? 0x10000 Der.octetStringTag unwrapped.secret
  guard behind.isEmpty
  let derived ← Edwards.publicKey? seed
  guard (unwrapped.publicKey.all (· = derived))
  pure (publicInfo edwardsAlgorithm derived)

def publicInfo? (form : KeyForm) (der : Bytes) : Option Bytes :=
  rsaInfo? form der <|> curveInfo? .p256 form der <|> curveInfo? .p384 form der <|>
    edwardsInfo? form der

end LocalNet.Keys
