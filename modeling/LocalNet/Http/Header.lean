import LocalNet.Bytes

/-!
Header lines as they stand in a message, up to the empty line that ends them.
-/

namespace LocalNet.Http

structure Header where
  /-- In lower case. -/
  name : Bytes
  value : Bytes
  deriving DecidableEq, Repr

/-- Cuts the first line off, without its end. A line ends with a line feed, before which a carriage
return may stand. -/
def takeLine : Bytes → Option (Bytes × Bytes)
  | [] => none
  | 0x0A :: rest => some ([], rest)
  | 0x0D :: 0x0A :: rest => some ([], rest)
  | byte :: rest => (takeLine rest).map fun (line, after) => (byte :: line, after)

def isDigit (byte : UInt8) : Bool :=
  0x30 ≤ byte && byte ≤ 0x39

def lower (byte : UInt8) : UInt8 :=
  if 0x41 ≤ byte && byte ≤ 0x5A then byte + 0x20 else byte

def isTokenByte (byte : UInt8) : Bool :=
  isDigit byte || (0x41 ≤ byte && byte ≤ 0x5A) || (0x61 ≤ byte && byte ≤ 0x7A) ||
    (Bytes.ofText "!#$%&'*+-.^_" ++ [0x60, 0x7C, 0x7E]).contains byte

def isBlank (byte : UInt8) : Bool :=
  byte = 0x20 || byte = 0x09

def trimBlanks (bytes : Bytes) : Bytes :=
  ((bytes.dropWhile isBlank).reverse.dropWhile isBlank).reverse

def isTextByte (byte : UInt8) : Bool :=
  byte = 0x09 || (0x20 ≤ byte && byte ≠ 0x7F)

def isPlainByte (byte : UInt8) : Bool :=
  byte = 0x09 || (0x20 ≤ byte && byte ≤ 0x7E)

namespace Header

def ofLine? (line : Bytes) : Option Header :=
  let name := line.takeWhile isTokenByte
  match line.drop name.length with
  | 0x3A :: rest =>
    let value := trimBlanks rest
    if name.isEmpty || !value.all isTextByte then none else some ⟨name.map lower, value⟩
  | _ => none

def read? : (most : Nat) → Bytes → Option (List Header × Bytes)
  | most, bytes =>
    match takeLine bytes with
    | none => none
    | some ([], rest) => some ([], rest)
    | some (line, rest) =>
      match most, ofLine? line with
      | most + 1, some header =>
        (read? most rest).map fun (headers, after) => (header :: headers, after)
      | _, _ => none

def limit : Nat := 100

def valuesOf (headers : List Header) (name : String) : List Bytes :=
  (headers.filter (·.name = Bytes.ofText name)).map Header.value

end Header

end LocalNet.Http
