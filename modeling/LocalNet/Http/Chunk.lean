import LocalNet.Http.Header

/-!
Bodies that come in chunks. Each chunk follows its size in hexadecimal digits; a chunk of size zero
is the last, and header lines of its own may follow it.
-/

namespace LocalNet.Http.Chunk

def hexValue? (byte : UInt8) : Option Nat :=
  if isDigit byte then some (byte.toNat - 0x30)
  else if 0x61 ≤ byte && byte ≤ 0x66 then some (byte.toNat - 0x57)
  else if 0x41 ≤ byte && byte ≤ 0x46 then some (byte.toNat - 0x37)
  else none

def sizeBits : Nat := 64

def size? (digits : Bytes) : Option Nat :=
  let size := (digits.filterMap hexValue?).foldl (fun size digit => size * 16 + digit) 0
  if digits.isEmpty || Nat.pow 2 sizeBits ≤ size then none else some size

/-- All that is said behind sizes has to be shorter than this. -/
def remarkLimit : Nat := 16384

/-- What a chunk's first line says behind the size: nothing, or a remark behind a semicolon, which
is ignored. -/
def remark? (bytes : Bytes) : Option Bytes :=
  match bytes.dropWhile isBlank with
  | [] => some []
  | 0x3B :: remark => if remark.contains 0x0A then none else some remark
  | _ => none

/-- Cuts off what stands before the next carriage return, behind which a line feed has to follow. -/
def takeStrictLine (bytes : Bytes) : Option (Bytes × Bytes) :=
  let line := bytes.takeWhile (· ≠ 0x0D)
  match bytes.drop line.length with
  | 0x0D :: 0x0A :: rest => some (line, rest)
  | _ => none

def trailer? : (most : Nat) → Bytes → Option (List Bytes)
  | most, bytes =>
    match takeStrictLine bytes with
    | none => none
    | some ([], _) => some []
    | some (line, rest) =>
      match most with
      | 0 => none
      | most + 1 => (trailer? most rest).map (line :: ·)

/-- The lines behind the last chunk together have to be shorter than this. -/
def trailerLimit : Nat := 16384

/-- Lines of a trailer are header lines, as far as one that is empty. -/
def isTrailer (lines : List Bytes) : Bool :=
  let text := lines.flatMap (· ++ [0x0D, 0x0A]) ++ [0x0D, 0x0A]
  lines.isEmpty ||
    (text.length < trailerLimit && (Header.read? lines.length text).isSome)

/-- Puts the chunks of a body together. So much has been remarked behind sizes before. -/
def join? : (fuel : Nat) → (remarked : Nat) → Bytes → Option Bytes
  | 0, _, _ => none
  | fuel + 1, remarked, bytes =>
    match takeStrictLine bytes with
    | none => none
    | some (line, rest) =>
      let digits := line.takeWhile fun byte => (hexValue? byte).isSome
      match size? digits, remark? (line.drop digits.length) with
      | some size, some remark =>
        if remarkLimit ≤ remarked + remark.length then none
        else if size = 0 then
          match trailer? Header.limit rest with
          | some lines => if isTrailer lines then some [] else none
          | none => none
        else
          match rest.drop size with
          | 0x0D :: 0x0A :: after =>
            (join? fuel (remarked + remark.length) after).map (rest.take size ++ ·)
          | _ => none
      | _, _ => none

def body? (bytes : Bytes) : Option Bytes :=
  join? (bytes.length + 1) 0 bytes

end LocalNet.Http.Chunk
