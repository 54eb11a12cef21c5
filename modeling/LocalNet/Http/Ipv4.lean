import LocalNet.Bytes

/-!
Addresses of four bytes, and the numbers that they can be written with: up to four parts, each
decimal, octal or hexadecimal, the last of which fills all bytes that are left.
-/

namespace LocalNet.Http

structure Ipv4 where
  value : UInt32
  deriving DecidableEq, Repr

namespace Ipv4

def digit? (base : Nat) (char : Char) : Option Nat :=
  let value :=
    if char.isDigit then char.toNat - 48
    else if 'a' ≤ char && char ≤ 'f' then char.toNat - 87
    else if 'A' ≤ char && char ≤ 'F' then char.toNat - 55
    else base
  if value < base then some value else none

def numeral? (base : Nat) (digits : List Char) : Option Nat :=
  (digits.mapM (digit? base)).map (List.foldl (fun value digit => value * base + digit) 0)

/-- A leading zero announces octal digits, and together with an `x` hexadecimal ones, of which there
need not be any. -/
def number? : List Char → Option Nat
  | [] => none
  | '0' :: 'x' :: digits => numeral? 16 digits
  | '0' :: 'X' :: digits => numeral? 16 digits
  | '0' :: digit :: digits => numeral? 8 (digit :: digits)
  | digits => numeral? 10 digits

def ofParts? (parts : List Nat) : Option Ipv4 :=
  match parts.reverse with
  | [] => none
  | last :: earlier =>
    if 3 < earlier.length || earlier.any (255 < ·) ||
        Nat.pow 256 (4 - earlier.length) ≤ last then none
    else
      let high := earlier.reverse.foldl (fun value part => value * 256 + part) 0
      some ⟨UInt32.ofNat (high * Nat.pow 256 (4 - earlier.length) + last)⟩

/-- The parts between stops; a stop at the end means nothing. -/
def partsOf (text : List Char) : List (List Char) :=
  let parts := text.splitOn '.'
  if parts.getLast? = some [] then parts.dropLast else parts

/-- Whether a host is meant to be an address: its last part is a number. -/
def isMeant (text : List Char) : Bool :=
  match (partsOf text).getLast? with
  | none => false
  | some last => (!last.isEmpty && last.all Char.isDigit) || (number? last).isSome

def ofText? (text : List Char) : Option Ipv4 :=
  ((partsOf text).mapM number?).bind ofParts?

def text (address : Ipv4) : String :=
  ".".intercalate ((Bytes.ofNat 4 address.value.toNat).map fun byte => toString byte.toNat)

end Ipv4

end LocalNet.Http
