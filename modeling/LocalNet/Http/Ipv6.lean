import LocalNet.Http.Ipv4

/-!
Addresses of eight groups of sixteen bits. One run of groups that are zero may be left out, and the
last two groups may be written like an address of four bytes.
-/

namespace LocalNet.Http

structure Ipv6 where
  groups : List Nat
  deriving DecidableEq, Repr

namespace Ipv6

def size : Nat := 8

def group? (text : List Char) : Option Nat :=
  if text.isEmpty || 4 < text.length then none else Ipv4.numeral? 16 text

def byte? (text : List Char) : Option Nat :=
  match text with
  | [] => none
  | '0' :: _ :: _ => none
  | digits => (Ipv4.numeral? 10 digits).filter (· ≤ 255)

def fourBytes? (text : List Char) : Option (List Nat) :=
  match (text.splitOn '.').mapM byte? with
  | some [a, b, c, d] => some [a * 256 + b, c * 256 + d]
  | _ => none

/-- Groups between colons, of which the last may stand for two. -/
def groups? (text : List Char) : Option (List Nat) :=
  if text.isEmpty then some []
  else
    let parts := text.splitOn ':'
    let last := parts.getLast?.getD []
    match parts.dropLast.mapM group?, fourBytes? last, group? last with
    | some earlier, some two, _ => some (earlier ++ two)
    | some earlier, none, some one => some (earlier ++ [one])
    | _, _, _ => none

def splitGap : List Char → Option (List Char × List Char)
  | [] => none
  | ':' :: ':' :: rest => some ([], rest)
  | char :: rest => (splitGap rest).map fun (before, after) => (char :: before, after)

/-- Only in front of a gap may no group end in bytes. -/
def ofText? (text : List Char) : Option Ipv6 :=
  match splitGap text with
  | none => ((groups? text).filter (·.length = size)).map Ipv6.mk
  | some (before, after) =>
    match groups? before, groups? after with
    | some high, some low =>
      if before.contains '.' || size ≤ high.length + low.length then none
      else some ⟨high ++ List.replicate (size - high.length - low.length) 0 ++ low⟩
    | _, _ => none

def hexadecimal (group : Nat) : String :=
  String.ofList (Nat.toDigits 16 group)

def zeros (groups : List Nat) : Nat :=
  (groups.takeWhile (· = 0)).length

/-- The longest run of zeros, and the first of those, as its place and its length. -/
def gap (groups : List Nat) : Nat × Nat :=
  (List.range groups.length).foldl (fun best place =>
    let run := zeros (groups.drop place)
    if best.2 < run then (place, run) else best) (0, 0)

def join (groups : List Nat) : String :=
  ":".intercalate (groups.map hexadecimal)

/-- A single zero is not worth leaving out. -/
def text (address : Ipv6) : String :=
  let (place, run) := gap address.groups
  if run < 2 then join address.groups
  else join (address.groups.take place) ++ "::" ++ join (address.groups.drop (place + run))

end Ipv6

end LocalNet.Http
