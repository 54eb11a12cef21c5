import LocalNet.Http.HostName
import LocalNet.Http.Ipv6
import LocalNet.Http.Percent

/-!
The hosts that addresses name.
-/

namespace LocalNet.Http

inductive Host where
  | name (text : String)
  | ipv4 (address : Ipv4)
  | ipv6 (address : Ipv6)
  deriving DecidableEq, Repr

namespace Host

def text : Host → String
  | .name text => text
  | .ipv4 address => address.text
  | .ipv6 address => "[" ++ address.text ++ "]"

def bracketed? (inside : List Char) : Option Host :=
  if inside.getLast? = some ']' then (Ipv6.ofText? inside.dropLast).map .ipv6 else none

/-- A name whose last part is a number is an address, or none at all. -/
def named (name : List Char) : Option Host :=
  if Ipv4.isMeant name then (Ipv4.ofText? name).map .ipv4
  else some (.name (String.ofList name))

def ofText? (text : List Char) : Option Host :=
  match text with
  | '[' :: inside => bracketed? inside
  | _ =>
    match Bytes.toText? (Percent.decode (Bytes.ofText (String.ofList text))) with
    | some decoded => (HostName.canonical? decoded.toList).bind named
    | none => none

def mayNotStand (char : Char) : Bool :=
  char.toNat = 0 || char = ' ' || "#/:<>?@[\\]^|".toList.contains char

/-- The host of any other scheme, which need not be on a network. -/
def ofFreeText? (text : List Char) : Option Host :=
  match text with
  | '[' :: inside => bracketed? inside
  | _ =>
    if text.any mayNotStand then none else some (.name (Percent.encode Percent.controls text))

end Host

end LocalNet.Http
