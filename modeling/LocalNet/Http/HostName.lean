import LocalNet.Text.Letter
import LocalNet.Text.Punycode
import LocalNet.Text.Unprintable

/-!
Names of hosts. One name can be written in many ways: in capitals, in wide or circled characters, in
letters of other scripts. It is compared and sent in one of them, which is ASCII.
-/

namespace LocalNet.Http.HostName

/-- Characters that mean nothing in a name: inclusive ranges of code points. -/
def ignored : List (Nat × Nat) :=
  [(0xAD, 0xAD), (0x34F, 0x34F), (0x200B, 0x200B), (0x2060, 0x2060), (0x2064, 0x2064),
   (0xFE00, 0xFE0F), (0xFEFF, 0xFEFF), (0xE0100, 0xE01EF)]

/-- Runs of characters that are read as others: the first and the last of a run, and what the first
is read as. -/
def alike : List (Nat × Nat × Nat) :=
  [(0x41, 0x5A, 0x61), (0xB2, 0xB3, 0x32), (0xB9, 0xB9, 0x31), (0xC0, 0xD6, 0xE0),
   (0xD8, 0xDE, 0xF8), (0x391, 0x3A1, 0x3B1), (0x3A3, 0x3AB, 0x3C3), (0x400, 0x40F, 0x450),
   (0x410, 0x42F, 0x430), (0x2070, 0x2070, 0x30), (0x2074, 0x2079, 0x34), (0x2080, 0x2089, 0x30),
   (0x2460, 0x2468, 0x31), (0x24B6, 0x24CF, 0x61), (0x24D0, 0x24E9, 0x61), (0x24EA, 0x24EA, 0x30),
   (0x3002, 0x3002, 0x2E), (0xFF01, 0xFF20, 0x21), (0xFF21, 0xFF3A, 0x61), (0xFF3B, 0xFF5E, 0x5B),
   (0xFF61, 0xFF61, 0x2E), (0x1D7CE, 0x1D7D7, 0x30), (0x1D7D8, 0x1D7E1, 0x30),
   (0x1D7E2, 0x1D7EB, 0x30), (0x1D7EC, 0x1D7F5, 0x30), (0x1D7F6, 0x1D7FF, 0x30)]

def isIgnored (char : Char) : Bool :=
  ignored.any fun range => range.1 ≤ char.toNat && char.toNat ≤ range.2

def readAs (char : Char) : Char :=
  match alike.find? fun run => run.1 ≤ char.toNat && char.toNat ≤ run.2.1 with
  | some (first, _, target) => Char.ofNat (target + (char.toNat - first))
  | none => char

def isAscii (char : Char) : Bool :=
  char.toNat < 128

def isAccent (char : Char) : Bool :=
  0x300 ≤ char.toNat && char.toNat ≤ 0x36F

def isForbidden (char : Char) : Bool :=
  if isAscii char then
    char.toNat ≤ 0x20 || char.toNat = 0x7F || "#%/:<>?@[\\]^|".toList.contains char
  else Text.isUnprintable char && !Text.isLetter char && !isAccent char

/-- What stands in front of a label that is written in ASCII for its sake only. -/
def mark : List Char := "xn--".toList

/-- Whether a label is written in ASCII the way it would be from its own characters. -/
def isWellMarked (label : List Char) : Bool :=
  match Text.Punycode.decode? (label.drop mark.length) with
  | none => false
  | some chars =>
    !chars.all isAscii && chars.all fun char =>
      !isForbidden char && !isIgnored char && readAs char = char

def label? (chars : List Char) : Option (List Char) :=
  if !chars.all isAscii then some (mark ++ Text.Punycode.encode chars)
  else if mark.isPrefixOf chars && !isWellMarked chars then none
  else some chars

def canonical? (name : List Char) : Option (List Char) :=
  let read := (name.filter (!isIgnored ·)).map readAs
  if read.isEmpty || read.any isForbidden then none
  else ((read.splitOn '.').mapM label?).map (['.'].intercalate ·)

end LocalNet.Http.HostName
