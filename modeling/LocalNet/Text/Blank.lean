/-!
White space of all scripts, as the Unicode property White_Space has it.
-/

namespace LocalNet.Text

def blankRanges : List (Nat × Nat) :=
  [(0x09, 0x0D), (0x20, 0x20), (0x85, 0x85), (0xA0, 0xA0), (0x1680, 0x1680), (0x2000, 0x200A),
   (0x2028, 0x2029), (0x202F, 0x202F), (0x205F, 0x205F), (0x3000, 0x3000)]

def isBlank (char : Char) : Bool :=
  blankRanges.any fun range => range.1 ≤ char.toNat && char.toNat ≤ range.2

def trimmed (chars : List Char) : List Char :=
  ((chars.dropWhile isBlank).reverse.dropWhile isBlank).reverse

end LocalNet.Text
