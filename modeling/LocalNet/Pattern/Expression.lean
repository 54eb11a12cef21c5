/-!
Regular expressions. What an expression is made of says which characters it takes, in which order,
and which of two ways it would rather go.
-/

namespace LocalNet.Pattern

inductive CharSet where
  /-- Inclusive ranges. -/
  | ranges (list : List (Nat × Nat))
  | union (left right : CharSet)
  | intersection (left right : CharSet)
  | difference (left right : CharSet)
  | symmetricDifference (left right : CharSet)
  | complement (set : CharSet)
  /-- With the other case of each ASCII letter in it. -/
  | caseless (set : CharSet)
  deriving DecidableEq, Repr

namespace CharSet

def none : CharSet := .ranges []

def single (char : Char) : CharSet := .ranges [(char.toNat, char.toNat)]

def otherCase (code : Nat) : Nat :=
  if 0x41 ≤ code && code ≤ 0x5A then code + 0x20
  else if 0x61 ≤ code && code ≤ 0x7A then code - 0x20
  else code

def has : CharSet → Nat → Bool
  | .ranges list, code => list.any fun range => range.1 ≤ code && code ≤ range.2
  | .union left right, code => left.has code || right.has code
  | .intersection left right, code => left.has code && right.has code
  | .difference left right, code => left.has code && !right.has code
  | .symmetricDifference left right, code => left.has code != right.has code
  | .complement set, code => !set.has code
  | .caseless set, code => set.has code || set.has (otherCase code)

def named? (name : String) : Option CharSet :=
  let list? : Option (List (Nat × Nat)) :=
    match name with
    | "alnum" => some [(0x30, 0x39), (0x41, 0x5A), (0x61, 0x7A)]
    | "alpha" => some [(0x41, 0x5A), (0x61, 0x7A)]
    | "ascii" => some [(0x00, 0x7F)]
    | "blank" => some [(0x09, 0x09), (0x20, 0x20)]
    | "cntrl" => some [(0x00, 0x1F), (0x7F, 0x7F)]
    | "digit" => some [(0x30, 0x39)]
    | "graph" => some [(0x21, 0x7E)]
    | "lower" => some [(0x61, 0x7A)]
    | "print" => some [(0x20, 0x7E)]
    | "punct" => some [(0x21, 0x2F), (0x3A, 0x40), (0x5B, 0x60), (0x7B, 0x7E)]
    | "space" => some [(0x09, 0x0D), (0x20, 0x20)]
    | "upper" => some [(0x41, 0x5A)]
    | "word" => some [(0x30, 0x39), (0x41, 0x5A), (0x5F, 0x5F), (0x61, 0x7A)]
    | "xdigit" => some [(0x30, 0x39), (0x41, 0x46), (0x61, 0x66)]
    | _ => Option.none
  list?.map .ranges

end CharSet

def isWordCharacter (char : Char) : Bool :=
  char.isAlphanum || char = '_'

inductive Look where
  | textStart
  | textEnd
  | lineStart
  | lineEnd
  /-- Of lines that end in a line feed, a carriage return, or both. -/
  | anyLineStart
  | anyLineEnd
  | wordEdge
  | noWordEdge
  | wordStart
  | wordEnd
  deriving DecidableEq, Repr

/-- A place, by the characters next to it; one is absent at an end of the text. -/
structure Place where
  before : Option Char
  after : Option Char
  deriving DecidableEq, Repr

namespace Look

def holds (place : Place) : Look → Bool
  | .textStart => place.before.isNone
  | .textEnd => place.after.isNone
  | .lineStart => place.before.all (· = '\n')
  | .lineEnd => place.after.all (· = '\n')
  | .anyLineStart =>
    place.before.all fun char =>
      char = '\n' || (char = '\r' && place.after ≠ some '\n')
  | .anyLineEnd =>
    place.after.all fun char =>
      char = '\r' || (char = '\n' && place.before ≠ some '\r')
  | .wordEdge => place.before.any isWordCharacter != place.after.any isWordCharacter
  | .noWordEdge => place.before.any isWordCharacter == place.after.any isWordCharacter
  | .wordStart => !place.before.any isWordCharacter && place.after.any isWordCharacter
  | .wordEnd => place.before.any isWordCharacter && !place.after.any isWordCharacter

end Look

inductive Expression where
  | empty
  | one (set : CharSet)
  | look (what : Look)
  | seq (first second : Expression)
  /-- Goes the first way rather than the second. -/
  | either (first second : Expression)
  /-- The greedy forms go on rather than stop. -/
  | optional (greedy : Bool) (body : Expression)
  | star (greedy : Bool) (body : Expression)
  | plus (greedy : Bool) (body : Expression)
  deriving DecidableEq, Repr

namespace Expression

/-- Whether every match takes at least one character. -/
def consumes : Expression → Bool
  | .empty => false
  | .one _ => true
  | .look _ => false
  | .seq first second => first.consumes || second.consumes
  | .either first second => first.consumes && second.consumes
  | .optional _ _ => false
  | .star _ _ => false
  | .plus _ body => body.consumes

end Expression

end LocalNet.Pattern
