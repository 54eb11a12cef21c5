/-!
Names of nodes. A name becomes a directory, so it is a single plain component of a path; a blank
name stands for one that is generated when the node is accepted.
-/

namespace LocalNet

def isValidNodeName (name : String) : Bool :=
  name = "" ||
    (!name.toList.contains '/' && !name.toList.contains '\\' && name ≠ "." && name ≠ "..")

def generatedStem : String := "node-"

/-- Hands out names whose number only ever grows. -/
structure NameAllocator where
  nextSuffix : Nat := 1
  deriving DecidableEq, Repr

namespace NameAllocator

def nameOf (suffix : Nat) : String :=
  generatedStem ++ toString suffix

/-- The first suffix from `suffix` on whose name is free; among one more names than are taken, one
is. -/
def freeSuffix (taken : List String) : (tries : Nat) → (suffix : Nat) → Nat
  | 0, suffix => suffix
  | tries + 1, suffix =>
    if taken.contains (nameOf suffix) then freeSuffix taken tries (suffix + 1) else suffix

def nextName (names : NameAllocator) (taken : List String) : String × NameAllocator :=
  let suffix := freeSuffix taken taken.length names.nextSuffix
  (nameOf suffix, ⟨suffix + 1⟩)

end NameAllocator

end LocalNet
