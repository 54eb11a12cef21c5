import LocalNet.Bytes
import LocalNet.Json.Fault

/-!
A place in a JSON text: the bytes not read yet, and the position of the last byte read.
-/

namespace LocalNet.Json

structure Cursor where
  rest : Bytes
  here : Position
  deriving DecidableEq, Repr

/-- A reading step yields a value and the place behind it, or stops the whole reading. -/
abbrev Reading (α : Type) := Except Failure (α × Cursor)

def Reading.andThen {α β : Type} (reading : Reading α) (next : α → Cursor → Reading β) :
    Reading β :=
  match reading with
  | .ok (value, cursor) => next value cursor
  | .error failure => .error failure

def Reading.map {α β : Type} (change : α → β) (reading : Reading α) : Reading β :=
  reading.andThen fun value cursor => .ok (change value, cursor)

def Position.after (position : Position) (byte : UInt8) : Position :=
  if byte = 0x0A then ⟨position.line + 1, 0⟩ else ⟨position.line, position.column + 1⟩

namespace Cursor

def start (text : Bytes) : Cursor :=
  ⟨text, ⟨1, 0⟩⟩

def peek (cursor : Cursor) : Option UInt8 :=
  cursor.rest.head?

def advance (cursor : Cursor) : Cursor :=
  match cursor.rest with
  | [] => cursor
  | byte :: rest => ⟨rest, cursor.here.after byte⟩

def advanceBy (cursor : Cursor) : (count : Nat) → Cursor
  | 0 => cursor
  | count + 1 => cursor.advance.advanceBy count

/-- The position of the next byte, which a fault found by looking ahead is reported at. -/
def ahead (cursor : Cursor) : Position :=
  cursor.advance.here

def failHere {α : Type} (cursor : Cursor) (fault : Fault) : Reading α :=
  .error ⟨fault, cursor.here⟩

def failAhead {α : Type} (cursor : Cursor) (fault : Fault) : Reading α :=
  .error ⟨fault, cursor.ahead⟩

def isBlank (byte : UInt8) : Bool :=
  byte = 0x20 || byte = 0x0A || byte = 0x09 || byte = 0x0D

def skipBlanksFrom (position : Position) : Bytes → Cursor
  | [] => ⟨[], position⟩
  | byte :: rest =>
    if isBlank byte then skipBlanksFrom (position.after byte) rest else ⟨byte :: rest, position⟩

def skipBlanks (cursor : Cursor) : Cursor :=
  skipBlanksFrom cursor.here cursor.rest

def isDigit (byte : UInt8) : Bool :=
  0x30 ≤ byte && byte ≤ 0x39

def digitValue (byte : UInt8) : Nat :=
  byte.toNat - 0x30

def digitCount (cursor : Cursor) : Nat :=
  (cursor.rest.takeWhile isDigit).length

def skipDigits (cursor : Cursor) : Cursor :=
  cursor.advanceBy cursor.digitCount

def atDigit (cursor : Cursor) : Bool :=
  cursor.peek.any isDigit

def keyword (cursor : Cursor) : (letters : Bytes) → Reading Unit
  | [] => .ok ((), cursor)
  | letter :: letters =>
    match cursor.peek with
    | none => cursor.failHere (.ended .value)
    | some byte =>
      if byte = letter then cursor.advance.keyword letters
      else cursor.advance.failHere (.grammar .expectedIdentifier)

end Cursor

end LocalNet.Json
