import LocalNet.Json.Cursor
import LocalNet.Json.Value

/-!
Number literals. A whole number without point or exponent stays an integer while it fits in 64
bits; every other number is a double, made from as many leading digits as fit in 64 bits and a
power of ten.
-/

namespace LocalNet.Json

/-- The leading digits that keep a significand below `2 ^ 64`: their value and their count. -/
def absorbDigits (value count : Nat) : Bytes → Nat × Nat
  | [] => (value, count)
  | byte :: rest =>
    let next := value * 10 + Cursor.digitValue byte
    if Cursor.isDigit byte && next < Nat.pow 2 64 then absorbDigits next (count + 1) rest
    else (value, count)

def realAt (negative : Bool) (significand : Nat) (exponent : Int) (cursor : Cursor) :
    Reading Number :=
  match Real.ofParts? negative (UInt64.ofNat significand) exponent with
  | some bits => .ok (.real bits, cursor)
  | none => cursor.failHere (.grammar .numberOutOfRange)

/-- The value of exponent digits, or how many of them pass `2 ^ 31 - 1`. -/
def exponentValue (value count : Nat) : Bytes → Except Nat (Nat × Nat)
  | [] => .ok (value, count)
  | byte :: rest =>
    if Cursor.isDigit byte then
      let next := value * 10 + Cursor.digitValue byte
      if next < Nat.pow 2 31 then exponentValue next (count + 1) rest else .error (count + 1)
    else .ok (value, count)

def readExponent (negative : Bool) (significand : Nat) (start : Int) (cursor : Cursor) :
    Reading Number :=
  let afterLetter := cursor.advance
  let lowers := afterLetter.peek = some 0x2D
  let signed := lowers || afterLetter.peek = some 0x2B
  let digits := if signed then afterLetter.advance else afterLetter
  match digits.peek with
  | none => digits.failHere (.ended .value)
  | some first =>
    if Cursor.isDigit first then
      match exponentValue 0 0 digits.rest with
      | .ok (value, count) =>
        let exponent := if lowers then start - value else start + value
        realAt negative significand exponent (digits.advanceBy count)
      | .error count =>
        if significand ≠ 0 && !lowers then
          (digits.advanceBy count).failHere (.grammar .numberOutOfRange)
        else .ok (.real (Real.zero negative), digits.skipDigits)
    else digits.advance.failHere (.grammar .invalidNumber)

def atExponent (cursor : Cursor) : Bool :=
  cursor.peek = some 0x65 || cursor.peek = some 0x45

/-- Reads decimal places from their point on. Places that no longer fit are passed over. -/
def readPlaces (negative : Bool) (significand : Nat) (start : Int) (cursor : Cursor) :
    Reading Number :=
  let digits := cursor.advance
  let (value, count) := absorbDigits significand 0 digits.rest
  let following := digits.advanceBy count
  let exponent := start - count
  if count = 0 && !following.atDigit then
    match following.peek with
    | some _ => following.failAhead (.grammar .invalidNumber)
    | none => following.failAhead (.ended .value)
  else
    let following := following.skipDigits
    if atExponent following then readExponent negative value exponent following
    else realAt negative value exponent following

/-- Goes on after the digits of a number that is not an integer of 64 bits. -/
def readRealTail (negative : Bool) (significand : Nat) (exponent : Int) (cursor : Cursor) :
    Reading Number :=
  if cursor.peek = some 0x2E then readPlaces negative significand exponent cursor
  else if atExponent cursor then readExponent negative significand exponent cursor
  else realAt negative significand exponent cursor

/-- A negative number below `-2 ^ 63`, and minus zero, are doubles. -/
def wholeNumber (negative : Bool) (magnitude : Nat) : Number :=
  if negative then
    if magnitude = 0 || Nat.pow 2 63 < magnitude then
      .real (Real.ofInteger true (UInt64.ofNat magnitude))
    else .integer (-magnitude)
  else .integer magnitude

def readNumber (negative : Bool) (cursor : Cursor) : Reading Number :=
  match cursor.peek with
  | none => cursor.failHere (.ended .value)
  | some first =>
    if !Cursor.isDigit first then cursor.advance.failHere (.grammar .invalidNumber)
    else if first = 0x30 && cursor.advance.atDigit then
      cursor.advance.failAhead (.grammar .invalidNumber)
    else
      let (value, count) := absorbDigits 0 0 cursor.rest
      let following := cursor.advanceBy count
      let extra := following.digitCount
      let later := following.advanceBy extra
      if extra = 0 && following.peek ≠ some 0x2E && !atExponent following then
        .ok (wholeNumber negative value, following)
      else readRealTail negative value extra later

def skipExponent (cursor : Cursor) : Reading Unit :=
  let afterLetter := cursor.advance
  let signed := afterLetter.peek = some 0x2D || afterLetter.peek = some 0x2B
  let digits := if signed then afterLetter.advance else afterLetter
  if digits.atDigit then .ok ((), digits.skipDigits)
  else digits.advance.failHere (.grammar .invalidNumber)

def skipNumber (cursor : Cursor) : Reading Unit :=
  if !cursor.atDigit then cursor.advance.failHere (.grammar .invalidNumber)
  else if cursor.peek = some 0x30 && cursor.advance.atDigit then
    cursor.advance.failAhead (.grammar .invalidNumber)
  else
    let whole := cursor.skipDigits
    if whole.peek = some 0x2E then
      let places := whole.advance
      if !places.atDigit then places.failAhead (.grammar .invalidNumber)
      else
        let following := places.skipDigits
        if atExponent following then skipExponent following else .ok ((), following)
    else if atExponent whole then skipExponent whole
    else .ok ((), whole)

end LocalNet.Json
