import LocalNet.Json.StringLiteral
import LocalNet.Json.NumberLiteral

/-!
Passing over a value that nobody keeps. The value must be well formed, but it may be nested to any
depth and its numbers and escapes may stand for anything.
-/

namespace LocalNet.Json

inductive Bracket where
  | square
  | curly
  deriving DecidableEq, Repr

def Bracket.closing : Bracket → UInt8
  | .square => 0x5D
  | .curly => 0x7D

def Bracket.separatorFault : Bracket → Fault
  | .square => .grammar .expectedListCommaOrEnd
  | .curly => .grammar .expectedObjectCommaOrEnd

def Bracket.endFault : Bracket → Fault
  | .square => .ended .list
  | .curly => .ended .object

/-- Where a walk over nested brackets stands, with the brackets still open, innermost first. -/
inductive SkipState where
  | atValue (opened : List Bracket)
  | afterOpening (bracket : Bracket) (outer : List Bracket)
  | afterValue (opened : List Bracket)
  | atMember (bracket : Bracket) (outer : List Bracket)
  deriving DecidableEq, Repr

inductive SkipStep where
  | finished
  | next (state : SkipState)

def skipScalar (opened : List Bracket) (cursor : Cursor) : Reading SkipStep :=
  let done := SkipStep.next (.afterValue opened)
  match cursor.peek with
  | none => cursor.failAhead (.ended .value)
  | some byte =>
    if byte = 0x6E then (cursor.advance.keyword [0x75, 0x6C, 0x6C]).map fun _ => done
    else if byte = 0x74 then (cursor.advance.keyword [0x72, 0x75, 0x65]).map fun _ => done
    else if byte = 0x66 then (cursor.advance.keyword [0x61, 0x6C, 0x73, 0x65]).map fun _ => done
    else if byte = 0x2D then (skipNumber cursor.advance).map fun _ => done
    else if Cursor.isDigit byte then (skipNumber cursor).map fun _ => done
    else if byte = 0x22 then (skipLiteral cursor.advance).map fun _ => done
    else if byte = 0x5B then .ok (.next (.afterOpening .square opened), cursor.advance)
    else if byte = 0x7B then .ok (.next (.afterOpening .curly opened), cursor.advance)
    else cursor.failAhead (.grammar .expectedValue)

def skipName (cursor : Cursor) : Reading Unit :=
  match cursor.peek with
  | none => cursor.failAhead (.ended .object)
  | some byte =>
    if byte = 0x22 then
      (skipLiteral cursor.advance).andThen fun _ following =>
        let colon := following.skipBlanks
        match colon.peek with
        | none => colon.failAhead (.ended .object)
        | some mark =>
          if mark = 0x3A then .ok ((), colon.advance)
          else colon.failAhead (.grammar .expectedColon)
    else cursor.failAhead (.grammar .keyNotText)

def skipStep (state : SkipState) (before : Cursor) : Reading SkipStep :=
  let cursor := before.skipBlanks
  match state with
  | .atValue opened => skipScalar opened cursor
  | .afterOpening bracket outer =>
    match cursor.peek with
    | none => cursor.failAhead bracket.endFault
    | some byte =>
      if byte = bracket.closing then .ok (.next (.afterValue outer), cursor.advance)
      else .ok (.next (.atMember bracket outer), cursor)
  | .afterValue [] => .ok (.finished, before)
  | .afterValue (bracket :: outer) =>
    match cursor.peek with
    | none => cursor.failAhead bracket.endFault
    | some byte =>
      if byte = 0x2C then .ok (.next (.atMember bracket outer), cursor.advance)
      else if byte = bracket.closing then .ok (.next (.afterValue outer), cursor.advance)
      else cursor.failAhead bracket.separatorFault
  | .atMember .square outer => .ok (.next (.atValue (.square :: outer)), cursor)
  | .atMember .curly outer =>
    (skipName cursor).map fun _ => .next (.atValue (.curly :: outer))

def skipFrom : (fuel : Nat) → SkipState → Cursor → Reading Unit
  | 0, _, cursor => cursor.failHere (.ended .value)
  | fuel + 1, state, cursor =>
    (skipStep state cursor).andThen fun step following =>
      match step with
      | .finished => .ok ((), following)
      | .next state => skipFrom fuel state following

/-- At most two steps pass without reading a byte before one that does. -/
def skipValue (cursor : Cursor) : Reading Unit :=
  skipFrom (3 * cursor.rest.length + 4) (.atValue []) cursor

end LocalNet.Json
