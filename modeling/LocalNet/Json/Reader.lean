import LocalNet.Json.Skip

/-!
Reading a document whose values are kept. Lists and objects are walked by one loop each, for any
kind of element; a value may be nested `maximalDepth` deep.
-/

namespace LocalNet.Json

def maximalDepth : Nat := 127

/-- Passes over the closing bracket of a list that wants no further element. -/
def closeList (before : Cursor) : Reading Unit :=
  let cursor := before.skipBlanks
  match cursor.peek with
  | none => cursor.failAhead (.ended .list)
  | some byte =>
    if byte = 0x5D then .ok ((), cursor.advance)
    else if byte = 0x2C then
      let later := cursor.advance.skipBlanks
      if later.peek = some 0x5D then later.failAhead (.grammar .trailingComma)
      else later.failAhead (.grammar .trailingCharacters)
    else cursor.failAhead (.grammar .trailingCharacters)

/-- The place of the next element, or of the closing bracket where there is none. -/
def nextElement (first : Bool) (before : Cursor) : Reading Bool :=
  let cursor := before.skipBlanks
  match cursor.peek with
  | none => cursor.failAhead (.ended .list)
  | some byte =>
    if byte = 0x5D then .ok (false, cursor)
    else if first then .ok (true, cursor)
    else if byte = 0x2C then
      let later := cursor.advance.skipBlanks
      match later.peek with
      | none => later.failAhead (.ended .value)
      | some mark =>
        if mark = 0x5D then later.failAhead (.grammar .trailingComma) else .ok (true, later)
    else cursor.failAhead (.grammar .expectedListCommaOrEnd)

def readElements {α : Type} (item : Cursor → Reading α) :
    (fuel : Nat) → (first : Bool) → (backwards : List α) → Cursor → Reading (List α)
  | 0, _, _, cursor => cursor.failHere (.ended .list)
  | fuel + 1, first, backwards, cursor =>
    (nextElement first cursor).andThen fun more place =>
      if more then
        (item place).andThen fun value following =>
          readElements item fuel false (value :: backwards) following
      else .ok (backwards.reverse, place.advance)

def nextName (first : Bool) (before : Cursor) : Reading (Option String) :=
  let cursor := before.skipBlanks
  let nameAt := fun (place : Cursor) =>
    match place.peek with
    | none => place.failAhead (.ended .value)
    | some byte =>
      if byte = 0x22 then (readTextLiteral place.advance).map some
      else if byte = 0x7D then place.failAhead (.grammar .trailingComma)
      else place.failAhead (.grammar .keyNotText)
  match cursor.peek with
  | none => cursor.failAhead (.ended .object)
  | some byte =>
    if byte = 0x7D then .ok (none, cursor)
    else if first then nameAt cursor
    else if byte = 0x2C then nameAt cursor.advance.skipBlanks
    else cursor.failAhead (.grammar .expectedObjectCommaOrEnd)

def readColon (before : Cursor) : Reading Unit :=
  let cursor := before.skipBlanks
  match cursor.peek with
  | none => cursor.failAhead (.ended .object)
  | some byte =>
    if byte = 0x3A then .ok ((), cursor.advance)
    else cursor.failAhead (.grammar .expectedColon)

/-- Walks the members of an object up to and with its closing bracket, carrying a state that every
member's name and value may change. -/
def readMembers {σ : Type} (member : String → σ → Cursor → Reading σ) :
    (fuel : Nat) → (first : Bool) → σ → Cursor → Reading σ
  | 0, _, _, cursor => cursor.failHere (.ended .object)
  | fuel + 1, first, state, cursor =>
    (nextName first cursor).andThen fun name? place =>
      match name? with
      | none => .ok (state, place.advance)
      | some name =>
        (member name state place).andThen fun changed following =>
          readMembers member fuel false changed following

/-- Reads a value and keeps it; `depth` more brackets may be opened. -/
def readValue : (depth : Nat) → Cursor → Reading Value
  | depth, before =>
    let cursor := before.skipBlanks
    match cursor.peek with
    | none => cursor.failAhead (.ended .value)
    | some byte =>
      if byte = 0x6E then (cursor.advance.keyword [0x75, 0x6C, 0x6C]).map fun _ => .null
      else if byte = 0x74 then
        (cursor.advance.keyword [0x72, 0x75, 0x65]).map fun _ => .boolean true
      else if byte = 0x66 then
        (cursor.advance.keyword [0x61, 0x6C, 0x73, 0x65]).map fun _ => .boolean false
      else if byte = 0x2D then (readNumber true cursor.advance).map .number
      else if Cursor.isDigit byte then (readNumber false cursor).map .number
      else if byte = 0x22 then (readTextLiteral cursor.advance).map .text
      else if byte = 0x5B then
        match depth with
        | 0 => cursor.failAhead (.grammar .nestedTooDeep)
        | depth + 1 =>
          (readElements (readValue depth) (cursor.rest.length + 1) true [] cursor.advance).map
            .array
      else if byte = 0x7B then
        match depth with
        | 0 => cursor.failAhead (.grammar .nestedTooDeep)
        | depth + 1 =>
          (readMembers
            (fun name members place =>
              (readColon place).andThen fun _ following =>
                (readValue depth following).map fun value => putMember name value members)
            (cursor.rest.length + 1) true [] cursor.advance).map .object
      else cursor.failAhead (.grammar .expectedValue)

/-- Nothing but blanks may follow the one value of a document. -/
def finish {α : Type} (reading : Reading α) : Except Failure α :=
  match reading with
  | .error failure => .error failure
  | .ok (value, cursor) =>
    let rest := cursor.skipBlanks
    match rest.peek with
    | none => .ok value
    | some _ => .error ⟨.grammar .trailingCharacters, rest.ahead⟩

def Value.parse (text : Bytes) : Except Failure Value :=
  finish (readValue maximalDepth (Cursor.start text))

end LocalNet.Json
