import LocalNet.Json.Decoder

/-!
Records: data with named fields, written as an object in any order of its members or as an array in
the order of its fields. Decoding starts from the blank record, which has every field at its
default, and lets each field that is present replace its default.
-/

namespace LocalNet.Json

structure Field (ρ : Type) where
  name : String
  /-- Whether an object without this member is refused. -/
  requiredByName : Bool
  /-- Whether an array that ends before this place is refused. -/
  requiredByPlace : Bool
  store : Decoder (ρ → ρ)

structure Record (ρ : Type) where
  title : String
  blank : ρ
  fields : List (Field ρ)
  /-- Whether members of other names are refused rather than passed over. -/
  closed : Bool

namespace Record

variable {ρ : Type}

def names (record : Record ρ) : List String :=
  record.fields.map Field.name

def expected (record : Record ρ) : String :=
  "struct " ++ record.title

def arity (record : Record ρ) : String :=
  let count := record.fields.length
  record.expected ++ " with " ++ toString count ++
    (if count = 1 then " element" else " elements")

def field? (record : Record ρ) (name : String) : Option (Field ρ) :=
  record.fields.find? fun field => field.name = name

/-- A record being filled, with the names of the fields that were present. -/
structure Draft (ρ : Type) where
  value : ρ
  present : List String

def start (record : Record ρ) : Draft ρ :=
  ⟨record.blank, []⟩

def Draft.put (draft : Draft ρ) (name : String) (change : ρ → ρ) : Draft ρ :=
  ⟨change draft.value, name :: draft.present⟩

def missing? (record : Record ρ) (draft : Draft ρ) : Option Mismatch :=
  (record.fields.find? fun field =>
      field.requiredByName && !draft.present.contains field.name).map
    fun field => .missingField field.name

def complete (record : Record ρ) (draft : Draft ρ) : Except Mismatch ρ :=
  match record.missing? draft with
  | some reason => .error reason
  | none => .ok draft.value

inductive MemberUse (ρ : Type) where
  | refuse (reason : Mismatch)
  | passOver
  | store (field : Field ρ)

def useOf (record : Record ρ) (draft : Draft ρ) (name : String) : MemberUse ρ :=
  match record.field? name with
  | some field =>
    if draft.present.contains name then .refuse (.repeatedField name) else .store field
  | none => if record.closed then .refuse (.unknownField name record.names) else .passOver

def putMembers (record : Record ρ) :
    (members : List (String × Value)) → Draft ρ → Except Mismatch (Draft ρ)
  | [], draft => .ok draft
  | (name, value) :: rest, draft =>
    match record.useOf draft name with
    | .refuse reason => .error reason
    | .passOver => record.putMembers rest draft
    | .store field =>
      match field.store.ofValue value with
      | .error reason => .error reason
      | .ok change => record.putMembers rest (draft.put name change)

/-- Fills fields by their places; `total` is the number of elements given. -/
def putElements (record : Record ρ) (total : Nat) :
    (place : Nat) → (fields : List (Field ρ)) → (elements : List Value) → ρ → Except Mismatch ρ
  | _, [], [], value => .ok value
  | _, [], _ :: _, _ => .error (.wrongLength total "fewer elements in array")
  | place, field :: fields, [], value =>
    if field.requiredByPlace then .error (.wrongLength place record.arity)
    else record.putElements total (place + 1) fields [] value
  | place, field :: fields, element :: elements, value =>
    match field.store.ofValue element with
    | .error reason => .error reason
    | .ok change => record.putElements total (place + 1) fields elements (change value)

def ofValue (record : Record ρ) : Value → Except Mismatch ρ
  | .object members =>
    match record.putMembers members record.start with
    | .error reason => .error reason
    | .ok draft => record.complete draft
  | .array elements =>
    record.putElements elements.length 0 record.fields elements record.blank
  | other => .error (.wrongKind other.found record.expected)

/-- A member that is refused for its name is reported behind the closing bracket, where that
follows at once. -/
def readMember (record : Record ρ) (depth : Nat) (name : String) (draft : Draft ρ)
    (cursor : Cursor) : Reading (Draft ρ) :=
  match record.useOf draft name with
  | .refuse reason =>
    let place := cursor.skipBlanks
    refuseHere (if place.peek = some 0x7D then place.advance else place) reason
  | .passOver => (readColon cursor).andThen fun _ place => (skipValue place).map fun _ => draft
  | .store field =>
    (readColon cursor).andThen fun _ place =>
      (field.store.read depth place).map fun change => draft.put name change

def readFields (record : Record ρ) (depth : Nat) :
    (place : Nat) → (first : Bool) → (fields : List (Field ρ)) → ρ → Cursor → Reading ρ
  | _, _, [], value, cursor => (closeList cursor).map fun _ => value
  | place, first, field :: fields, value, cursor =>
    (nextElement first cursor).andThen fun more following =>
      if more then
        (field.store.read depth following).andThen fun change rest =>
          record.readFields depth (place + 1) false fields (change value) rest
      else if field.requiredByPlace then
        refuseHere following.advance (.wrongLength place record.arity)
      else record.readFields depth (place + 1) first fields value following

def read (record : Record ρ) (depth : Nat) (before : Cursor) : Reading ρ :=
  atValue before fun byte cursor =>
    if byte = 0x5B then
      match depth with
      | 0 => cursor.failAhead (.grammar .nestedTooDeep)
      | depth + 1 => record.readFields depth 0 true record.fields record.blank cursor.advance
    else if byte = 0x7B then
      match depth with
      | 0 => cursor.failAhead (.grammar .nestedTooDeep)
      | depth + 1 =>
        (readMembers (record.readMember depth) (cursor.rest.length + 1) true record.start
            cursor.advance).andThen fun draft following =>
          match record.complete draft with
          | .ok value => .ok (value, following)
          | .error reason => refuseHere following reason
    else refuseKind record.expected cursor

def decoder (record : Record ρ) : Decoder ρ where
  read := record.read
  ofValue := record.ofValue

def defaulted {α : Type} (name : String) (decoder : Decoder α) (set : α → ρ → ρ) : Field ρ :=
  ⟨name, false, false, decoder.map set⟩

def required {α : Type} (name : String) (decoder : Decoder α) (set : α → ρ → ρ) : Field ρ :=
  ⟨name, true, true, decoder.map set⟩

/-- A field that an object may leave out, but an array may not. -/
def nullable {α : Type} (name : String) (decoder : Decoder (Option α))
    (set : Option α → ρ → ρ) : Field ρ :=
  ⟨name, false, true, decoder.map set⟩

end Record

end LocalNet.Json
