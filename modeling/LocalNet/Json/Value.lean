/-!
JSON documents as values. Members of an object stand in ascending order of their names, each name
once; a real number is kept by the bits of its double, so that equality of values is decidable.
-/

namespace LocalNet.Json

inductive Number where
  | integer (value : Int)
  | real (bits : UInt64)
  deriving DecidableEq, Repr, Inhabited

inductive Value where
  | null
  | boolean (value : Bool)
  | number (value : Number)
  | text (value : String)
  | array (elements : List Value)
  | object (members : List (String × Value))
  deriving Repr, Inhabited, BEq

mutual

def Value.decEq : (left right : Value) → Decidable (left = right)
  | .null, .null => isTrue rfl
  | .boolean left, .boolean right =>
    if same : left = right then isTrue (by rw [same]) else isFalse (by simpa using same)
  | .number left, .number right =>
    if same : left = right then isTrue (by rw [same]) else isFalse (by simpa using same)
  | .text left, .text right =>
    if same : left = right then isTrue (by rw [same]) else isFalse (by simpa using same)
  | .array left, .array right =>
    match Value.decEqList left right with
    | isTrue same => isTrue (by rw [same])
    | isFalse differ => isFalse (by simpa using differ)
  | .object left, .object right =>
    match Value.decEqMembers left right with
    | isTrue same => isTrue (by rw [same])
    | isFalse differ => isFalse (by simpa using differ)
  | .null, .boolean _ | .null, .number _ | .null, .text _ | .null, .array _ | .null, .object _
  | .boolean _, .null | .boolean _, .number _ | .boolean _, .text _ | .boolean _, .array _
  | .boolean _, .object _ | .number _, .null | .number _, .boolean _ | .number _, .text _
  | .number _, .array _ | .number _, .object _ | .text _, .null | .text _, .boolean _
  | .text _, .number _ | .text _, .array _ | .text _, .object _ | .array _, .null
  | .array _, .boolean _ | .array _, .number _ | .array _, .text _ | .array _, .object _
  | .object _, .null | .object _, .boolean _ | .object _, .number _ | .object _, .text _
  | .object _, .array _ => isFalse (by simp)

def Value.decEqList : (left right : List Value) → Decidable (left = right)
  | [], [] => isTrue rfl
  | [], _ :: _ => isFalse (by simp)
  | _ :: _, [] => isFalse (by simp)
  | left :: leftRest, right :: rightRest =>
    match Value.decEq left right, Value.decEqList leftRest rightRest with
    | isTrue same, isTrue sameRest => isTrue (by rw [same, sameRest])
    | isFalse differ, _ => isFalse (by simp [differ])
    | _, isFalse differ => isFalse (by simp [differ])

def Value.decEqMembers : (left right : List (String × Value)) → Decidable (left = right)
  | [], [] => isTrue rfl
  | [], _ :: _ => isFalse (by simp)
  | _ :: _, [] => isFalse (by simp)
  | (leftName, left) :: leftRest, (rightName, right) :: rightRest =>
    if sameName : leftName = rightName then
      match Value.decEq left right, Value.decEqMembers leftRest rightRest with
      | isTrue same, isTrue sameRest => isTrue (by rw [sameName, same, sameRest])
      | isFalse differ, _ => isFalse (by simp [differ])
      | _, isFalse differ => isFalse (by simp [differ])
    else isFalse (by simp [sameName])

end

instance : DecidableEq Value := Value.decEq

/-- A later member of the same name takes the earlier one's place. -/
def putMember (name : String) (value : Value) :
    List (String × Value) → List (String × Value)
  | [] => [(name, value)]
  | (other, held) :: rest =>
    if name = other then (name, value) :: rest
    else if name < other then (name, value) :: (other, held) :: rest
    else (other, held) :: putMember name value rest

namespace Value

def ofMembers (members : List (String × Value)) : Value :=
  .object (members.foldl (fun sorted member => putMember member.1 member.2 sorted) [])

def member? (value : Value) (name : String) : Option Value :=
  match value with
  | .object members => members.lookup name
  | _ => none

def ofNat (value : Nat) : Value :=
  .number (.integer value)

def ofBytes (bytes : List UInt8) : Value :=
  .array (bytes.map fun byte => ofNat byte.toNat)

end Value

end LocalNet.Json
