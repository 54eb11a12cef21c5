import LocalNet.Proofs.Json.Containers
import LocalNet.Proofs.Json.Skipping

/-!
# Decoders are uniform

A decoder chooses by the first byte of a value. What it makes of a document is the same for every
spacing of it, so decoding a text comes to the meaning of the text's document.
-/

namespace LocalNet.Json

variable {α β ρ : Type}

namespace Reading

theorem seen_and_then_refused {reading : Reading α} {next : α → Cursor → Reading β}
    (refused : ∀ value cursor, (next value cursor).seen = none) :
    (reading.andThen next).seen = none := by
  rcases reading with failure | ⟨value, cursor⟩
  · rfl
  · exact refused value cursor

@[simp] theorem seen_refuse_kind (expected : String) (cursor : Cursor) :
    (refuseKind expected cursor : Reading α).seen = none := by
  rw [refuseKind]
  repeat' split
  all_goals first
    | rfl
    | exact seen_and_then_refused fun _ _ => rfl

end Reading

/-! ## Choosing by the first byte -/

section Choice

variable {choose : UInt8 → Cursor → Reading α} {outcome : Option α}

theorem at_value_first (choose : UInt8 → Cursor → Reading α) {byte : UInt8}
    {token text rest : Bytes} {tokens : List Bytes} {cursor : Cursor}
    (spaced : Spaced ((byte :: token) :: tokens) text)
    (notBlank : Cursor.isBlank byte = false) (given : cursor.rest = text ++ rest) :
    ∃ place back, atValue cursor choose = choose byte place ∧
      place.rest = byte :: (token ++ (back ++ rest)) ∧ Spaced tokens back := by
  obtain ⟨back, begins, spacedBack, -⟩ := spaced.strip rest notBlank
  refine ⟨cursor.skipBlanks, back, ?_, by simp [given, begins], spacedBack⟩
  simp [atValue, given, begins]

theorem at_value_scalar (choose : UInt8 → Cursor → Reading α) {byte : UInt8}
    {token text rest : Bytes} {cursor : Cursor}
    (spaced : Spaced [byte :: token] text) (notBlank : Cursor.isBlank byte = false)
    (given : cursor.rest = text ++ rest) :
    ∃ place, atValue cursor choose = choose byte place ∧ place.rest = byte :: (token ++ rest) := by
  obtain ⟨place, back, chosen, begins, ends⟩ := at_value_first choose spaced notBlank given
  obtain _ | _ := ends
  exact ⟨place, chosen, begins⟩

theorem yields_word {word : Word} {letter : UInt8} {letters : Bytes}
    (spelled : word.letters = letter :: letters)
    (chosen : ∀ place rest, place.rest = letter :: (letters ++ rest) →
      (choose letter place).seen = outcome.map (·, rest)) :
    Yields (atValue · choose) (.word word) outcome := by
  intro text rest cursor spaced _ given
  have notBlank : Cursor.isBlank letter = false := by
    cases word <;> cases spelled <;> rfl
  rw [Doc.tokens, spelled] at spaced
  obtain ⟨place, same, begins⟩ := at_value_scalar choose spaced notBlank given
  dsimp only
  rw [same]
  exact chosen place rest begins

theorem yields_number {literal : Bytes} (numeral : Numeral literal)
    (unsigned : ∀ first place rest, Cursor.isDigit first = true →
      (readNumber false place).seen = (numberOf? literal).map (·, rest) →
      (choose first place).seen = outcome.map (·, rest))
    (negative : ∀ place rest,
      (readNumber true place.advance).seen = (numberOf? literal).map (·, rest) →
      (choose 0x2D place).seen = outcome.map (·, rest)) :
    Yields (atValue · choose) (.number literal) outcome := by
  intro text rest cursor spaced delimited given
  rw [Doc.tokens] at spaced
  dsimp only
  cases reads_numeral numeral with
  | unsigned split isDigit reads =>
      rw [split] at spaced
      obtain ⟨place, same, begins⟩ :=
        at_value_scalar choose spaced (Opening.digit isDigit).notBlank given
      rw [same]
      exact unsigned _ place rest isDigit (reads place rest delimited (by rw [begins, split]; rfl))
  | negative split reads =>
      rw [split] at spaced
      obtain ⟨place, same, begins⟩ := at_value_scalar choose spaced rfl given
      rw [same]
      exact negative place rest (reads place.advance rest delimited (by simp [begins]))

theorem yields_text {body : Bytes}
    (chosen : ∀ place rest, place.advance.rest = body ++ 0x22 :: rest →
      (choose 0x22 place).seen = outcome.map (·, rest)) :
    Yields (atValue · choose) (.text body) outcome := by
  intro text rest cursor spaced _ given
  obtain ⟨place, same, begins⟩ := at_value_scalar choose spaced rfl given
  dsimp only
  rw [same]
  exact chosen place rest (by simp [begins])

theorem yields_array {elements : List Doc}
    (chosen : ∀ place text rest, Spaced (joined (elements.map Doc.tokens) ++ [[0x5D]]) text →
      place.rest = 0x5B :: (text ++ rest) → (choose 0x5B place).seen = outcome.map (·, rest)) :
    Yields (atValue · choose) (.array elements) outcome := by
  intro text rest cursor spaced _ given
  rw [Doc.tokens, element_tokens_eq] at spaced
  obtain ⟨place, back, same, begins, spacedBack⟩ :=
    at_value_first choose spaced rfl given
  dsimp only
  rw [same]
  exact chosen place back rest spacedBack begins

theorem yields_object {members : List (Bytes × Doc)}
    (chosen : ∀ place text rest, Spaced (joined (Doc.memberTokens members) ++ [[0x7D]]) text →
      place.rest = 0x7B :: (text ++ rest) → (choose 0x7B place).seen = outcome.map (·, rest)) :
    Yields (atValue · choose) (.object members) outcome := by
  intro text rest cursor spaced _ given
  rw [Doc.tokens] at spaced
  obtain ⟨place, back, same, begins, spacedBack⟩ :=
    at_value_first choose spaced rfl given
  dsimp only
  rw [same]
  exact chosen place back rest spacedBack begins

end Choice

namespace Decoder

def IsUniform (decoder : Decoder α) : Prop :=
  ∀ depth, Uniform (decoder.read depth)

end Decoder

/-! ## Scalars -/

def Doc.boolean? : Doc → Option Bool
  | .word .true => some true
  | .word .false => some false
  | _ => none

def Doc.number? : Doc → Option Number
  | .number literal => numberOf? literal
  | _ => none

def Doc.text? : Doc → Option String
  | .text body => textOf? body
  | _ => none

namespace Decoder

theorem boolean_yields {doc : Doc} (lexical : doc.Lexical) (depth : Nat) :
    Yields (boolean.read depth) doc doc.boolean? := by
  simp only [boolean]
  rcases doc with word | literal | body | elements | members
  · rcases word with _ | _ | _
    · exact yields_word rfl fun place rest _ => by simp [Doc.boolean?]
    · refine yields_word rfl fun place rest given => ?_
      have keyword := Cursor.seen_keyword place.advance [0x72, 0x75, 0x65] rest
        (by simp [given])
      simp [keyword, Doc.boolean?]
    · refine yields_word rfl fun place rest given => ?_
      have keyword := Cursor.seen_keyword place.advance [0x61, 0x6C, 0x73, 0x65] rest
        (by simp [given])
      simp [keyword, Doc.boolean?]
  · refine yields_number lexical.number (fun first place rest isDigit _ => ?_)
      fun place rest _ => ?_
    · simp [digit_ne isDigit 0x74 rfl, digit_ne isDigit 0x66 rfl,
        Doc.boolean?]
    · simp [Doc.boolean?]
  · exact yields_text fun place rest _ => by simp [Doc.boolean?]
  · exact yields_array fun place text rest _ _ => by simp [Doc.boolean?]
  · exact yields_object fun place text rest _ _ => by simp [Doc.boolean?]

theorem text_yields {expected : String} {doc : Doc} (lexical : doc.Lexical) (depth : Nat) :
    Yields ((text expected).read depth) doc doc.text? := by
  simp only [text]
  rcases doc with word | literal | body | elements | members
  · rcases word with _ | _ | _ <;>
      exact yields_word rfl fun place rest _ => by simp [Doc.text?]
  · refine yields_number lexical.number (fun first place rest isDigit _ => ?_)
      fun place rest _ => ?_
    · simp [digit_ne isDigit 0x22 rfl, Doc.text?]
    · simp [Doc.text?]
  · refine yields_text fun place rest given => ?_
    rw [if_pos rfl, seen_text_literal lexical.text given]
    rfl
  · exact yields_array fun place text rest _ _ => by simp [Doc.text?]
  · exact yields_object fun place text rest _ _ => by simp [Doc.text?]

theorem integer_yields {least greatest : Int} {expected : String} {doc : Doc}
    (lexical : doc.Lexical) (depth : Nat) :
    Yields ((integer least greatest expected).read depth) doc
      (doc.number?.bind fun number => (integerOf least greatest expected number).toOption) := by
  simp only [integer]
  rcases doc with word | literal | body | elements | members
  · rcases word with _ | _ | _ <;>
      exact yields_word rfl fun place rest _ => by simp [Doc.number?, Cursor.isDigit]
  · refine yields_number lexical.number (fun first place rest isDigit seen => ?_)
      fun place rest seen => ?_
    · rw [if_neg (digit_ne isDigit _ rfl), if_pos isDigit]
      refine Reading.seen_judged _ seen fun number cursor => ?_
      cases integerOf least greatest expected number <;> rfl
    · rw [if_pos rfl]
      refine Reading.seen_judged _ seen fun number cursor => ?_
      cases integerOf least greatest expected number <;> rfl
  · exact yields_text fun place rest _ => by simp [Doc.number?, Cursor.isDigit]
  · exact yields_array fun place text rest _ _ => by simp [Doc.number?, Cursor.isDigit]
  · exact yields_object fun place text rest _ _ => by simp [Doc.number?, Cursor.isDigit]

theorem map_yields {change : α → β} {decoder : Decoder α} {doc : Doc} {depth : Nat}
    {outcome : Option α} (yields : Yields (decoder.read depth) doc outcome) :
    Yields ((decoder.map change).read depth) doc (outcome.map change) := by
  intro text rest cursor spaced delimited given
  simp only [map]
  rw [Reading.seen_map, yields spaced delimited given]
  cases outcome <;> rfl

theorem map_reads (change : α → β) (decoder : Decoder α) (depth : Nat) (doc : Doc) :
    meaning ((decoder.map change).read depth) doc =
      (meaning (decoder.read depth) doc).map change := by
  simp only [meaning, map, Reading.seen_map, Option.map_map]
  rfl

/-! ## Values with parts -/

def listOf? (item : Decoder α) : (depth : Nat) → Doc → Option (List α)
  | depth + 1, .array elements => meanings (item.read depth) elements
  | _, _ => none

theorem read_list_seen {item : Decoder α} {depth : Nat}
    (uniform : ∀ inner, depth = inner + 1 → Uniform (item.read inner)) {elements : List Doc}
    (lexical : (Doc.array elements).Lexical) {place : Cursor} {text rest : Bytes}
    (spaced : Spaced (joined (elements.map Doc.tokens) ++ [[0x5D]]) text)
    (begins : place.rest = 0x5B :: (text ++ rest)) :
    (readList item depth place).seen = (listOf? item depth (.array elements)).map (·, rest) := by
  cases depth with
  | zero => rfl
  | succ depth =>
      have count := member_count_le spaced
      rw [List.length_map] at count
      rw [readList, read_elements_seen
        (fun doc member => (uniform depth rfl).yields (lexical.element member))
        (fun doc member => lexical.element member) (by rw [begins]; simp; omega) true [] rest
        (by simpa [remaining] using spaced) (by simp [begins])]
      rfl

theorem list_yields {item : Decoder α} (uniform : item.IsUniform) {doc : Doc}
    (lexical : doc.Lexical) (depth : Nat) :
    Yields ((list item).read depth) doc (listOf? item depth doc) := by
  simp only [list]
  rcases doc with word | literal | body | elements | members
  · rcases word with _ | _ | _ <;>
      exact yields_word rfl fun place rest _ => by simp [listOf?]
  · refine yields_number lexical.number (fun first place rest isDigit _ => ?_)
      fun place rest _ => ?_
    · simp [digit_ne isDigit 0x5B rfl, listOf?]
    · simp [listOf?]
  · exact yields_text fun place rest _ => by simp [listOf?]
  · refine yields_array fun place text rest spaced begins => ?_
    rw [if_pos rfl]
    exact read_list_seen (fun inner _ => uniform inner) lexical spaced begins
  · exact yields_object fun place text rest _ _ => by simp [listOf?]

def bytesAt? : (depth : Nat) → Doc → Option Bytes
  | _, .text body => bytesOf? body
  | depth, doc => listOf? byte depth doc

theorem byte_is_uniform : byte.IsUniform :=
  fun depth _ lexical => ⟨_, map_yields (integer_yields lexical depth)⟩

theorem bytes_yields {doc : Doc} (lexical : doc.Lexical) (depth : Nat) :
    Yields (bytes.read depth) doc (bytesAt? depth doc) := by
  simp only [bytes]
  rcases doc with word | literal | body | elements | members
  · rcases word with _ | _ | _ <;>
      exact yields_word rfl fun place rest _ => by simp [bytesAt?, listOf?]
  · refine yields_number lexical.number (fun first place rest isDigit _ => ?_)
      fun place rest _ => ?_
    · simp [digit_ne isDigit 0x5B rfl, digit_ne isDigit 0x22 rfl,
        bytesAt?, listOf?]
    · simp [bytesAt?, listOf?]
  · refine yields_text fun place rest given => ?_
    rw [if_pos rfl, seen_byte_literal lexical.text given]
    rfl
  · refine yields_array fun place text rest spaced begins => ?_
    rw [if_neg (by decide), if_pos rfl]
    exact read_list_seen (fun inner _ => byte_is_uniform inner) lexical spaced begins
  · exact yields_object fun place text rest _ _ => by simp [bytesAt?, listOf?]

def optionalOf? (decoder : Decoder α) (depth : Nat) : Doc → Option (Option α)
  | .word .null => some none
  | doc => (meaning (decoder.read depth) doc).map some

theorem null_of_first {doc : Doc} (lexical : doc.Lexical) {token : Bytes} {tokens : List Bytes}
    (split : doc.tokens = (0x6E :: token) :: tokens) : doc = .word .null := by
  rcases doc with word | literal | body | elements | members
  · cases word <;> first | rfl | cases split
  · have literal : literal = 0x6E :: token := (List.cons.inj split).1
    cases reads_numeral lexical.number with
    | unsigned split isDigit =>
        rw [literal] at split
        cases split
        cases isDigit
    | negative split =>
        rw [literal] at split
        cases split
  all_goals cases split

theorem optional_yields {decoder : Decoder α} (uniform : decoder.IsUniform) {doc : Doc}
    (lexical : doc.Lexical) (depth : Nat) :
    Yields ((optional decoder).read depth) doc (optionalOf? decoder depth doc) := by
  intro text rest cursor spaced delimited given
  obtain ⟨byte, token, tokens, split, opening⟩ := lexical.opening
  rw [split] at spaced
  obtain ⟨back, begins, spacedBack, -⟩ := spaced.strip rest opening.notBlank
  simp only [optional]
  by_cases isNull : byte = 0x6E
  · subst isNull
    obtain rfl := null_of_first lexical split
    cases split
    obtain _ | _ := spacedBack
    have keyword := Cursor.seen_keyword cursor.skipBlanks.advance [0x75, 0x6C, 0x6C] rest
      (by simp [given, begins])
    rw [if_pos (by simp [given, begins]), Reading.seen_map, keyword]
    rfl
  · have present : optionalOf? decoder depth doc = (meaning (decoder.read depth) doc).map some := by
      rw [optionalOf?]
      rintro rfl
      cases split
      exact isNull rfl
    have behind : Spaced doc.tokens (byte :: token ++ back) := by
      rw [split]
      exact spacedBack.start
    have place : cursor.skipBlanks.rest = byte :: token ++ back ++ rest := by
      simp [given, begins]
    have read := (uniform depth).yields lexical behind delimited place
    rw [if_neg (by simp [given, begins, isNull]), Reading.seen_map, read, present]
    cases meaning (decoder.read depth) doc <;> rfl

/-! ## Values that are kept -/

theorem read_value_eq (depth : Nat) :
    readValue depth = (atValue · fun byte cursor =>
      if byte = 0x6E then (cursor.advance.keyword [0x75, 0x6C, 0x6C]).map fun _ => .null
      else if byte = 0x74 then
        (cursor.advance.keyword [0x72, 0x75, 0x65]).map fun _ => .boolean true
      else if byte = 0x66 then
        (cursor.advance.keyword [0x61, 0x6C, 0x73, 0x65]).map fun _ => .boolean false
      else if byte = 0x2D then (readNumber true cursor.advance).map .number
      else if Cursor.isDigit byte then (readNumber false cursor).map .number
      else if byte = 0x22 then (readTextLiteral cursor.advance).map .text
      else if byte = 0x5B then
        (Decoder.readList Decoder.kept depth cursor).map .array
      else if byte = 0x7B then
        match depth with
        | 0 => cursor.failAhead (.grammar .nestedTooDeep)
        | depth + 1 =>
          (readMembers
            (fun name members place =>
              (readColon place).andThen fun _ following =>
                (readValue depth following).map fun value => putMember name value members)
            (cursor.rest.length + 1) true [] cursor.advance).map .object
      else cursor.failAhead (.grammar .expectedValue)) := by
  funext before
  rw [readValue.eq_def]
  cases depth <;> rfl

/-- What is kept of a document. Of the members of one name an object keeps the last. -/
def keptAt? : (depth : Nat) → Doc → Option Value
  | _, .word .null => some .null
  | _, .word .true => some (.boolean true)
  | _, .word .false => some (.boolean false)
  | _, .number literal => (numberOf? literal).map .number
  | _, .text body => (textOf? body).map .text
  | depth, .array elements => (listOf? kept depth (.array elements)).map .array
  | 0, .object _ => none
  | depth + 1, .object members =>
    (walkMembers (fun held name doc =>
      (meaning (readValue depth) doc).map fun value => putMember name value held) [] members).map
      .object

theorem read_members_of_bracket {σ : Type} {member : String → σ → Cursor → Reading σ}
    (step : σ → String → Doc → Option σ) {members : List (Bytes × Doc)}
    (acts : ∀ entry ∈ members, ∀ (name : String) (state : σ) (text rest : Bytes)
      (cursor : Cursor), Spaced ([0x3A] :: entry.2.tokens) text → Delimited rest →
      cursor.rest = text ++ rest →
      (member name state cursor).seen = (step state name entry.2).map (·, rest))
    (keys : ∀ entry ∈ members, Body entry.1) (state : σ) {place : Cursor} {text rest : Bytes}
    (spaced : Spaced (joined (Doc.memberTokens members) ++ [[0x7D]]) text)
    (begins : place.rest = 0x7B :: (text ++ rest)) :
    (readMembers member (place.rest.length + 1) true state place.advance).seen =
      (walkMembers step state members).map (·, rest) := by
  have count := member_count_le spaced
  rw [member_tokens_eq, List.length_map] at count
  exact read_members_seen acts keys (by rw [begins]; simp; omega) true state rest
    (by simpa [remaining] using spaced) (by simp [begins])

theorem seen_behind_colon {σ : Type} {reader : Cursor → Reading α} {doc : Doc}
    {outcome : Option α} (yields : Yields reader doc outcome) (change : α → σ)
    {text rest : Bytes} {cursor : Cursor} (spaced : Spaced ([0x3A] :: doc.tokens) text)
    (delimited : Delimited rest) (given : cursor.rest = text ++ rest) :
    ((readColon cursor).andThen fun _ place => (reader place).map change).seen =
      (outcome.map change).map (·, rest) := by
  obtain ⟨back, colon, spacedBack⟩ := read_colon spaced given
  refine Reading.seen_goes_on _ colon fun place ending => ?_
  rw [Reading.seen_map, yields spacedBack delimited ending]
  cases outcome <;> rfl

theorem kept_yields_step (depth : Nat)
    (uniform : ∀ inner, depth = inner + 1 → Uniform (readValue inner)) {doc : Doc}
    (lexical : doc.Lexical) : Yields (readValue depth) doc (keptAt? depth doc) := by
  rw [read_value_eq]
  rcases doc with word | literal | body | elements | members
  · have keyword {place : Cursor} {letter : UInt8} {letters rest : Bytes}
        (given : place.rest = letter :: (letters ++ rest)) :
        (place.advance.keyword letters).seen = some ((), rest) :=
      Cursor.seen_keyword _ letters rest (by simp [given])
    rcases word with _ | _ | _ <;>
      refine yields_word rfl fun place rest given => ?_ <;>
      simp [keyword given, keptAt?]
  · refine yields_number lexical.number (fun first place rest isDigit seen => ?_)
      fun place rest seen => ?_
    · rw [if_neg (digit_ne isDigit _ rfl), if_neg (digit_ne isDigit _ rfl),
        if_neg (digit_ne isDigit _ rfl), if_neg (digit_ne isDigit _ rfl), if_pos isDigit,
        Reading.seen_map, seen, keptAt?]
      cases numberOf? literal <;> rfl
    · rw [if_neg (by decide), if_neg (by decide), if_neg (by decide), if_pos rfl,
        Reading.seen_map, seen, keptAt?]
      cases numberOf? literal <;> rfl
  · refine yields_text fun place rest given => ?_
    rw [if_neg (by decide), if_neg (by decide), if_neg (by decide), if_neg (by decide),
      if_neg (by decide), if_pos rfl, Reading.seen_map, seen_text_literal lexical.text given,
      keptAt?]
    cases textOf? body <;> rfl
  · refine yields_array fun place text rest spaced begins => ?_
    have list : (readList kept depth place).seen =
        (listOf? kept depth (.array elements)).map (·, rest) :=
      read_list_seen uniform lexical spaced begins
    rw [if_neg (by decide), if_neg (by decide), if_neg (by decide), if_neg (by decide),
      if_neg (by decide), if_neg (by decide), if_pos rfl, Reading.seen_map, list, keptAt?]
    cases listOf? kept depth (.array elements) <;> rfl
  · refine yields_object fun place text rest spaced begins => ?_
    rw [if_neg (by decide), if_neg (by decide), if_neg (by decide), if_neg (by decide),
      if_neg (by decide), if_neg (by decide), if_neg (by decide), if_pos rfl]
    cases depth with
    | zero => rfl
    | succ depth =>
        have object := read_members_of_bracket
          (fun held name doc =>
            (meaning (readValue depth) doc).map fun value => putMember name value held)
          (fun entry listed name held text rest cursor spaced delimited given =>
            seen_behind_colon ((uniform depth rfl).yields (lexical.value listed))
              (fun value => putMember name value held) spaced delimited given)
          (fun entry => lexical.key) [] spaced begins
        rw [Reading.seen_map, object, keptAt?, Option.map_map, Option.map_map]
        rfl

theorem kept_is_uniform : kept.IsUniform := by
  intro depth
  induction depth with
  | zero =>
      exact fun doc lexical =>
        ⟨_, kept_yields_step 0 (fun inner impossible => by cases impossible) lexical⟩
  | succ depth induction =>
      exact fun doc lexical =>
        ⟨_, kept_yields_step (depth + 1) (fun inner same => by cases same; exact induction) lexical⟩

theorem kept_yields {doc : Doc} (lexical : doc.Lexical) (depth : Nat) :
    Yields (readValue depth) doc (keptAt? depth doc) :=
  kept_yields_step depth (fun inner _ => kept_is_uniform inner) lexical

end Decoder

/-! ## Decoders -/

namespace Decoder

theorem boolean_is_uniform : boolean.IsUniform :=
  fun depth _ lexical => ⟨_, boolean_yields lexical depth⟩

theorem text_is_uniform (expected : String) : (text expected).IsUniform :=
  fun depth _ lexical => ⟨_, text_yields lexical depth⟩

theorem integer_is_uniform (least greatest : Int) (expected : String) :
    (integer least greatest expected).IsUniform :=
  fun depth _ lexical => ⟨_, integer_yields lexical depth⟩

theorem map_is_uniform (change : α → β) {decoder : Decoder α} (uniform : decoder.IsUniform) :
    (decoder.map change).IsUniform :=
  fun depth _ lexical => ⟨_, map_yields ((uniform depth).yields lexical)⟩

theorem list_is_uniform {item : Decoder α} (uniform : item.IsUniform) : (list item).IsUniform :=
  fun depth _ lexical => ⟨_, list_yields uniform lexical depth⟩

theorem bytes_is_uniform : bytes.IsUniform :=
  fun depth _ lexical => ⟨_, bytes_yields lexical depth⟩

theorem optional_is_uniform {decoder : Decoder α} (uniform : decoder.IsUniform) :
    (optional decoder).IsUniform :=
  fun depth _ lexical => ⟨_, optional_yields uniform lexical depth⟩

end Decoder

/-! ## Records -/

namespace Record

variable (record : Record ρ)

def memberAt? (depth : Nat) (draft : Draft ρ) (name : String) (doc : Doc) : Option (Draft ρ) :=
  match record.useOf draft name with
  | .refuse _ => none
  | .passOver => if doc.noControls then some draft else none
  | .store field =>
    (meaning (field.store.read depth) doc).map fun change => draft.put name change

def objectAt? (depth : Nat) (members : List (Bytes × Doc)) : Option ρ :=
  (walkMembers (record.memberAt? depth) record.start members).bind
    fun draft => (record.complete draft).toOption

variable {record}

theorem defaulted_reads (name : String) (decoder : Decoder α) (set : α → ρ → ρ) (depth : Nat)
    (doc : Doc) :
    meaning ((defaulted name decoder set).store.read depth) doc =
      (meaning (decoder.read depth) doc).map set :=
  Decoder.map_reads set decoder depth doc

theorem stored_field_known {draft : Draft ρ} {name : String} {field : Field ρ}
    (stored : record.useOf draft name = .store field) : record.field? name = some field := by
  rw [useOf] at stored
  split at stored
  · rename_i found
    split at stored
    · cases stored
    · cases stored
      exact found
  · split at stored <;> cases stored

theorem read_member_seen {depth : Nat}
    (uniform : ∀ field ∈ record.fields, Uniform (field.store.read depth)) {doc : Doc}
    (lexical : doc.Lexical) (name : String) (draft : Draft ρ) {text rest : Bytes} {cursor : Cursor}
    (spaced : Spaced ([0x3A] :: doc.tokens) text) (delimited : Delimited rest)
    (given : cursor.rest = text ++ rest) :
    (record.readMember depth name draft cursor).seen =
      (record.memberAt? depth draft name doc).map (·, rest) := by
  rw [readMember, memberAt?]
  rcases usage : record.useOf draft name with reason | _ | field
  · rfl
  · dsimp only
    rw [Decoder.seen_behind_colon (skip_yields lexical) (fun _ => draft) spaced delimited given]
    cases doc.noControls <;> rfl
  · have listed : field ∈ record.fields :=
      List.mem_of_find?_eq_some (stored_field_known usage)
    exact Decoder.seen_behind_colon ((uniform field listed).yields lexical)
      (fun change => draft.put name change) spaced delimited given

theorem object_yields (depth : Nat)
    (uniform : ∀ field ∈ record.fields, Uniform (field.store.read depth))
    {members : List (Bytes × Doc)} (lexical : (Doc.object members).Lexical) :
    Yields (record.read (depth + 1)) (.object members) (record.objectAt? depth members) := by
  unfold Record.read
  refine yields_object fun place text rest spaced begins => ?_
  have walked := Decoder.read_members_of_bracket (record.memberAt? depth)
    (fun entry listed name draft text rest cursor spaced delimited given =>
      read_member_seen uniform (lexical.value listed) name draft spaced delimited given)
    (fun entry => lexical.key) record.start spaced begins
  rw [if_neg (by decide), if_pos rfl]
  refine Reading.seen_judged _ walked fun draft cursor => ?_
  cases record.complete draft <;> rfl

def arrayAt? (record : Record ρ) (depth : Nat) (elements : List Doc) : Option ρ :=
  fill? (fun field => meaning (field.store.read depth)) record.fields elements record.blank

theorem array_yields (depth : Nat)
    (uniform : ∀ field ∈ record.fields, Uniform (field.store.read depth)) {elements : List Doc}
    (lexical : (Doc.array elements).Lexical) :
    Yields (record.read (depth + 1)) (.array elements) (record.arrayAt? depth elements) := by
  unfold Record.read
  refine yields_array fun place text rest spaced begins => ?_
  rw [if_pos rfl]
  exact read_fields_seen uniform (fun doc => lexical.element) true
    (by simpa [remaining] using spaced) (by simp [begins])

theorem objects_alike {depth : Nat}
    (uniform : ∀ field ∈ record.fields, Uniform (field.store.read depth))
    {members others : List (Bytes × Doc)} (lexical : (Doc.object members).Lexical)
    (otherLexical : (Doc.object others).Lexical)
    (equal : record.objectAt? depth members = record.objectAt? depth others) :
    meaning (record.decoder.read (depth + 1)) (.object members) =
      meaning (record.decoder.read (depth + 1)) (.object others) :=
  (object_yields depth uniform lexical).meaning_eq.trans
    (equal.trans (object_yields depth uniform otherLexical).meaning_eq.symm)

theorem arrays_alike {depth : Nat}
    (uniform : ∀ field ∈ record.fields, Uniform (field.store.read depth))
    {elements others : List Doc} (lexical : (Doc.array elements).Lexical)
    (otherLexical : (Doc.array others).Lexical)
    (equal : record.arrayAt? depth elements = record.arrayAt? depth others) :
    meaning (record.decoder.read (depth + 1)) (.array elements) =
      meaning (record.decoder.read (depth + 1)) (.array others) :=
  (array_yields depth uniform lexical).meaning_eq.trans
    (equal.trans (array_yields depth uniform otherLexical).meaning_eq.symm)

def recordOf? (record : Record ρ) : (depth : Nat) → Doc → Option ρ
  | depth + 1, .array elements => record.arrayAt? depth elements
  | depth + 1, .object members => record.objectAt? depth members
  | _, _ => none

theorem record_yields (uniform : ∀ field ∈ record.fields, field.store.IsUniform) {doc : Doc}
    (lexical : doc.Lexical) (depth : Nat) :
    Yields (record.decoder.read depth) doc (record.recordOf? depth doc) := by
  simp only [decoder]
  rcases doc with word | literal | body | elements | members
  · unfold Record.read
    rcases word with _ | _ | _ <;> exact yields_word rfl fun place rest _ => by simp [recordOf?]
  · unfold Record.read
    refine yields_number lexical.number (fun first place rest isDigit _ => ?_)
      fun place rest _ => ?_
    · simp [digit_ne isDigit 0x5B rfl, digit_ne isDigit 0x7B rfl, recordOf?]
    · simp [recordOf?]
  · unfold Record.read
    exact yields_text fun place rest _ => by simp [recordOf?]
  · cases depth with
    | zero =>
        unfold Record.read
        exact yields_array fun place text rest _ _ => rfl
    | succ depth => exact array_yields _ (fun field member => uniform field member depth) lexical
  · cases depth with
    | zero =>
        unfold Record.read
        exact yields_object fun place text rest _ _ => rfl
    | succ depth => exact object_yields _ (fun field member => uniform field member depth) lexical

theorem record_is_uniform (uniform : ∀ field ∈ record.fields, field.store.IsUniform) :
    record.decoder.IsUniform :=
  fun depth _ lexical => ⟨_, record_yields uniform lexical depth⟩

end Record

end LocalNet.Json
