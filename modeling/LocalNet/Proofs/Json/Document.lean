import LocalNet.Json.StringLiteral

/-!
# The grammar of a JSON text

A document is the syntax tree of a text. It determines the tokens and their order; any blanks may
stand around a token. A string and a number keep the spelling that they have in the text.
-/

namespace LocalNet.Json

inductive Word where
  | null
  | true
  | false
  deriving DecidableEq, Repr

def Word.letters : Word → Bytes
  | .null => [0x6E, 0x75, 0x6C, 0x6C]
  | .true => [0x74, 0x72, 0x75, 0x65]
  | .false => [0x66, 0x61, 0x6C, 0x73, 0x65]

inductive Doc where
  | word (word : Word)
  | number (literal : Bytes)
  | text (body : Bytes)
  | array (elements : List Doc)
  | object (members : List (Bytes × Doc))
  deriving Inhabited

/-- Induction over a document, with one hypothesis for all elements and one for all members. -/
theorem Doc.induct {motive : Doc → Prop} (word : ∀ word, motive (.word word))
    (number : ∀ literal, motive (.number literal)) (text : ∀ body, motive (.text body))
    (array : ∀ elements, (∀ element ∈ elements, motive element) → motive (.array elements))
    (object : ∀ members, (∀ member ∈ members, motive member.2) → motive (.object members)) :
    ∀ doc, motive doc
  | .word given => word given
  | .number literal => number literal
  | .text body => text body
  | .array elements =>
      array elements fun element _ => Doc.induct word number text array object element
  | .object members =>
      object members fun member _ => Doc.induct word number text array object member.2
termination_by doc => sizeOf doc
decreasing_by
  · rename_i inside
    have smaller := List.sizeOf_lt_of_mem inside
    simp only [Doc.array.sizeOf_spec]
    omega
  · rename_i inside
    have smaller := List.sizeOf_lt_of_mem inside
    obtain ⟨key, value⟩ := member
    simp only [Doc.object.sizeOf_spec, Prod.mk.sizeOf_spec] at smaller ⊢
    omega

/-! ## Literals -/

/-- What may stand between the quotes of a string. Bare control characters are let through here:
some readers keep them. -/
inductive Body : Bytes → Prop where
  | nil : Body []
  | plain {byte : UInt8} {rest : Bytes} (noQuote : byte ≠ 0x22) (noBackslash : byte ≠ 0x5C)
      (following : Body rest) : Body (byte :: rest)
  | simple {byte meant : UInt8} {rest : Bytes} (known : simpleEscape? byte = some meant)
      (following : Body rest) : Body (0x5C :: byte :: rest)
  | unit {first second third fourth : UInt8} {rest : Bytes}
      (digits : ∀ digit ∈ [first, second, third, fourth], (hexValue? digit).isSome)
      (following : Body rest) :
      Body (0x5C :: 0x75 :: first :: second :: third :: fourth :: rest)

theorem Body.of_plain {bytes : Bytes} (plain : ∀ byte ∈ bytes, byte ≠ 0x22 ∧ byte ≠ 0x5C) :
    Body bytes := by
  induction bytes with
  | nil => exact .nil
  | cons byte bytes induction =>
      rw [List.forall_mem_cons] at plain
      exact .plain plain.1.1 plain.1.2 (induction plain.2)

def quoted (body : Bytes) : Bytes :=
  0x22 :: (body ++ [0x22])

def Digits (bytes : Bytes) : Prop :=
  bytes ≠ [] ∧ ∀ byte ∈ bytes, Cursor.isDigit byte

inductive Places : Bytes → Prop where
  | none : Places []
  | point {digits : Bytes} (places : Digits digits) : Places (0x2E :: digits)

inductive Exponent : Bytes → Prop where
  | none : Exponent []
  | letter {letter : UInt8} {sign digits : Bytes} (isLetter : letter = 0x65 ∨ letter = 0x45)
      (isSign : sign = [] ∨ sign = [0x2B] ∨ sign = [0x2D]) (isValue : Digits digits) :
      Exponent (letter :: (sign ++ digits))

/-- A number without its sign. A leading zero stands alone. -/
structure Magnitude (whole places exponent : Bytes) : Prop where
  isWhole : Digits whole
  noLeadingZero : whole.head? = some 0x30 → whole = [0x30]
  isPlaces : Places places
  isExponent : Exponent exponent

inductive Numeral : Bytes → Prop where
  | unsigned {whole places exponent : Bytes} (magnitude : Magnitude whole places exponent) :
      Numeral (whole ++ (places ++ exponent))
  | negative {whole places exponent : Bytes} (magnitude : Magnitude whole places exponent) :
      Numeral (0x2D :: (whole ++ (places ++ exponent)))

theorem Digits.first {digits : Bytes} (isDigits : Digits digits) :
    ∃ first more, digits = first :: more ∧ Cursor.isDigit first = true := by
  obtain ⟨some, all⟩ := isDigits
  obtain ⟨first, more, rfl⟩ := List.exists_cons_of_ne_nil some
  exact ⟨first, more, rfl, all first (by simp)⟩

theorem digit_ne {byte : UInt8} (isDigit : Cursor.isDigit byte = true) (other : UInt8)
    (noDigit : Cursor.isDigit other = false) : byte ≠ other := by
  rintro rfl
  rw [isDigit] at noDigit
  cases noDigit

structure Opening (byte : UInt8) : Prop where
  notBlank : Cursor.isBlank byte = false
  notSquare : byte ≠ 0x5D

theorem Opening.digit {byte : UInt8} (isDigit : Cursor.isDigit byte = true) : Opening byte := by
  have other := digit_ne isDigit
  refine ⟨?_, other 0x5D rfl⟩
  simp [Cursor.isBlank, other 0x20 rfl, other 0x0A rfl, other 0x09 rfl, other 0x0D rfl]

theorem Numeral.opening {literal : Bytes} (numeral : Numeral literal) :
    ∃ byte rest, literal = byte :: rest ∧ Opening byte := by
  cases numeral with
  | unsigned magnitude =>
      obtain ⟨first, more, rfl, isDigit⟩ := magnitude.isWhole.first
      exact ⟨first, _, rfl, .digit isDigit⟩
  | negative => exact ⟨0x2D, _, rfl, by decide, by decide⟩

/-! ## Tokens -/

def separated (groups : List (List Bytes)) : List Bytes :=
  groups.flatMap ([0x2C] :: ·)

theorem separated_cons (group : List Bytes) (groups : List (List Bytes)) :
    separated (group :: groups) = [0x2C] :: (group ++ separated groups) :=
  rfl

def joined : (groups : List (List Bytes)) → List Bytes
  | [] => []
  | group :: groups => group ++ separated groups

/-- The tokens of a bracket from some place on: the first group has no separator before it. -/
def remaining (first : Bool) (groups : List (List Bytes)) : List Bytes :=
  if first then joined groups else separated groups

mutual

def Doc.tokens : Doc → List Bytes
  | .word spelled => [spelled.letters]
  | .number literal => [literal]
  | .text body => [quoted body]
  | .array elements => [0x5B] :: (joined (Doc.elementTokens elements) ++ [[0x5D]])
  | .object members => [0x7B] :: (joined (Doc.memberTokens members) ++ [[0x7D]])

def Doc.elementTokens : List Doc → List (List Bytes)
  | [] => []
  | element :: rest => element.tokens :: Doc.elementTokens rest

def Doc.memberTokens : List (Bytes × Doc) → List (List Bytes)
  | [] => []
  | (key, value) :: rest => (quoted key :: [0x3A] :: value.tokens) :: Doc.memberTokens rest

end

mutual

/-- Every string of a document, the names of members included. -/
def Doc.bodies : Doc → List Bytes
  | .word _ | .number _ => []
  | .text body => [body]
  | .array elements => Doc.elementBodies elements
  | .object members => Doc.memberBodies members

def Doc.elementBodies : List Doc → List Bytes
  | [] => []
  | element :: rest => element.bodies ++ Doc.elementBodies rest

def Doc.memberBodies : List (Bytes × Doc) → List Bytes
  | [] => []
  | (key, value) :: rest => key :: (value.bodies ++ Doc.memberBodies rest)

end

mutual

def Doc.numerals : Doc → List Bytes
  | .word _ | .text _ => []
  | .number literal => [literal]
  | .array elements => Doc.elementNumerals elements
  | .object members => Doc.memberNumerals members

def Doc.elementNumerals : List Doc → List Bytes
  | [] => []
  | element :: rest => element.numerals ++ Doc.elementNumerals rest

def Doc.memberNumerals : List (Bytes × Doc) → List Bytes
  | [] => []
  | (_, value) :: rest => value.numerals ++ Doc.memberNumerals rest

end

theorem element_tokens_eq (elements : List Doc) :
    Doc.elementTokens elements = elements.map Doc.tokens := by
  induction elements with
  | nil => rfl
  | cons element rest induction => rw [Doc.elementTokens, induction, List.map_cons]

theorem member_tokens_eq (members : List (Bytes × Doc)) :
    Doc.memberTokens members =
      members.map fun member => quoted member.1 :: [0x3A] :: member.2.tokens := by
  induction members with
  | nil => rfl
  | cons member rest induction => rw [Doc.memberTokens, induction, List.map_cons]

theorem mem_element_bodies {body : Bytes} {elements : List Doc} :
    body ∈ Doc.elementBodies elements ↔ ∃ element ∈ elements, body ∈ element.bodies := by
  induction elements with
  | nil => simp [Doc.elementBodies]
  | cons element rest induction => simp [Doc.elementBodies, induction]

theorem mem_member_bodies {body : Bytes} {members : List (Bytes × Doc)} :
    body ∈ Doc.memberBodies members ↔
      ∃ member ∈ members, body = member.1 ∨ body ∈ member.2.bodies := by
  induction members with
  | nil => simp [Doc.memberBodies]
  | cons member rest induction => simp [Doc.memberBodies, induction, or_assoc]

theorem mem_element_numerals {literal : Bytes} {elements : List Doc} :
    literal ∈ Doc.elementNumerals elements ↔
      ∃ element ∈ elements, literal ∈ element.numerals := by
  induction elements with
  | nil => simp [Doc.elementNumerals]
  | cons element rest induction => simp [Doc.elementNumerals, induction]

theorem mem_member_numerals {literal : Bytes} {members : List (Bytes × Doc)} :
    literal ∈ Doc.memberNumerals members ↔
      ∃ member ∈ members, literal ∈ member.2.numerals := by
  induction members with
  | nil => simp [Doc.memberNumerals]
  | cons member rest induction => simp [Doc.memberNumerals, induction]

/-! ## Documents that keep to the grammar -/

/-- Literals keep to the grammar, but for control characters that a string may hold. -/
structure Doc.Lexical (doc : Doc) : Prop where
  bodies : ∀ body ∈ doc.bodies, Body body
  numerals : ∀ literal ∈ doc.numerals, Numeral literal

def Doc.noControls (doc : Doc) : Bool :=
  doc.bodies.all fun body => body.all fun byte => 0x20 ≤ byte

/-- Well-formed JSON, nested to any depth. -/
structure Doc.WellFormed (doc : Doc) : Prop extends doc.Lexical where
  noControls : doc.noControls = true

namespace Doc

theorem Lexical.text {body : Bytes} (lexical : (Doc.text body).Lexical) : Body body :=
  lexical.bodies body (by simp [Doc.bodies])

theorem Lexical.number {literal : Bytes} (lexical : (Doc.number literal).Lexical) :
    Numeral literal :=
  lexical.numerals literal (by simp [Doc.numerals])

/-- The first token of a document tells it from a separator and from the end of a list. -/
theorem Lexical.opening {doc : Doc} (lexical : doc.Lexical) :
    ∃ byte token tokens, doc.tokens = (byte :: token) :: tokens ∧ Opening byte := by
  cases doc with
  | word spelled =>
      cases spelled <;> exact ⟨_, _, _, rfl, by decide, by decide⟩
  | number literal =>
      obtain ⟨byte, rest, rfl, opening⟩ := lexical.number.opening
      exact ⟨byte, rest, [], rfl, opening⟩
  | text body => exact ⟨_, _, _, rfl, by decide, by decide⟩
  | array elements => exact ⟨_, _, _, rfl, by decide, by decide⟩
  | object members => exact ⟨_, _, _, rfl, by decide, by decide⟩

theorem Lexical.element {elements : List Doc} {element : Doc}
    (lexical : (Doc.array elements).Lexical) (member : element ∈ elements) : element.Lexical where
  bodies body inside := lexical.bodies body (mem_element_bodies.mpr ⟨element, member, inside⟩)
  numerals literal inside :=
    lexical.numerals literal (mem_element_numerals.mpr ⟨element, member, inside⟩)

theorem Lexical.value {members : List (Bytes × Doc)} {member : Bytes × Doc}
    (lexical : (Doc.object members).Lexical) (listed : member ∈ members) :
    member.2.Lexical where
  bodies body inside :=
    lexical.bodies body (mem_member_bodies.mpr ⟨member, listed, Or.inr inside⟩)
  numerals literal inside :=
    lexical.numerals literal (mem_member_numerals.mpr ⟨member, listed, inside⟩)

theorem Lexical.key {members : List (Bytes × Doc)} {member : Bytes × Doc}
    (lexical : (Doc.object members).Lexical) (listed : member ∈ members) : Body member.1 :=
  lexical.bodies member.1 (mem_member_bodies.mpr ⟨member, listed, Or.inl rfl⟩)

theorem lexical_array_iff {elements : List Doc} :
    (Doc.array elements).Lexical ↔ ∀ element ∈ elements, element.Lexical := by
  refine ⟨fun lexical element member => lexical.element member, fun each => ⟨?_, ?_⟩⟩
  · intro body inside
    obtain ⟨element, member, held⟩ := mem_element_bodies.mp inside
    exact (each element member).bodies body held
  · intro literal inside
    obtain ⟨element, member, held⟩ := mem_element_numerals.mp inside
    exact (each element member).numerals literal held

theorem lexical_object_iff {members : List (Bytes × Doc)} :
    (Doc.object members).Lexical ↔
      ∀ member ∈ members, Body member.1 ∧ member.2.Lexical := by
  refine ⟨fun lexical member listed => ⟨lexical.key listed, lexical.value listed⟩,
    fun each => ⟨?_, ?_⟩⟩
  · intro body inside
    obtain ⟨member, listed, rfl | held⟩ := mem_member_bodies.mp inside
    · exact (each member listed).1
    · exact (each member listed).2.bodies body held
  · intro literal inside
    obtain ⟨member, listed, held⟩ := mem_member_numerals.mp inside
    exact (each member listed).2.numerals literal held

theorem Lexical.replace_element {before after : List Doc} {one two : Doc}
    (lexical : (Doc.array (before ++ one :: after)).Lexical) (other : two.Lexical) :
    (Doc.array (before ++ two :: after)).Lexical := by
  rw [lexical_array_iff, List.forall_mem_append, List.forall_mem_cons] at lexical ⊢
  exact ⟨lexical.1, other, lexical.2.2⟩

theorem Lexical.replace_value {before after : List (Bytes × Doc)} {key : Bytes} {one two : Doc}
    (lexical : (Doc.object (before ++ (key, one) :: after)).Lexical) (other : two.Lexical) :
    (Doc.object (before ++ (key, two) :: after)).Lexical := by
  rw [lexical_object_iff, List.forall_mem_append, List.forall_mem_cons] at lexical ⊢
  exact ⟨lexical.1, ⟨lexical.2.1.1, other⟩, lexical.2.2⟩

theorem no_controls_array {elements : List Doc} :
    (Doc.array elements).noControls = elements.all noControls := by
  rw [Bool.eq_iff_iff]
  simp only [noControls, List.all_eq_true, Doc.bodies, mem_element_bodies]
  exact ⟨fun all element member body inside => all body ⟨element, member, inside⟩,
    fun all body ⟨element, member, inside⟩ => all element member body inside⟩

theorem no_controls_object {members : List (Bytes × Doc)} :
    (Doc.object members).noControls =
      members.all fun member => (member.1.all fun byte => 0x20 ≤ byte) && member.2.noControls := by
  rw [Bool.eq_iff_iff]
  simp only [noControls, List.all_eq_true, Doc.bodies, mem_member_bodies, Bool.and_eq_true]
  constructor
  · exact fun all member listed => ⟨all _ ⟨member, listed, Or.inl rfl⟩,
      fun body inside => all body ⟨member, listed, Or.inr inside⟩⟩
  · rintro all body ⟨member, listed, rfl | inside⟩
    · exact (all member listed).1
    · exact (all member listed).2 body inside

theorem well_formed_array_iff {elements : List Doc} :
    (Doc.array elements).WellFormed ↔ ∀ element ∈ elements, element.WellFormed := by
  constructor
  · intro formed element member
    have clean := formed.noControls
    rw [no_controls_array, List.all_eq_true] at clean
    exact ⟨formed.toLexical.element member, clean element member⟩
  · intro each
    refine ⟨lexical_array_iff.mpr fun element member => (each element member).toLexical, ?_⟩
    rw [no_controls_array, List.all_eq_true]
    exact fun element member => (each element member).noControls

theorem well_formed_text_iff {body : Bytes} :
    (Doc.text body).WellFormed ↔ Body body ∧ body.all (0x20 ≤ ·) = true := by
  constructor
  · intro formed
    exact ⟨formed.toLexical.text, by simpa [noControls, Doc.bodies] using formed.noControls⟩
  · rintro ⟨spelled, clean⟩
    refine ⟨⟨?_, ?_⟩, ?_⟩
    · simpa [Doc.bodies] using spelled
    · simp [Doc.numerals]
    · simpa [noControls, Doc.bodies] using clean

theorem well_formed_object_iff {members : List (Bytes × Doc)} :
    (Doc.object members).WellFormed ↔
      ∀ member ∈ members, (Doc.text member.1).WellFormed ∧ member.2.WellFormed := by
  constructor
  · intro formed member listed
    have clean := formed.noControls
    rw [no_controls_object, List.all_eq_true] at clean
    obtain ⟨key, value⟩ := Bool.and_eq_true_iff.mp (clean member listed)
    exact ⟨well_formed_text_iff.mpr ⟨formed.toLexical.key listed, key⟩,
      formed.toLexical.value listed, value⟩
  · intro each
    refine ⟨lexical_object_iff.mpr fun member listed => ?_, ?_⟩
    · exact ⟨(each member listed).1.toLexical.text, (each member listed).2.toLexical⟩
    · rw [no_controls_object, List.all_eq_true]
      intro member listed
      exact Bool.and_eq_true_iff.mpr
        ⟨(well_formed_text_iff.mp (each member listed).1).2, (each member listed).2.noControls⟩

end Doc

end LocalNet.Json
