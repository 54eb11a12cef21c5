import LocalNet.Proofs.Json.Escaping
import LocalNet.Proofs.Json.Showing
import LocalNet.Proofs.Text.Numeral

/-!
# The text that a value is printed as

A value without doubles is printed as the text of one document, which shows the value.
-/

namespace LocalNet.Json

/-! ## Integers -/

def decimalFrom (value : Nat) (digits : Bytes) : Nat :=
  digits.foldl (fun total digit => total * 10 + Cursor.digitValue digit) value

theorem decimal_from_ge (value : Nat) (digits : Bytes) : value ≤ decimalFrom value digits := by
  induction digits generalizing value with
  | nil => exact Nat.le_refl _
  | cons digit digits induction =>
      have later := induction (value * 10 + Cursor.digitValue digit)
      simp only [decimalFrom, List.foldl_cons] at later ⊢
      omega

theorem absorb_all {digits : Bytes} (all : ∀ digit ∈ digits, Cursor.isDigit digit)
    (value count : Nat) (below : decimalFrom value digits < Nat.pow 2 64) :
    absorbDigits value count digits = (decimalFrom value digits, count + digits.length) := by
  induction digits generalizing value count with
  | nil => rfl
  | cons digit digits induction =>
      have next : value * 10 + Cursor.digitValue digit < Nat.pow 2 64 :=
        Nat.lt_of_le_of_lt (decimal_from_ge _ digits) below
      rw [absorbDigits, if_pos (by simp [all digit (by simp), next]),
        induction (fun other member => all other (by simp [member])) _ _ below]
      simp only [decimalFrom, List.foldl_cons, List.length_cons, Prod.mk.injEq, true_and]
      omega

theorem whole_literal_read {digits : Bytes} (isWhole : Digits digits)
    (noLeadingZero : digits.head? = some 0x30 → digits = [0x30]) (negative : Bool)
    (below : decimalFrom 0 digits < Nat.pow 2 64) :
    (readNumber negative (Cursor.start digits)).seen =
      some (wholeNumber negative (decimalFrom 0 digits), []) := by
  obtain ⟨first, more, split, isDigit⟩ := isWhole.first
  have begins : (Cursor.start digits).peek = some first := by simp [split]
  have ends : NoDigit [] := fun _ none => by cases none
  have plain := zero_stands_alone isWhole noLeadingZero ends (Cursor.start digits) (by simp)
  rw [begins] at plain
  simp only [Option.some.injEq] at plain
  have finished : ((Cursor.start digits).advanceBy digits.length).rest = [] := by simp
  have nothing : ((Cursor.start digits).advanceBy digits.length).digitCount = 0 := by
    rw [Cursor.digitCount, finished]
    rfl
  have ended : atExponent ((Cursor.start digits).advanceBy digits.length) = false := by
    simp [atExponent]
  unfold readNumber
  simp only [begins, Cursor.rest_start, isDigit, plain, absorb_all isWhole.2 0 0 below,
    Nat.zero_add, nothing, ended, Bool.not_true, Bool.not_false, Bool.false_eq_true, ↓reduceIte,
    Cursor.peek_eq, finished]
  simp

/-! ## Digits of a number -/

def digitsOf (value : Nat) : Bytes :=
  (Nat.toDigits 10 value).flatMap String.utf8EncodeChar

theorem encoded_digit {character : Char} (isDigit : character.isDigit = true) :
    String.utf8EncodeChar character = [UInt8.ofNat character.toNat] ∧
      0x30 ≤ character.toNat ∧ character.toNat ≤ 0x39 := by
  simp only [Char.isDigit, Bool.and_eq_true, decide_eq_true_eq] at isDigit
  have low : 0x30 ≤ character.toNat := isDigit.1
  have high : character.toNat ≤ 0x39 := isDigit.2
  exact ⟨ascii_encoding (by omega), low, high⟩

theorem digits_of_digits {characters : List Char}
    (all : ∀ character ∈ characters, character.isDigit = true) (value : Nat) :
    (∀ digit ∈ characters.flatMap String.utf8EncodeChar, Cursor.isDigit digit) ∧
      decimalFrom value (characters.flatMap String.utf8EncodeChar) =
        Nat.ofDigitChars 10 characters value := by
  induction characters generalizing value with
  | nil => exact ⟨(fun _ none => nomatch none), rfl⟩
  | cons character characters induction =>
      obtain ⟨encoded, low, high⟩ := encoded_digit (all character (by simp))
      obtain ⟨digits, number⟩ := induction (fun other member => all other (by simp [member]))
        (value * 10 + (character.toNat - 0x30))
      have size : (UInt8.ofNat character.toNat).toNat = character.toNat := by
        rw [UInt8.toNat_ofNat', Nat.mod_eq_of_lt (by omega)]
      rw [List.flatMap_cons, encoded, List.singleton_append]
      refine ⟨List.forall_mem_cons.mpr ⟨?_, digits⟩, ?_⟩
      · simp only [Cursor.isDigit, Bool.and_eq_true, decide_eq_true_eq, UInt8.le_iff_toNat_le, size]
        exact ⟨low, high⟩
      · rw [Nat.ofDigitChars_cons, Nat.mul_comm]
        simp only [decimalFrom, List.foldl_cons, Cursor.digitValue, size] at number ⊢
        exact number

theorem digits_of_are_digits (value : Nat) : Digits (digitsOf value) := by
  refine ⟨?_, (digits_of_digits (Text.numeral_of_nat value).plain 0).1⟩
  intro none
  rw [digitsOf, List.flatMap_eq_nil_iff] at none
  obtain ⟨first, more, split⟩ :=
    List.exists_cons_of_ne_nil (Nat.toDigits_ne_nil (n := value) (b := 10))
  exact String.utf8EncodeChar_ne_nil (none first (by simp [split]))

theorem digits_of_value (value : Nat) : decimalFrom 0 (digitsOf value) = value := by
  rw [digitsOf, (digits_of_digits (Text.numeral_of_nat value).plain 0).2]
  exact (Text.numeral_of_nat value).amount

theorem digits_of_no_leading_zero (value : Nat) (zero : (digitsOf value).head? = some 0x30) :
    digitsOf value = [0x30] := by
  have written := Text.numeral_of_nat value
  obtain ⟨first, more, split⟩ :=
    List.exists_cons_of_ne_nil (Nat.toDigits_ne_nil (n := value) (b := 10))
  obtain ⟨encoded, low, high⟩ := encoded_digit (written.plain first (by simp [split]))
  rw [digitsOf, split, List.flatMap_cons, encoded] at zero
  have byte : UInt8.ofNat first.toNat = 0x30 := by simpa using zero
  have size := congrArg UInt8.toNat byte
  rw [UInt8.toNat_ofNat', Nat.mod_eq_of_lt (by omega)] at size
  obtain rfl : first = '0' := Char.toNat_inj.mp size
  rw [digitsOf, written.front (by rw [split]; rfl)]
  rfl

def integerLiteral : Int → Bytes
  | .ofNat value => digitsOf value
  | .negSucc value => 0x2D :: digitsOf (value + 1)

theorem written_integer (value : Int) :
    (Number.integer value).written.flatMap String.utf8EncodeChar = integerLiteral value := by
  have shown (value : Nat) : (Nat.repr value).toList = Nat.toDigits 10 value := by
    rw [Nat.repr_eq_ofList_toDigits, String.toList_ofList]
  cases value with
  | ofNat value =>
      have text : (Number.integer (Int.ofNat value)).written = (Nat.repr value).toList := rfl
      rw [text, shown, integerLiteral, digitsOf]
  | negSucc value =>
      have text : (Number.integer (Int.negSucc value)).written =
          ("-" ++ Nat.repr (value + 1)).toList := rfl
      rw [text, String.toList_append, shown, integerLiteral, digitsOf, List.flatMap_append]
      rfl

theorem integer_literal_numeral (value : Int) : Numeral (integerLiteral value) := by
  have magnitude (value : Nat) : Magnitude (digitsOf value) [] [] :=
    ⟨digits_of_are_digits value, digits_of_no_leading_zero value, .none, .none⟩
  cases value with
  | ofNat value =>
      have unsigned := Numeral.unsigned (magnitude value)
      rw [List.append_nil, List.append_nil] at unsigned
      exact unsigned
  | negSucc value =>
      have negative := Numeral.negative (magnitude (value + 1))
      rw [List.append_nil, List.append_nil] at negative
      exact negative

theorem digits_of_read (negative : Bool) (value : Nat) (below : value < Nat.pow 2 64) :
    (readNumber negative (Cursor.start (digitsOf value))).seen =
      some (wholeNumber negative value, []) := by
  have read := whole_literal_read (digits_of_are_digits value) (digits_of_no_leading_zero value)
    negative (by rw [digits_of_value]; exact below)
  rwa [digits_of_value] at read

theorem integer_literal_read {value : Int} (fits : (Number.integer value).Fits) :
    numberOf? (integerLiteral value) = some (.integer value) := by
  obtain ⟨least, below⟩ := fits
  have half : Nat.pow 2 63 = 9223372036854775808 := rfl
  have whole : Nat.pow 2 64 = 18446744073709551616 := rfl
  rw [half] at least
  rw [whole] at below
  cases value with
  | ofNat value =>
      have below : value < Nat.pow 2 64 := by
        rw [whole]
        exact Int.ofNat_lt.mp below
      have read := digits_of_read false value below
      obtain ⟨first, more, split, isDigit⟩ := (digits_of_are_digits value).first
      rw [integerLiteral, numberOf?, read]
      · rfl
      · intro magnitude same
        rw [split] at same
        exact digit_ne isDigit 0x2D rfl (List.cons.inj same).1
  | negSucc value =>
      have read := digits_of_read true (value + 1) (by omega)
      have small : ¬ 9223372036854775808 < value + 1 := by omega
      have inside : (decide (value + 1 = 0) || decide (Nat.pow 2 63 < value + 1)) = false := by
        rw [half]
        simp [small]
      rw [integerLiteral, numberOf?, read, wholeNumber, if_pos rfl, inside]
      rfl

/-! ## Documents -/

mutual

def Doc.ofValue : Value → Doc
  | .null => .word .null
  | .boolean true => .word .true
  | .boolean false => .word .false
  | .number held => .number (held.written.flatMap String.utf8EncodeChar)
  | .text held => .text (escapedBody held)
  | .array elements => .array (Doc.ofElements elements)
  | .object members => .object (Doc.ofMembers members)

def Doc.ofElements : List Value → List Doc
  | [] => []
  | element :: rest => Doc.ofValue element :: Doc.ofElements rest

def Doc.ofMembers : List (String × Value) → List (Bytes × Doc)
  | [] => []
  | (name, value) :: rest => (escapedBody name, Doc.ofValue value) :: Doc.ofMembers rest

end

theorem of_elements_eq (elements : List Value) :
    Doc.ofElements elements = elements.map Doc.ofValue := by
  induction elements with
  | nil => rfl
  | cons element rest induction => rw [Doc.ofElements, induction, List.map_cons]

theorem of_members_eq (members : List (String × Value)) :
    Doc.ofMembers members =
      members.map fun member => (escapedBody member.1, Doc.ofValue member.2) := by
  induction members with
  | nil => rfl
  | cons member rest induction => rw [Doc.ofMembers, induction, List.map_cons]

/-- What is printed of a value without doubles shows that value. -/
theorem printed_shows {value : Value} (wellFormed : value.WellFormed) (realFree : value.RealFree) :
    (Doc.ofValue value).WellFormed ∧ (Doc.ofValue value).Shows value := by
  have word (word : Word) : (Doc.word word).WellFormed :=
    ⟨⟨List.forall_mem_nil _, List.forall_mem_nil _⟩, rfl⟩
  have literal (text : String) : (Doc.text (escapedBody text)).WellFormed :=
    Doc.well_formed_text_iff.mpr ⟨(text_escaped text).spelled, (text_escaped text).visible⟩
  induction wellFormed with
  | null => exact ⟨word _, .null⟩
  | @boolean value =>
      cases value with
      | true => exact ⟨word _, .true⟩
      | false => exact ⟨word _, .false⟩
  | number fits =>
      cases realFree with
      | @integer value =>
          rw [Doc.ofValue, written_integer]
          refine ⟨⟨⟨List.forall_mem_nil _, fun literal listed => ?_⟩, rfl⟩,
            .number (integer_literal_read fits)⟩
          obtain rfl : literal = integerLiteral value := by simpa [Doc.numerals] using listed
          exact integer_literal_numeral value
  | @text text => exact ⟨literal text, .text (escaped_body_read text)⟩
  | @array elements _ induction =>
      cases realFree with
      | array each =>
          rw [Doc.ofValue, of_elements_eq]
          refine ⟨Doc.well_formed_array_iff.mpr fun doc listed => ?_, .array ?_⟩
          · obtain ⟨element, member, rfl⟩ := List.mem_map.mp listed
            exact (induction element member (each element member)).1
          · rw [List.forall₂_map_left_iff]
            exact List.forall₂_same.mpr fun element member =>
              (induction element member (each element member)).2
  | @object members _ _ induction =>
      cases realFree with
      | object each =>
          rw [Doc.ofValue, of_members_eq]
          refine ⟨Doc.well_formed_object_iff.mpr fun doc listed => ?_,
            .object ?_ ?_ (List.Perm.refl members)⟩
          · obtain ⟨member, inside, rfl⟩ := List.mem_map.mp listed
            exact ⟨literal member.1, (induction member inside (each member inside)).1⟩
          · rw [List.forall₂_map_left_iff]
            exact List.forall₂_same.mpr fun member _ => escaped_body_read member.1
          · rw [List.forall₂_map_left_iff]
            exact List.forall₂_same.mpr fun member inside =>
              (induction member inside (each member inside)).2

theorem joined_flatten (groups : List (List Bytes)) :
    (joined groups).flatten = [0x2C].intercalate (groups.map List.flatten) := by
  induction groups with
  | nil => rfl
  | cons group groups induction =>
      cases groups with
      | nil => simp [joined, separated]
      | cons next groups =>
          have step : joined (group :: next :: groups) =
              group ++ [0x2C] :: joined (next :: groups) := rfl
          rw [step, List.flatten_append, List.flatten_cons, induction]
          simp [List.intercalate_cons_cons]

theorem intercalate_encoded (parts : List (List Char)) :
    ([','].intercalate parts).flatMap String.utf8EncodeChar =
      [0x2C].intercalate (parts.map (·.flatMap String.utf8EncodeChar)) := by
  induction parts with
  | nil => rfl
  | cons part parts induction =>
      cases parts with
      | nil => simp
      | cons next parts =>
          rw [List.intercalate_cons_cons, List.flatMap_append, induction]
          simp only [List.map_cons, List.intercalate_cons_cons, List.flatMap_append]
          rfl

theorem element_characters_eq (elements : List Value) :
    Value.elementCharacters elements = [','].intercalate (elements.map Value.characters) := by
  induction elements with
  | nil => rfl
  | cons element elements induction =>
      cases elements with
      | nil => simp [Value.elementCharacters]
      | cons next elements =>
          rw [Value.elementCharacters, induction]
          · simp only [List.map_cons, List.intercalate_cons_cons]
          · simp

theorem member_characters_eq (members : List (String × Value)) :
    Value.memberCharacters members = [','].intercalate
      (members.map fun member => textLiteral member.1 ++ [':'] ++ member.2.characters) := by
  induction members with
  | nil => rfl
  | cons member members induction =>
      obtain ⟨name, value⟩ := member
      cases members with
      | nil => simp [Value.memberCharacters]
      | cons next members =>
          rw [Value.memberCharacters, induction]
          · simp only [List.map_cons, List.intercalate_cons_cons]
          · simp

theorem text_literal_encoded (text : String) :
    (textLiteral text).flatMap String.utf8EncodeChar = quoted (escapedBody text) := by
  rw [textLiteral, List.flatMap_append, List.flatMap_append]
  rfl

theorem printed_compact {value : Value} (wellFormed : value.WellFormed) :
    (Doc.ofValue value).compact = value.characters.flatMap String.utf8EncodeChar := by
  induction wellFormed with
  | null => rfl
  | @boolean value => cases value <;> rfl
  | number => simp [Doc.ofValue, Doc.compact, Doc.tokens, Value.characters]
  | @text text =>
      rw [Value.characters, text_literal_encoded]
      simp [Doc.ofValue, Doc.compact, Doc.tokens]
  | @array elements _ induction =>
      have each : (Doc.elementTokens (Doc.ofElements elements)).map List.flatten =
          (elements.map Value.characters).map (·.flatMap String.utf8EncodeChar) := by
        rw [of_elements_eq, element_tokens_eq, List.map_map, List.map_map, List.map_map]
        exact List.map_congr_left induction
      rw [Value.characters, element_characters_eq, List.flatMap_append, List.flatMap_append,
        intercalate_encoded, ← each, ← joined_flatten]
      simp only [Doc.ofValue, Doc.compact, Doc.tokens, List.flatten_cons, List.flatten_append]
      rfl
  | @object members _ _ induction =>
      have each : (Doc.memberTokens (Doc.ofMembers members)).map List.flatten =
          (members.map fun member =>
            textLiteral member.1 ++ [':'] ++ member.2.characters).map
            (·.flatMap String.utf8EncodeChar) := by
        rw [of_members_eq, member_tokens_eq, List.map_map, List.map_map, List.map_map]
        refine List.map_congr_left fun member inside => ?_
        simp only [Function.comp_apply, List.flatten_cons, List.flatMap_append,
          text_literal_encoded, ← induction member inside, Doc.compact, List.append_assoc]
        rfl
      rw [Value.characters, member_characters_eq, List.flatMap_append, List.flatMap_append,
        intercalate_encoded, ← each, ← joined_flatten]
      simp only [Doc.ofValue, Doc.compact, Doc.tokens, List.flatten_cons, List.flatten_append]
      rfl

theorem printed_text {value : Value} (wellFormed : value.WellFormed) :
    (Doc.ofValue value).Spells (Bytes.ofText value.print) := by
  rw [Value.print, Bytes.of_text_of_list, ← printed_compact wellFormed]
  exact (Doc.ofValue value).spells_compact

end LocalNet.Json
