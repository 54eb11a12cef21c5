import LocalNet.Json.Printer
import LocalNet.Proofs.Json.Literals

/-!
# The strings that a writer makes

A writer escapes quotes, backslashes and control characters and keeps every other character as it
is. Reading such a string gives back the text it was made from.
-/

namespace LocalNet

theorem Bytes.of_text_of_list (characters : List Char) :
    Bytes.ofText (String.ofList characters) = characters.flatMap String.utf8EncodeChar := by
  rw [Bytes.ofText, String.toUTF8_eq_toByteArray, String.toByteArray_ofList, List.utf8Encode]
  exact List.toList_data_toByteArray

theorem Bytes.of_text_eq (text : String) :
    Bytes.ofText text = text.toList.flatMap String.utf8EncodeChar := by
  rw [← Bytes.of_text_of_list, String.ofList_toList]

theorem ascii_encoding {character : Char} (ascii : character.toNat ≤ 127) :
    String.utf8EncodeChar character = [UInt8.ofNat character.toNat] := by
  rw [String.utf8EncodeChar]
  exact if_pos ascii

theorem encoding_high {character : Char} (wide : ¬ character.toNat ≤ 127) :
    ∀ byte ∈ String.utf8EncodeChar character, 0x80 ≤ byte := by
  have high (value : Nat) (bounds : 0x80 ≤ value ∧ value < 0x100) : 0x80 ≤ UInt8.ofNat value := by
    rw [UInt8.le_iff_toNat_le, UInt8.toNat_ofNat', Nat.mod_eq_of_lt bounds.2]
    exact bounds.1
  have wide : ¬ character.val.toNat ≤ 127 := wide
  rw [String.utf8EncodeChar, if_neg wide]
  split
  · simp only [List.forall_mem_cons]
    exact ⟨high _ (by omega), high _ (by omega), List.forall_mem_nil _⟩
  · split
    · simp only [List.forall_mem_cons]
      exact ⟨high _ (by omega), high _ (by omega), high _ (by omega), List.forall_mem_nil _⟩
    · simp only [List.forall_mem_cons]
      exact ⟨high _ (by omega), high _ (by omega), high _ (by omega), high _ (by omega),
        List.forall_mem_nil _⟩

namespace Json

/-- The body of a string and the bytes that it was made from. -/
inductive Escaped : (body meant : Bytes) → Prop where
  | nil : Escaped [] []
  | plain {byte : UInt8} {body meant : Bytes} (visible : 0x20 ≤ byte) (noQuote : byte ≠ 0x22)
      (noBackslash : byte ≠ 0x5C) (following : Escaped body meant) :
      Escaped (byte :: body) (byte :: meant)
  | simple {byte value : UInt8} {body meant : Bytes} (known : simpleEscape? byte = some value)
      (following : Escaped body meant) : Escaped (0x5C :: byte :: body) (value :: meant)
  | unit {first second third fourth : UInt8} {body meant : Bytes}
      (digits : ∀ digit ∈ [first, second, third, fourth], (hexValue? digit).isSome)
      (single : hexNumber 0 [first, second, third, fourth] < 0xD800)
      (following : Escaped body meant) :
      Escaped (0x5C :: 0x75 :: first :: second :: third :: fourth :: body)
        (characterBytes (hexNumber 0 [first, second, third, fourth]) ++ meant)

namespace Escaped

variable {body meant : Bytes}

theorem append {others following : Bytes} (escaped : Escaped body meant)
    (later : Escaped others following) : Escaped (body ++ others) (meant ++ following) := by
  induction escaped with
  | nil => exact later
  | plain visible noQuote noBackslash _ induction =>
      exact .plain visible noQuote noBackslash induction
  | simple known _ induction => exact .simple known induction
  | unit digits single _ induction =>
      rw [List.append_assoc]
      exact .unit digits single induction

theorem short (byte : UInt8) {value : UInt8} (known : simpleEscape? byte = some value) :
    Escaped [0x5C, byte] [value] :=
  .simple known .nil

theorem of_plain {bytes : Bytes}
    (all : ∀ byte ∈ bytes, 0x20 ≤ byte ∧ byte ≠ 0x22 ∧ byte ≠ 0x5C) : Escaped bytes bytes := by
  induction bytes with
  | nil => exact .nil
  | cons byte bytes induction =>
      obtain ⟨⟨visible, noQuote, noBackslash⟩, others⟩ := List.forall_mem_cons.mp all
      exact .plain visible noQuote noBackslash (induction others)

theorem spelled (escaped : Escaped body meant) : Body body := by
  induction escaped with
  | nil => exact .nil
  | plain _ noQuote noBackslash _ induction => exact .plain noQuote noBackslash induction
  | simple known _ induction => exact .simple known induction
  | unit digits _ _ induction => exact .unit digits induction

theorem visible (escaped : Escaped body meant) : body.all (0x20 ≤ ·) = true := by
  induction escaped with
  | nil => rfl
  | plain visible _ _ _ induction => simpa [visible] using induction
  | simple known _ induction => simpa [simple_escape_visible known] using induction
  | unit digits _ _ induction =>
      simpa [hex_digit_visible (digits _ _)] using induction

end Escaped

theorem seen_escape_single {first second third fourth : UInt8}
    (digits : ∀ digit ∈ [first, second, third, fourth], (hexValue? digit).isSome)
    (single : hexNumber 0 [first, second, third, fourth] < 0xD800) (cursor : Cursor) (rest : Bytes)
    (given : cursor.rest = 0x75 :: first :: second :: third :: fourth :: rest) :
    (readEscape .text cursor).seen =
      some (characterBytes (hexNumber 0 [first, second, third, fourth]), rest) := by
  have marker : cursor.peek = some 0x75 := by simp [given]
  have escape := seen_hex_escape rfl digits cursor.advance rest (by simp [given])
  rw [readEscape, if_pos marker]
  refine Reading.seen_goes_on _ escape fun place ending => ?_
  rw [if_neg (by simp [isTrailingUnit]; omega), if_neg (by simp [isLeadingUnit]; omega),
    Reading.seen_ok, ending]

theorem seen_escaped {body meant : Bytes} (escaped : Escaped body meant) {fuel : Nat}
    {backwards rest : Bytes} {cursor : Cursor} (enough : body.length < fuel)
    (given : cursor.rest = body ++ 0x22 :: rest) :
    (readLiteralBody .text fuel backwards cursor).seen =
      some (backwards.reverse ++ meant, rest) := by
  induction escaped generalizing fuel backwards cursor with
  | nil =>
      obtain ⟨fuel, rfl⟩ := Nat.exists_eq_add_one_of_ne_zero (Nat.ne_zero_of_lt enough)
      rw [seen_literal_closed given, List.append_nil]
  | @plain byte body meant visible noQuote noBackslash _ induction =>
      obtain ⟨fuel, rfl⟩ := Nat.exists_eq_add_one_of_ne_zero (Nat.ne_zero_of_lt enough)
      rw [seen_literal_plain noQuote noBackslash given, if_neg (by simp [visible]),
        induction (by simp at enough; omega) (by simp [given])]
      simp
  | @simple byte value body meant known _ induction =>
      obtain ⟨fuel, rfl⟩ := Nat.exists_eq_add_one_of_ne_zero (Nat.ne_zero_of_lt enough)
      have noUnit := simple_escape_no_unit known
      have escape : (readEscape .text cursor.advance).seen =
          some ([value], body ++ 0x22 :: rest) := by
        have simple := seen_simple_escape known cursor.advance (body ++ 0x22 :: rest)
          (by simp [given])
        simpa [readEscape, given, noUnit] using simple
      rw [literal_escape given]
      refine Reading.seen_goes_on _ escape fun place ending => ?_
      rw [induction (by simp at enough; omega) ending]
      simp
  | @unit first second third fourth body meant digits single _ induction =>
      obtain ⟨fuel, rfl⟩ := Nat.exists_eq_add_one_of_ne_zero (Nat.ne_zero_of_lt enough)
      have escape := seen_escape_single digits single cursor.advance (body ++ 0x22 :: rest)
        (by simp [given])
      rw [literal_escape given]
      refine Reading.seen_goes_on _ escape fun place ending => ?_
      rw [induction (by simp at enough; omega) ending]
      simp

theorem text_of_escaped {body meant : Bytes} (escaped : Escaped body meant) :
    textOf? body = Bytes.toText? meant := by
  have literal : (readLiteralBody .text ((body ++ [0x22]).length + 1) []
      (Cursor.start (body ++ [0x22]))).seen = some (meant, []) :=
    seen_escaped escaped (by rw [List.length_append]; omega) rfl
  have read : (readTextLiteral (Cursor.start (body ++ [0x22]))).seen =
      (Bytes.toText? meant).map (·, []) := by
    rw [readTextLiteral]
    refine Reading.seen_goes_on _ literal fun place ending => ?_
    rw [← ending]
    cases Bytes.toText? meant <;> rfl
  rw [textOf?, read]
  cases Bytes.toText? meant <;> rfl

/-! ## Escaped characters -/

def hexByte (value : Nat) : UInt8 :=
  UInt8.ofNat (Bytes.hexDigit value).toNat

theorem hex_digit_ascii : ∀ value < 16, (Bytes.hexDigit value).toNat ≤ 127 := by
  decide

theorem hex_byte_value : ∀ value < 16, hexValue? (hexByte value) = some value := by
  decide

theorem control_escaped {character : Char} (control : character.toNat < 0x20) :
    Escaped (['\\', 'u', '0', '0', Bytes.hexDigit (character.toNat / 16),
      Bytes.hexDigit (character.toNat % 16)].flatMap String.utf8EncodeChar)
      (String.utf8EncodeChar character) := by
  have zero : hexValue? 0x30 = some 0 := rfl
  have high := hex_byte_value (character.toNat / 16) (by omega)
  have low := hex_byte_value (character.toNat % 16) (by omega)
  have written : ['\\', 'u', '0', '0', Bytes.hexDigit (character.toNat / 16),
      Bytes.hexDigit (character.toNat % 16)].flatMap String.utf8EncodeChar =
      [0x5C, 0x75, 0x30, 0x30, hexByte (character.toNat / 16), hexByte (character.toNat % 16)] := by
    simp only [List.flatMap_cons, List.flatMap_nil,
      ascii_encoding (hex_digit_ascii (character.toNat / 16) (by omega)),
      ascii_encoding (hex_digit_ascii (character.toNat % 16) (by omega))]
    rfl
  have digits : ∀ digit ∈ [0x30, 0x30, hexByte (character.toNat / 16),
      hexByte (character.toNat % 16)], (hexValue? digit).isSome := by
    simp [high, low, zero]
  have number : hexNumber 0 [0x30, 0x30, hexByte (character.toNat / 16),
      hexByte (character.toNat % 16)] = character.toNat := by
    simp only [hexNumber, List.foldl_cons, List.foldl_nil, zero, high, low, Option.getD_some]
    omega
  have meant : characterBytes character.toNat = String.utf8EncodeChar character := by
    rw [characterBytes, Char.ofNat_toNat]
  have unit := Escaped.unit digits (by rw [number]; omega) .nil
  rw [number, meant, List.append_nil] at unit
  rw [written]
  exact unit

theorem plain_encoding {character : Char} (noQuote : character ≠ '"')
    (noBackslash : character ≠ '\\') (visible : ¬ character.toNat < 0x20) :
    ∀ byte ∈ String.utf8EncodeChar character, 0x20 ≤ byte ∧ byte ≠ 0x22 ∧ byte ≠ 0x5C := by
  by_cases ascii : character.toNat ≤ 127
  · have apart {value : Nat} (below : value < 0x100) (other : character ≠ Char.ofNat value) :
        UInt8.ofNat character.toNat ≠ UInt8.ofNat value := by
      intro same
      have codes := congrArg UInt8.toNat same
      rw [UInt8.toNat_ofNat', UInt8.toNat_ofNat', Nat.mod_eq_of_lt (by omega),
        Nat.mod_eq_of_lt below] at codes
      exact other (by rw [← codes, Char.ofNat_toNat])
    rw [ascii_encoding ascii, List.forall_mem_singleton]
    refine ⟨?_, apart (by decide) noQuote, apart (by decide) noBackslash⟩
    rw [UInt8.le_iff_toNat_le, UInt8.toNat_ofNat', Nat.mod_eq_of_lt (by omega)]
    exact Nat.not_lt.mp visible
  · intro byte inside
    have high := encoding_high ascii byte inside
    grind

theorem character_escaped (character : Char) :
    Escaped ((escapedCharacter character).flatMap String.utf8EncodeChar)
      (String.utf8EncodeChar character) := by
  have code {value : Nat} (same : character.toNat = value) : character = Char.ofNat value := by
    rw [← same, Char.ofNat_toNat]
  fun_cases escapedCharacter character with
  | case1 isQuote =>
      subst isQuote
      exact .short 0x22 rfl
  | case2 _ isBackslash =>
      subst isBackslash
      exact .short 0x5C rfl
  | case3 _ _ isLineFeed => exact isLineFeed ▸ .short 0x6E rfl
  | case4 _ _ _ isReturn => exact isReturn ▸ .short 0x72 rfl
  | case5 _ _ _ _ isTab => exact isTab ▸ .short 0x74 rfl
  | case6 _ _ _ _ _ isBackspace =>
      exact code isBackspace ▸ .short 0x62 rfl
  | case7 _ _ _ _ _ _ isFormFeed =>
      exact code isFormFeed ▸ .short 0x66 rfl
  | case8 _ _ _ _ _ _ _ control => exact control_escaped control
  | case9 noQuote noBackslash _ _ _ _ _ visible =>
      rw [List.flatMap_singleton]
      exact .of_plain (plain_encoding noQuote noBackslash visible)

def escapedBody (text : String) : Bytes :=
  (text.toList.flatMap escapedCharacter).flatMap String.utf8EncodeChar

theorem text_escaped (text : String) : Escaped (escapedBody text) (Bytes.ofText text) := by
  rw [escapedBody, Bytes.of_text_eq, List.flatMap_assoc]
  induction text.toList with
  | nil => exact .nil
  | cons character characters induction =>
      rw [List.flatMap_cons, List.flatMap_cons]
      exact (character_escaped character).append induction

theorem escaped_body_read (text : String) : textOf? (escapedBody text) = some text := by
  rw [text_of_escaped (text_escaped text), Bytes.toText?_ofText]

end Json

end LocalNet
