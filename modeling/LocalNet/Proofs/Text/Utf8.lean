import LocalNet.Proofs.Json.Escaping

/-!
# Cutting UTF-8

The bytes of characters one after another may be cut before any byte that begins a character, and both
parts are bytes of characters again. So a text is well formed exactly if its pieces between such places
are.
-/

namespace LocalNet.Bytes

def IsUtf8 (bytes : Bytes) : Prop :=
  ∃ characters : List Char, bytes = characters.flatMap String.utf8EncodeChar

variable {bytes front back : Bytes}

theorem is_utf8_iff : IsUtf8 bytes ↔ ∃ text, toText? bytes = some text := by
  constructor
  · rintro ⟨characters, rfl⟩
    refine ⟨String.ofList characters, ?_⟩
    rw [← of_text_of_list, toText?_ofText]
  · rintro ⟨text, spells⟩
    exact ⟨text.toList, by rw [← of_text_eq, Json.of_text_of_bytes spells]⟩

theorem is_utf8_of_text (text : String) : IsUtf8 (ofText text) :=
  ⟨text.toList, of_text_eq text⟩

theorem IsUtf8.nil : IsUtf8 [] :=
  ⟨[], rfl⟩

theorem IsUtf8.append (first : IsUtf8 front) (second : IsUtf8 back) : IsUtf8 (front ++ back) := by
  obtain ⟨characters, rfl⟩ := first
  obtain ⟨others, rfl⟩ := second
  exact ⟨characters ++ others, List.flatMap_append.symm⟩

theorem IsUtf8.character (character : Char) : IsUtf8 (String.utf8EncodeChar character) :=
  ⟨[character], (List.flatMap_singleton ..).symm⟩

theorem ascii_first {byte : UInt8} (ascii : byte < 0x80) : byte.IsUTF8FirstByte := by
  have table : ∀ value < 128, (UInt8.ofNat value).IsUTF8FirstByte := by decide
  have found := table byte.toNat (UInt8.lt_iff_toNat_lt.mp ascii)
  rwa [UInt8.ofNat_toNat] at found

theorem ascii_encoded {byte : UInt8} (ascii : byte < 0x80) :
    String.utf8EncodeChar (Char.ofNat byte.toNat) = [byte] := by
  have table : ∀ value < 128, String.utf8EncodeChar (Char.ofNat value) = [UInt8.ofNat value] := by
    decide
  rw [table byte.toNat (UInt8.lt_iff_toNat_lt.mp ascii), UInt8.ofNat_toNat]

theorem IsUtf8.ascii (all : ∀ byte ∈ bytes, byte < 0x80) : IsUtf8 bytes := by
  induction bytes with
  | nil => exact .nil
  | cons byte bytes induction =>
      obtain ⟨first, all⟩ := List.forall_mem_cons.mp all
      have here : IsUtf8 [byte] := ascii_encoded first ▸ .character _
      exact here.append (induction all)

/-- A cut before the first byte of a character cuts no character. -/
theorem IsUtf8.split (whole : IsUtf8 (front ++ back))
    (begins : ∀ byte ∈ back.head?, byte.IsUTF8FirstByte) : IsUtf8 front ∧ IsUtf8 back := by
  obtain ⟨characters, same⟩ := whole
  induction characters generalizing front with
  | nil =>
      obtain ⟨rfl, rfl⟩ := List.append_eq_nil_iff.mp same
      exact ⟨.nil, .nil⟩
  | cons character characters induction =>
      rw [List.flatMap_cons] at same
      rcases List.append_eq_append_iff.mp same with ⟨inner, split, later⟩ | ⟨rest, rfl, later⟩
      · by_cases none : front = []
        · subst none
          rw [List.nil_append] at split
          exact ⟨.nil, character :: characters, by rw [later, ← split, List.flatMap_cons]⟩
        · cases inner with
          | nil =>
              rw [List.append_nil] at split
              exact ⟨split ▸ .character character, characters, later⟩
          | cons byte inner =>
              have inside : front.length < (String.utf8EncodeChar character).length := by
                rw [split, List.length_append, List.length_cons]
                omega
              have found : (String.utf8EncodeChar character)[front.length] = byte := by
                simp only [split, List.getElem_append_right (Nat.le_refl _), Nat.sub_self,
                  List.getElem_cons_zero]
              have first : byte.IsUTF8FirstByte := begins byte (by simp [later])
              rw [← found, UInt8.isUTF8FirstByte_getElem_utf8EncodeChar] at first
              exact absurd (List.eq_nil_of_length_eq_zero first) none
      · obtain ⟨first, second⟩ := induction later.symm
        exact ⟨(IsUtf8.character character).append first, second⟩

theorem IsUtf8.behind {character : Char} (whole : IsUtf8 (String.utf8EncodeChar character ++ back)) :
    IsUtf8 back := by
  obtain ⟨characters, same⟩ := whole
  cases characters with
  | nil => simp [String.utf8EncodeChar_ne_nil] at same
  | cons other characters =>
      rw [List.flatMap_cons] at same
      have decoded := congrArg (fun bytes => bytes.toByteArray.utf8DecodeChar? 0) same
      simp only [List.toByteArray_append, ByteArray.utf8DecodeChar?_utf8EncodeChar_append] at decoded
      obtain rfl : character = other := Option.some.inj decoded
      exact ⟨characters, List.append_cancel_left same⟩

end LocalNet.Bytes
