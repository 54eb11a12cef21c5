import LocalNet.Proofs.Json.Denoting
import LocalNet.Proofs.Text.Utf8

/-!
# Documents in UTF-8

Outside its strings a document is ASCII, and so are the escapes inside them. A text is therefore
well-formed UTF-8 exactly if the strings of its document are, and a string is exactly if what it denotes
is.
-/

namespace LocalNet

namespace Bytes

variable {front middle back : Bytes}

theorem IsUtf8.behind_ascii (ascii : ∀ byte ∈ middle, byte < 0x80)
    (whole : IsUtf8 (middle ++ back)) : IsUtf8 back := by
  induction middle with
  | nil => exact whole
  | cons byte middle induction =>
      obtain ⟨first, ascii⟩ := List.forall_mem_cons.mp ascii
      rw [List.cons_append, ← List.singleton_append, ← ascii_encoded first] at whole
      exact induction ascii whole.behind

theorem utf8_around_ascii (given : middle ≠ []) (ascii : ∀ byte ∈ middle, byte < 0x80) :
    IsUtf8 (front ++ (middle ++ back)) ↔ IsUtf8 front ∧ IsUtf8 back := by
  constructor
  · intro whole
    obtain ⟨byte, more, rfl⟩ := List.exists_cons_of_ne_nil given
    obtain ⟨first, second⟩ := whole.split (by
      simpa using ascii_first (ascii byte (by simp)))
    exact ⟨first, second.behind_ascii ascii⟩
  · rintro ⟨first, second⟩
    exact first.append ((IsUtf8.ascii ascii).append second)

theorem utf8_around_character (character : Char) :
    IsUtf8 (front ++ (String.utf8EncodeChar character ++ back)) ↔ IsUtf8 front ∧ IsUtf8 back := by
  constructor
  · intro whole
    obtain ⟨first, second⟩ := whole.split (by
      obtain ⟨byte, more, split⟩ :=
        List.exists_cons_of_ne_nil (String.utf8EncodeChar_ne_nil (c := character))
      have first := UInt8.isUTF8FirstByte_getElem_zero_utf8EncodeChar (c := character)
      simpa [split] using first)
    exact ⟨first, second.behind⟩
  · rintro ⟨first, second⟩
    exact first.append ((IsUtf8.character character).append second)

end Bytes

namespace Json

open Bytes

/-! ## Strings -/

theorem simple_escape_ascii {byte value : UInt8} (known : simpleEscape? byte = some value) :
    byte < 0x80 ∧ value < 0x80 := by
  rw [simpleEscape?] at known
  grind

theorem hex_digit_ascii_byte {byte : UInt8} (known : (hexValue? byte).isSome) : byte < 0x80 := by
  rw [hexValue?] at known
  grind

theorem SpellsUnit.ascii {digits : Bytes} {unit : Nat} (spelled : SpellsUnit digits unit) :
    ∀ byte ∈ 0x5C :: 0x75 :: digits, byte < 0x80 := by
  simp only [List.forall_mem_cons]
  exact ⟨by decide, by decide, fun byte inside => hex_digit_ascii_byte (spelled.2.1 byte inside)⟩

/-- The bytes before a string may end inside a character, which the string goes on with. -/
theorem Denotes.utf8_behind {body meant : Bytes} (denotes : Denotes body meant) (front : Bytes) :
    IsUtf8 (front ++ body) ↔ IsUtf8 (front ++ meant) := by
  induction denotes generalizing front with
  | nil => rfl
  | @plain byte _ _ _ _ _ _ induction => simpa using induction (front ++ [byte])
  | @simple byte value body meant known _ induction =>
      obtain ⟨escaped, plain⟩ := simple_escape_ascii known
      have spelled : IsUtf8 (front ++ ([0x5C, byte] ++ body)) ↔ _ :=
        utf8_around_ascii (by simp) (by simp [escaped])
      have stood : IsUtf8 (front ++ ([value] ++ meant)) ↔ _ :=
        utf8_around_ascii (by simp) (by simp [plain])
      exact spelled.trans ((and_congr_right fun _ => induction []).trans stood.symm)
  | @unit digits body meant unit spelled _ _ induction =>
      have escape : IsUtf8 (front ++ ((0x5C :: 0x75 :: digits) ++ body)) ↔ _ :=
        utf8_around_ascii (by simp) spelled.ascii
      exact escape.trans ((and_congr_right fun _ => induction []).trans
        (utf8_around_character _).symm)
  | @pair digits others body meant leading trailing spelled _ paired _ _ induction =>
      have both : ∀ byte ∈ 0x5C :: 0x75 :: digits ++ 0x5C :: 0x75 :: others, byte < 0x80 :=
        List.forall_mem_append.mpr ⟨spelled.ascii, paired.ascii⟩
      have escape :
          IsUtf8 (front ++ ((0x5C :: 0x75 :: digits ++ 0x5C :: 0x75 :: others) ++ body)) ↔ _ :=
        utf8_around_ascii (by simp) both
      have same : 0x5C :: 0x75 :: (digits ++ 0x5C :: 0x75 :: (others ++ body)) =
          (0x5C :: 0x75 :: digits ++ 0x5C :: 0x75 :: others) ++ body := by simp
      rw [same]
      exact escape.trans ((and_congr_right fun _ => induction []).trans
        (utf8_around_character _).symm)

theorem Denotes.utf8_iff {body meant : Bytes} (denotes : Denotes body meant) :
    IsUtf8 body ↔ IsUtf8 meant :=
  denotes.utf8_behind []

/-- A body is read as a text exactly if its surrogates come in pairs and it is well-formed UTF-8. -/
theorem is_text_iff {body : Bytes} (spelled : Body body) :
    (∃ text, textOf? body = some text) ↔ (∃ meant, Denotes body meant) ∧ IsUtf8 body := by
  constructor
  · rintro ⟨text, known⟩
    have denotes := (text_of_iff spelled).mp known
    exact ⟨⟨_, denotes⟩, denotes.utf8_iff.mpr (is_utf8_of_text text)⟩
  · rintro ⟨⟨meant, denotes⟩, encoded⟩
    obtain ⟨text, spells⟩ := is_utf8_iff.mp (denotes.utf8_iff.mp encoded)
    rw [← of_text_of_bytes spells] at denotes
    exact ⟨text, (text_of_iff spelled).mpr denotes⟩

/-! ## Tokens -/

theorem digit_ascii {byte : UInt8} (isDigit : Cursor.isDigit byte = true) : byte < 0x80 := by
  simp only [Cursor.isDigit, Bool.and_eq_true, decide_eq_true_eq] at isDigit
  grind

theorem Magnitude.ascii {whole places power : Bytes} (magnitude : Magnitude whole places power) :
    ∀ byte ∈ whole ++ (places ++ power), byte < 0x80 := by
  obtain ⟨isWhole, -, isPlaces, isExponent⟩ := magnitude
  have digits {digits : Bytes} (isDigits : Digits digits) : ∀ byte ∈ digits, byte < 0x80 :=
    fun byte inside => digit_ascii (isDigits.2 byte inside)
  rw [List.forall_mem_append, List.forall_mem_append]
  refine ⟨digits isWhole, ?_, ?_⟩
  · cases isPlaces with
    | none => exact List.forall_mem_nil _
    | point isDigits => exact List.forall_mem_cons.mpr ⟨by decide, digits isDigits⟩
  · cases isExponent with
    | none => exact List.forall_mem_nil _
    | letter isLetter isSign isDigits =>
        refine List.forall_mem_cons.mpr ⟨?_, List.forall_mem_append.mpr ⟨?_, digits isDigits⟩⟩
        · rcases isLetter with rfl | rfl <;> decide
        · rcases isSign with rfl | rfl | rfl <;> decide +kernel

theorem Numeral.ascii {literal : Bytes} (numeral : Numeral literal) :
    ∀ byte ∈ literal, byte < 0x80 := by
  cases numeral with
  | unsigned magnitude => exact magnitude.ascii
  | negative magnitude => exact List.forall_mem_cons.mpr ⟨by decide, magnitude.ascii⟩

theorem mem_joined {groups : List (List Bytes)} {token : Bytes} (inside : token ∈ joined groups) :
    token = [0x2C] ∨ ∃ group ∈ groups, token ∈ group := by
  cases groups with
  | nil => cases inside
  | cons group groups =>
      rcases List.mem_append.mp inside with here | later
      · exact .inr ⟨group, by simp, here⟩
      · obtain ⟨other, member, within⟩ := List.mem_flatMap.mp later
        rcases List.mem_cons.mp within with comma | inner
        · exact .inl comma
        · exact .inr ⟨other, by simp [member], inner⟩

theorem mem_joined_of_group {groups : List (List Bytes)} {group : List Bytes} {token : Bytes}
    (member : group ∈ groups) (inside : token ∈ group) : token ∈ joined groups := by
  cases groups with
  | nil => cases member
  | cons first groups =>
      rcases List.mem_cons.mp member with rfl | later
      · exact List.mem_append_left _ inside
      · exact List.mem_append_right _
          (List.mem_flatMap.mpr ⟨group, later, List.mem_cons_of_mem _ inside⟩)

theorem Doc.Lexical.token_cases {doc : Doc} (lexical : doc.Lexical) {token : Bytes}
    (inside : token ∈ doc.tokens) :
    (token ≠ [] ∧ ∀ byte ∈ token, byte < 0x80) ∨ ∃ body ∈ doc.bodies, token = quoted body := by
  induction doc using Doc.induct with
  | word word =>
      obtain rfl := List.mem_singleton.mp inside
      left
      cases word <;> decide +kernel
  | number literal =>
      obtain rfl := List.mem_singleton.mp inside
      obtain ⟨first, more, split, -⟩ := lexical.number.opening
      exact .inl ⟨by simp [split], lexical.number.ascii⟩
  | text body => exact .inr ⟨body, by simp [Doc.bodies], List.mem_singleton.mp inside⟩
  | array elements induction =>
      rw [Doc.tokens, element_tokens_eq, List.mem_cons, List.mem_append,
        List.mem_singleton] at inside
      rcases inside with rfl | among | rfl
      · exact .inl (by decide +kernel)
      · rcases mem_joined among with rfl | ⟨group, member, within⟩
        · exact .inl (by decide +kernel)
        · obtain ⟨element, listed, rfl⟩ := List.mem_map.mp member
          refine (induction element listed (lexical.element listed) within).imp_right ?_
          rintro ⟨body, found, same⟩
          exact ⟨body, mem_element_bodies.mpr ⟨element, listed, found⟩, same⟩
      · exact .inl (by decide +kernel)
  | object members induction =>
      rw [Doc.tokens, member_tokens_eq, List.mem_cons, List.mem_append,
        List.mem_singleton] at inside
      rcases inside with rfl | among | rfl
      · exact .inl (by decide +kernel)
      · rcases mem_joined among with rfl | ⟨group, member, within⟩
        · exact .inl (by decide +kernel)
        · obtain ⟨entry, listed, rfl⟩ := List.mem_map.mp member
          rcases List.mem_cons.mp within with rfl | behind
          · exact .inr ⟨entry.1, mem_member_bodies.mpr ⟨entry, listed, .inl rfl⟩, rfl⟩
          · rcases List.mem_cons.mp behind with rfl | value
            · exact .inl (by decide +kernel)
            · refine (induction entry listed (lexical.value listed) value).imp_right ?_
              rintro ⟨body, found, same⟩
              exact ⟨body, mem_member_bodies.mpr ⟨entry, listed, .inr found⟩, same⟩
      · exact .inl (by decide +kernel)

theorem Doc.quoted_mem_tokens {doc : Doc} {body : Bytes} (inside : body ∈ doc.bodies) :
    quoted body ∈ doc.tokens := by
  induction doc using Doc.induct with
  | word word => cases inside
  | number literal => cases inside
  | text spelled =>
      obtain rfl := List.mem_singleton.mp inside
      exact List.mem_singleton.mpr rfl
  | array elements induction =>
      obtain ⟨element, listed, found⟩ := mem_element_bodies.mp inside
      rw [Doc.tokens, element_tokens_eq]
      exact List.mem_cons_of_mem _ (List.mem_append_left _ (mem_joined_of_group
        (List.mem_map_of_mem listed) (induction element listed found)))
  | object members induction =>
      obtain ⟨entry, listed, found⟩ := mem_member_bodies.mp inside
      rw [Doc.tokens, member_tokens_eq]
      refine List.mem_cons_of_mem _ (List.mem_append_left _ (mem_joined_of_group
        (List.mem_map_of_mem listed) ?_))
      rcases found with rfl | value
      · exact List.mem_cons_self
      · exact List.mem_cons_of_mem _ (List.mem_cons_of_mem _ (induction entry listed value))

/-! ## Texts -/

theorem blank_ascii {blanks : Bytes} (blank : Blank blanks) : ∀ byte ∈ blanks, byte < 0x80 := by
  intro byte inside
  have isBlank := blank byte inside
  simp only [Cursor.isBlank, Bool.or_eq_true, decide_eq_true_eq] at isBlank
  rcases isBlank with ((rfl | rfl) | rfl) | rfl <;> decide

theorem utf8_quoted_iff {body : Bytes} : IsUtf8 (quoted body) ↔ IsUtf8 body := by
  have opened : IsUtf8 ([] ++ ([0x22] ++ (body ++ [0x22]))) ↔ _ :=
    utf8_around_ascii (by simp) (by decide +kernel)
  have closed : IsUtf8 (body ++ ([0x22] ++ [])) ↔ _ := utf8_around_ascii (by simp) (by decide +kernel)
  rw [List.append_nil] at closed
  rw [show quoted body = [] ++ ([0x22] ++ (body ++ [0x22])) from rfl, opened, closed]
  exact ⟨fun both => both.2.1, fun encoded => ⟨.nil, encoded, .nil⟩⟩

/-- Tokens that begin with ASCII may be told apart in a text. -/
theorem spaced_utf8_iff {tokens : List Bytes} {text : Bytes} (spaced : Spaced tokens text)
    (begins : ∀ token ∈ tokens, ∃ byte rest, token = byte :: rest ∧ byte < 0x80) :
    (∀ byte ∈ text.head?, byte < 0x80) ∧ (IsUtf8 text ↔ ∀ token ∈ tokens, IsUtf8 token) := by
  induction spaced with
  | nil => exact ⟨by simp, by simp [IsUtf8.nil]⟩
  | @cons blanks token text tokens blank _ induction =>
      obtain ⟨⟨byte, rest, rfl, ascii⟩, others⟩ := List.forall_mem_cons.mp begins
      obtain ⟨first, encoded⟩ := induction others
      have bare := blank_ascii blank
      constructor
      · cases blanks with
        | nil => simpa using ascii
        | cons first blanks => simpa using bare first (by simp)
      · rw [List.forall_mem_cons, ← encoded]
        constructor
        · intro whole
          exact (whole.behind_ascii bare).split fun byte inside => ascii_first (first byte inside)
        · rintro ⟨here, later⟩
          exact (IsUtf8.ascii bare).append (here.append later)

/-- A whole text is well-formed UTF-8 exactly if every string in it is. -/
theorem Doc.Lexical.utf8_iff {doc : Doc} (lexical : doc.Lexical) {text : Bytes}
    (spells : doc.Spells text) : IsUtf8 text ↔ ∀ body ∈ doc.bodies, IsUtf8 body := by
  obtain ⟨body, blanks, spaced, blank, rfl⟩ := spells
  have begins : ∀ token ∈ doc.tokens, ∃ byte rest, token = byte :: rest ∧ byte < 0x80 := by
    intro token inside
    rcases lexical.token_cases inside with ⟨given, ascii⟩ | ⟨body, -, rfl⟩
    · obtain ⟨byte, rest, rfl⟩ := List.exists_cons_of_ne_nil given
      exact ⟨byte, rest, rfl, ascii byte (by simp)⟩
    · exact ⟨0x22, _, rfl, by decide⟩
  have ended : IsUtf8 (body ++ blanks) ↔ IsUtf8 body := by
    constructor
    · intro whole
      refine (whole.split fun byte inside => ascii_first ?_).1
      exact blank_ascii blank byte (List.mem_of_mem_head? inside)
    · exact fun encoded => encoded.append (.ascii (blank_ascii blank))
  rw [ended, (spaced_utf8_iff spaced begins).2]
  constructor
  · exact fun all body inside => utf8_quoted_iff.mp (all _ (Doc.quoted_mem_tokens inside))
  · intro all token inside
    rcases lexical.token_cases inside with ⟨-, ascii⟩ | ⟨body, listed, rfl⟩
    · exact .ascii ascii
    · exact utf8_quoted_iff.mpr (all body listed)

end Json

end LocalNet
