import LocalNet.Proofs.Json.Ensuring
import LocalNet.Proofs.Json.Integers

/-!
# What is accepted is a document

A reader that succeeds has passed over the tokens of a well-formed document, also where it keeps nothing
of it. With what readers make of documents this decides every text: it is accepted exactly if it spells
a document that means something, and it comes to what the document means.
-/

namespace LocalNet.Json

variable {α β σ ρ : Type} {cursor place target : Cursor} {tokens later : List Bytes}

/-! ## Tokens between two places -/

/-- Between two places stand these tokens, with any blanks before each. -/
def Covers (tokens : List Bytes) (cursor place : Cursor) : Prop :=
  ∃ text, Spaced tokens text ∧ cursor.rest = text ++ place.rest

theorem Covers.append (first : Covers tokens cursor place) (second : Covers later place target) :
    Covers (tokens ++ later) cursor target := by
  obtain ⟨front, spaced, rest⟩ := first
  obtain ⟨back, spacedBack, behind⟩ := second
  exact ⟨front ++ back, spaced.append spacedBack, by rw [rest, behind, List.append_assoc]⟩

theorem blanks_passed (cursor : Cursor) :
    ∃ blanks, Blank blanks ∧ cursor.rest = blanks ++ cursor.skipBlanks.rest := by
  refine ⟨cursor.rest.takeWhile Cursor.isBlank, List.all_eq_true.mp List.all_takeWhile, ?_⟩
  rw [Cursor.rest_skip_blanks, List.takeWhile_append_dropWhile]

theorem Covers.of_token {token : Bytes} (passed : cursor.skipBlanks.rest = token ++ place.rest) :
    Covers [token] cursor place := by
  obtain ⟨blanks, blank, rest⟩ := blanks_passed cursor
  refine ⟨blanks ++ (token ++ []), .cons blank .nil, ?_⟩
  rw [rest, passed]
  simp

theorem Covers.skip {token : Bytes} (covers : Covers (token :: tokens) cursor.skipBlanks place) :
    Covers (token :: tokens) cursor place := by
  obtain ⟨text, spaced, rest⟩ := covers
  obtain ⟨blanks, blank, before⟩ := blanks_passed cursor
  obtain _ | ⟨inner, following⟩ := spaced
  have both : Blank (blanks ++ _) := List.forall_mem_append.mpr ⟨blank, inner⟩
  exact ⟨_, .cons both following, by rw [before, rest]; simp⟩

theorem Covers.of_peek {byte : UInt8} (begun : cursor.skipBlanks.peek = some byte) :
    Covers [[byte]] cursor cursor.skipBlanks.advance :=
  .of_token (rest_of_peek begun)

theorem Doc.tokens_cons {doc : Doc} (formed : doc.WellFormed) :
    ∃ token tokens, doc.tokens = token :: tokens := by
  obtain ⟨byte, token, tokens, split, -⟩ := formed.toLexical.opening
  exact ⟨byte :: token, tokens, split⟩

/-! ## Scalars -/

def Recognizes (reader : Cursor → Reading α) : Prop :=
  ∀ ⦃cursor : Cursor⦄ ⦃value : α⦄ ⦃place : Cursor⦄, reader cursor = .ok (value, place) →
    ∃ doc : Doc, doc.WellFormed ∧ Covers doc.tokens cursor place

theorem keyword_passed {letters : Bytes} (read : cursor.keyword letters = .ok ((), place)) :
    cursor.rest = letters ++ place.rest := by
  induction letters generalizing cursor with
  | nil =>
      cases read
      rfl
  | cons letter letters induction =>
      rw [Cursor.keyword] at read
      split at read
      · cases read
      · rename_i byte begun
        split at read
        · rename_i same
          rw [rest_of_peek begun, induction read, same, List.cons_append]
        · cases read

theorem word_recognized (word : Word) {letter : UInt8} {letters : Bytes}
    (spelled : word.letters = letter :: letters) (begun : cursor.skipBlanks.peek = some letter)
    (read : cursor.skipBlanks.advance.keyword letters = .ok ((), place)) :
    ∃ doc : Doc, doc.WellFormed ∧ Covers doc.tokens cursor place := by
  refine ⟨.word word, ⟨⟨?_, ?_⟩, rfl⟩, ?_⟩
  · simp [Doc.bodies]
  · simp [Doc.numerals]
  · rw [Doc.tokens, spelled]
    exact .of_token (by rw [rest_of_peek begun, keyword_passed read, List.cons_append])

theorem numeral_recognized {literal : Bytes} (numeral : Numeral literal)
    (passed : cursor.skipBlanks.rest = literal ++ place.rest) :
    ∃ doc : Doc, doc.WellFormed ∧ Covers doc.tokens cursor place := by
  refine ⟨.number literal, ⟨⟨?_, ?_⟩, rfl⟩, .of_token passed⟩
  · simp [Doc.bodies]
  · simpa [Doc.numerals] using numeral

theorem negative_recognized {whole places power : Bytes} (magnitude : Magnitude whole places power)
    (begun : cursor.skipBlanks.peek = some 0x2D)
    (passed : cursor.skipBlanks.advance.rest = whole ++ (places ++ power) ++ place.rest) :
    ∃ doc : Doc, doc.WellFormed ∧ Covers doc.tokens cursor place :=
  numeral_recognized (.negative magnitude) (by rw [rest_of_peek begun, passed, List.cons_append])

theorem string_recognized {body : Bytes} (formed : (Doc.text body).WellFormed)
    (begun : cursor.skipBlanks.peek = some 0x22)
    (passed : cursor.skipBlanks.advance.rest = body ++ 0x22 :: place.rest) :
    ∃ doc : Doc, doc.WellFormed ∧ Covers doc.tokens cursor place :=
  ⟨.text body, formed, .of_token (by rw [rest_of_peek begun, passed, quoted]; simp)⟩

theorem text_recognized {text : String} (begun : cursor.skipBlanks.peek = some 0x22)
    (read : readTextLiteral cursor.skipBlanks.advance = .ok (text, place)) :
    ∃ doc : Doc, doc.WellFormed ∧ Covers doc.tokens cursor place := by
  obtain ⟨body, denotes, passed⟩ := text_literal_passed read
  exact string_recognized denotes.well_formed begun passed

/-! ## Lists -/

def separator (first : Bool) : List Bytes :=
  if first then [] else [[0x2C]]

theorem remaining_cons (first : Bool) (group : List Bytes) (groups : List (List Bytes)) :
    remaining first (group :: groups) = separator first ++ (group ++ separated groups) := by
  cases first <;> rfl

theorem next_element_passed {first more : Bool}
    (read : nextElement first cursor = .ok (more, place)) :
    (more = false ∧ place = cursor.skipBlanks ∧ place.peek = some 0x5D) ∨
      (more = true ∧ ∀ {token tokens target}, Covers (token :: tokens) place target →
        Covers (separator first ++ token :: tokens) cursor target) := by
  unfold nextElement at read
  dsimp only at read
  split at read
  · cases read
  · rename_i byte begun
    split at read
    · rename_i closes
      cases read
      exact .inl ⟨rfl, rfl, closes ▸ begun⟩
    · split at read
      · rename_i isFirst
        cases read
        subst isFirst
        exact .inr ⟨rfl, fun covers => covers.skip⟩
      · rename_i notFirst
        obtain rfl : first = false := by simpa using notFirst
        split at read
        · rename_i isComma
          split at read
          · cases read
          · split at read
            · cases read
            · cases read
              exact .inr ⟨rfl, fun covers =>
                Covers.append (.of_peek (isComma ▸ begun)) covers.skip⟩
        · cases read

theorem close_list_passed (read : closeList cursor = .ok ((), place)) :
    Covers [[0x5D]] cursor place := by
  unfold closeList at read
  dsimp only at read
  split at read
  · cases read
  · rename_i byte begun
    split at read
    · rename_i closes
      cases read
      exact .of_peek (closes ▸ begun)
    · split at read
      · split at read <;> cases read
      · cases read

/-- A group stands where the next element was announced, and further groups behind it. -/
theorem covers_next {first : Bool} {group : List Bytes} {groups : List (List Bytes)}
    {closing : UInt8} {following : Cursor}
    (announced : ∀ {token tokens target}, Covers (token :: tokens) place target →
      Covers (separator first ++ token :: tokens) cursor target)
    (given : ∃ token tokens, group = token :: tokens) (covers : Covers group place following)
    (rest : Covers (remaining false groups ++ [[closing]]) following target) :
    Covers (remaining first (group :: groups) ++ [[closing]]) cursor target := by
  obtain ⟨token, tokens, rfl⟩ := given
  rw [remaining_cons, List.append_assoc]
  have whole := covers.append rest
  rw [List.cons_append] at whole ⊢
  rw [List.cons_append, List.append_assoc]
  exact announced whole

theorem elements_passed {item : Cursor → Reading α} (recognizes : Recognizes item) {fuel : Nat}
    {first : Bool} {backwards values : List α}
    (read : readElements item fuel first backwards cursor = .ok (values, place)) :
    ∃ docs : List Doc, (∀ doc ∈ docs, doc.WellFormed) ∧
      Covers (remaining first (docs.map Doc.tokens) ++ [[0x5D]]) cursor place := by
  induction fuel generalizing first backwards cursor with
  | zero => cases read
  | succ fuel induction =>
      rw [readElements] at read
      obtain ⟨more, following, next, goesOn⟩ := Reading.and_then_ok read
      rcases next_element_passed next with ⟨rfl, rfl, closes⟩ | ⟨rfl, announced⟩
      · cases goesOn
        refine ⟨[], List.forall_mem_nil _, ?_⟩
        cases first <;> exact .of_peek closes
      · obtain ⟨value, behind, found, others⟩ := Reading.and_then_ok goesOn
        obtain ⟨doc, formed, covers⟩ := recognizes found
        obtain ⟨docs, each, rest⟩ := induction others
        exact ⟨doc :: docs, List.forall_mem_cons.mpr ⟨formed, each⟩,
          covers_next announced (Doc.tokens_cons formed) covers rest⟩

theorem array_recognized {docs : List Doc} (each : ∀ doc ∈ docs, doc.WellFormed)
    (begun : cursor.skipBlanks.peek = some 0x5B)
    (covers : Covers (remaining true (docs.map Doc.tokens) ++ [[0x5D]])
      cursor.skipBlanks.advance place) :
    ∃ doc : Doc, doc.WellFormed ∧ Covers doc.tokens cursor place := by
  refine ⟨.array docs, Doc.well_formed_array_iff.mpr each, ?_⟩
  rw [Doc.tokens, element_tokens_eq]
  exact (Covers.of_peek begun).append covers

/-! ## Objects -/

theorem next_name_passed {first : Bool} {name? : Option String}
    (read : nextName first cursor = .ok (name?, place)) :
    (name? = none ∧ Covers [[0x7D]] cursor place.advance) ∨
      ∃ name key, name? = some name ∧ Denotes key (Bytes.ofText name) ∧
        Covers (separator first ++ [quoted key]) cursor place := by
  have atName {start : Cursor} {byte : UInt8} (begun : start.peek = some byte)
      (read : (if byte = 0x22 then (readTextLiteral start.advance).map some
        else if byte = 0x7D then start.failAhead (.grammar .trailingComma)
        else start.failAhead (.grammar .keyNotText) : Reading (Option String)) =
          .ok (name?, place)) :
      ∃ name key, name? = some name ∧ Denotes key (Bytes.ofText name) ∧
        start.rest = quoted key ++ place.rest := by
    split at read
    · rename_i isQuote
      obtain ⟨name, literal, rfl⟩ := Reading.map_ok read
      obtain ⟨key, denotes, passed⟩ := text_literal_passed literal
      refine ⟨name, key, rfl, denotes, ?_⟩
      rw [rest_of_peek begun, passed, isQuote, quoted]
      simp
    · split at read <;> cases read
  unfold nextName at read
  dsimp only at read
  split at read
  · cases read
  · rename_i byte begun
    split at read
    · rename_i closes
      cases read
      exact .inl ⟨rfl, .of_peek (closes ▸ begun)⟩
    · split at read
      · rename_i isFirst
        obtain ⟨name, key, same, denotes, passed⟩ := atName begun read
        subst isFirst
        exact .inr ⟨name, key, same, denotes, .of_token passed⟩
      · rename_i notFirst
        obtain rfl : first = false := by simpa using notFirst
        split at read
        · rename_i isComma
          split at read
          · cases read
          · rename_i next named
            obtain ⟨name, key, same, denotes, passed⟩ := atName named read
            exact .inr ⟨name, key, same, denotes,
              Covers.append (.of_peek (isComma ▸ begun)) (.of_token passed)⟩
        · cases read

theorem colon_passed (read : readColon cursor = .ok ((), place)) : Covers [[0x3A]] cursor place := by
  unfold readColon at read
  dsimp only at read
  split at read
  · cases read
  · rename_i byte begun
    split at read
    · rename_i isColon
      cases read
      exact .of_peek (isColon ▸ begun)
    · cases read

/-- Behind the name of a member its reader passes over a colon and a document. -/
def RecognizesMember (member : String → σ → Cursor → Reading σ) : Prop :=
  ∀ ⦃name : String⦄ ⦃state : σ⦄ ⦃cursor : Cursor⦄ ⦃changed : σ⦄ ⦃place : Cursor⦄,
    member name state cursor = .ok (changed, place) →
      ∃ doc : Doc, doc.WellFormed ∧ Covers ([0x3A] :: doc.tokens) cursor place

theorem behind_colon {reader : Cursor → Reading α} (recognizes : Recognizes reader) {value : α}
    (read : ((readColon cursor).andThen fun _ following => reader following) = .ok (value, place)) :
    ∃ doc : Doc, doc.WellFormed ∧ Covers ([0x3A] :: doc.tokens) cursor place := by
  obtain ⟨_, following, colon, found⟩ := Reading.and_then_ok read
  obtain ⟨doc, formed, covers⟩ := recognizes found
  exact ⟨doc, formed, (colon_passed colon).append covers⟩

theorem members_passed {member : String → σ → Cursor → Reading σ}
    (recognizes : RecognizesMember member) {fuel : Nat} {first : Bool} {state result : σ}
    (read : readMembers member fuel first state cursor = .ok (result, place)) :
    ∃ members : List (Bytes × Doc),
      (∀ entry ∈ members, (Doc.text entry.1).WellFormed ∧ entry.2.WellFormed) ∧
      Covers (remaining first (Doc.memberTokens members) ++ [[0x7D]]) cursor place := by
  induction fuel generalizing first state cursor with
  | zero => cases read
  | succ fuel induction =>
      rw [readMembers] at read
      obtain ⟨name?, following, next, goesOn⟩ := Reading.and_then_ok read
      rcases next_name_passed next with ⟨rfl, closes⟩ | ⟨name, key, rfl, denotes, covers⟩
      · cases goesOn
        refine ⟨[], List.forall_mem_nil _, ?_⟩
        cases first <;> exact closes
      · obtain ⟨changed, behind, found, others⟩ := Reading.and_then_ok goesOn
        obtain ⟨doc, formed, value⟩ := recognizes found
        obtain ⟨members, each, rest⟩ := induction others
        refine ⟨(key, doc) :: members,
          List.forall_mem_cons.mpr ⟨⟨denotes.well_formed, formed⟩, each⟩, ?_⟩
        rw [Doc.memberTokens, remaining_cons]
        have whole := (covers.append value).append rest
        simpa [remaining] using whole

theorem object_recognized {members : List (Bytes × Doc)}
    (each : ∀ entry ∈ members, (Doc.text entry.1).WellFormed ∧ entry.2.WellFormed)
    (begun : cursor.skipBlanks.peek = some 0x7B)
    (covers : Covers (remaining true (Doc.memberTokens members) ++ [[0x7D]])
      cursor.skipBlanks.advance place) :
    ∃ doc : Doc, doc.WellFormed ∧ Covers doc.tokens cursor place := by
  refine ⟨.object members, Doc.well_formed_object_iff.mpr each, ?_⟩
  rw [Doc.tokens]
  exact (Covers.of_peek begun).append covers

end LocalNet.Json
