import LocalNet.Json.Record
import LocalNet.Proofs.Json.Literals

/-!
# Lists and objects, member by member

Each loop is followed by induction on the members that are left; what it makes of them is a fold
over their meanings. The loops count their rounds, and a bracket has no more members than bytes.
-/

namespace LocalNet.Json

variable {α σ ρ : Type}

/-! ## The place of the next member -/

section Next

variable {cursor : Cursor} {text rest : Bytes} {tokens : List Bytes}

theorem next_element_end {first : Bool} (spaced : Spaced [[0x5D]] text)
    (given : cursor.rest = text ++ rest) :
    (nextElement first cursor).seen = some (false, 0x5D :: rest) := by
  obtain ⟨back, begins, ends, -⟩ := spaced.strip rest rfl
  obtain _ | _ := ends
  simp [nextElement, given, begins]

theorem next_element_more {first : Bool} {group : List Bytes} {groups : List (List Bytes)}
    {byte : UInt8} {token : Bytes} {others : List Bytes} (split : group = (byte :: token) :: others)
    (opening : Opening byte) (spaced : Spaced (remaining first (group :: groups) ++ tokens) text)
    (given : cursor.rest = text ++ rest) :
    ∃ back, (nextElement first cursor).seen = some (true, back ++ rest) ∧
      Spaced (group ++ (separated groups ++ tokens)) back := by
  cases first with
  | true =>
      have spaced : Spaced (group ++ (separated groups ++ tokens)) text := by
        simpa [remaining, joined] using spaced
      rw [split, List.cons_append] at spaced
      obtain ⟨back, begins, spacedBack, -⟩ := spaced.strip rest opening.notBlank
      refine ⟨byte :: token ++ back, ?_, by rw [split]; exact spacedBack.start⟩
      simp [nextElement, given, begins, opening.notSquare]
  | false =>
      have spaced : Spaced ([0x2C] :: (group ++ (separated groups ++ tokens))) text := by
        simpa [remaining, separated_cons] using spaced
      obtain ⟨middle, comma, spacedMiddle, -⟩ := spaced.strip rest rfl
      rw [split, List.cons_append] at spacedMiddle
      obtain ⟨back, begins, spacedBack, -⟩ := spacedMiddle.strip rest opening.notBlank
      refine ⟨byte :: token ++ back, ?_, by rw [split]; exact spacedBack.start⟩
      simp [nextElement, given, comma, begins, opening.notSquare]

theorem close_list_end (spaced : Spaced [[0x5D]] text) (given : cursor.rest = text ++ rest) :
    (closeList cursor).seen = some ((), rest) := by
  obtain ⟨back, begins, ends, -⟩ := spaced.strip rest rfl
  obtain _ | _ := ends
  simp [closeList, given, begins]

theorem close_list_more {first : Bool} {group : List Bytes} {groups : List (List Bytes)}
    {byte : UInt8} {token : Bytes} {others : List Bytes} (split : group = (byte :: token) :: others)
    (opening : Opening byte) (spaced : Spaced (remaining first (group :: groups) ++ tokens) text)
    (given : cursor.rest = text ++ rest) : (closeList cursor).seen = none := by
  cases first with
  | true =>
      have spaced : Spaced (group ++ (separated groups ++ tokens)) text := by
        simpa [remaining, joined] using spaced
      rw [split, List.cons_append] at spaced
      obtain ⟨back, begins, -, -⟩ := spaced.strip rest opening.notBlank
      simp only [closeList, Cursor.peek_eq, Cursor.rest_skip_blanks, given, begins,
        List.head?_cons, if_neg opening.notSquare]
      repeat' split
      all_goals rfl
  | false =>
      have spaced : Spaced ([0x2C] :: (group ++ (separated groups ++ tokens))) text := by
        simpa [remaining, separated_cons] using spaced
      obtain ⟨back, comma, -, -⟩ := spaced.strip rest rfl
      simp only [closeList, Cursor.peek_eq, Cursor.rest_skip_blanks, given, comma,
        List.head?_cons]
      rw [if_neg (by decide), if_pos trivial]
      split <;> rfl

theorem next_name_end {first : Bool} (spaced : Spaced [[0x7D]] text)
    (given : cursor.rest = text ++ rest) :
    (nextName first cursor).seen = some (none, 0x7D :: rest) := by
  obtain ⟨back, begins, ends, -⟩ := spaced.strip rest rfl
  obtain _ | _ := ends
  simp [nextName, given, begins]

theorem next_name_more {first : Bool} {key : Bytes} {group : List Bytes}
    {groups : List (List Bytes)} (spelled : Body key)
    (spaced : Spaced (remaining first ((quoted key :: group) :: groups) ++ tokens) text)
    (given : cursor.rest = text ++ rest) :
    ∃ back, (nextName first cursor).seen =
        ((textOf? key).map some).map (·, back ++ rest) ∧
      Spaced (group ++ (separated groups ++ tokens)) back := by
  have atName (place : Cursor) (text : Bytes)
      (spaced : Spaced (quoted key :: (group ++ (separated groups ++ tokens))) text)
      (given : place.rest = (text ++ rest).dropWhile Cursor.isBlank) :
      place.peek = some 0x22 ∧
        ∃ back, (readTextLiteral place.advance).seen = (textOf? key).map (·, back ++ rest) ∧
          Spaced (group ++ (separated groups ++ tokens)) back := by
    obtain ⟨back, begins, spacedBack, -⟩ := spaced.strip rest rfl
    exact ⟨by simp [given, begins], back, seen_text_literal spelled (by simp [given, begins]),
      spacedBack⟩
  cases first with
  | true =>
      have spaced : Spaced (quoted key :: (group ++ (separated groups ++ tokens))) text := by
        simpa [remaining, joined] using spaced
      obtain ⟨begun, back, literal, spacedBack⟩ :=
        atName cursor.skipBlanks text spaced (by simp [given])
      refine ⟨back, ?_, spacedBack⟩
      simp only [nextName, begun]
      rw [if_neg (by decide), if_pos trivial, if_pos trivial, Reading.seen_map, literal]
      cases textOf? key <;> rfl
  | false =>
      have spaced :
          Spaced ([0x2C] :: (quoted key :: (group ++ (separated groups ++ tokens)))) text := by
        simpa [remaining, separated_cons] using spaced
      obtain ⟨middle, comma, spacedMiddle, -⟩ := spaced.strip rest rfl
      obtain ⟨begun, back, literal, spacedBack⟩ :=
        atName cursor.skipBlanks.advance.skipBlanks middle spacedMiddle (by simp [given, comma])
      have atComma : cursor.skipBlanks.peek = some 0x2C := by simp [given, comma]
      refine ⟨back, ?_, spacedBack⟩
      simp only [nextName, atComma, begun]
      rw [if_neg (by decide), if_neg Bool.false_ne_true, if_pos trivial, if_pos trivial,
        Reading.seen_map, literal]
      cases textOf? key <;> rfl

theorem read_colon (spaced : Spaced ([0x3A] :: tokens) text) (given : cursor.rest = text ++ rest) :
    ∃ back, (readColon cursor).seen = some ((), back ++ rest) ∧ Spaced tokens back := by
  obtain ⟨back, begins, spacedBack, -⟩ := spaced.strip rest rfl
  exact ⟨back, by simp [readColon, given, begins], spacedBack⟩

end Next

/-! ## Loops -/

/-- What a reader makes of all documents of a list, if it makes something of each. -/
def meanings (reader : Cursor → Reading α) : List Doc → Option (List α)
  | [] => some []
  | doc :: docs =>
    (meaning reader doc).bind fun value => (meanings reader docs).map (value :: ·)

theorem meanings_replace {reader : Cursor → Reading α} {one two : Doc}
    (same : meaning reader one = meaning reader two) (before after : List Doc) :
    meanings reader (before ++ one :: after) = meanings reader (before ++ two :: after) := by
  induction before with
  | nil => rw [List.nil_append, List.nil_append, meanings, meanings, same]
  | cons doc before induction =>
      rw [List.cons_append, List.cons_append, meanings, meanings, induction]

theorem meanings_none {reader : Cursor → Reading α} {docs : List Doc} {doc : Doc}
    (listed : doc ∈ docs) (unread : meaning reader doc = none) : meanings reader docs = none := by
  induction docs with
  | nil => cases listed
  | cons first docs induction =>
      rw [meanings]
      rcases List.mem_cons.mp listed with rfl | later
      · rw [unread]
        rfl
      · cases meaning reader first with
        | none => rfl
        | some value => simp [induction later]

theorem read_elements_seen {item : Cursor → Reading α} {docs : List Doc}
    (yields : ∀ doc ∈ docs, Yields item doc (meaning item doc))
    (lexical : ∀ doc ∈ docs, doc.Lexical) {fuel : Nat} (enough : docs.length < fuel)
    (first : Bool) (backwards : List α) {text : Bytes} (rest : Bytes) {cursor : Cursor}
    (spaced : Spaced (remaining first (docs.map Doc.tokens) ++ [[0x5D]]) text)
    (given : cursor.rest = text ++ rest) :
    (readElements item fuel first backwards cursor).seen =
      (meanings item docs).map fun values => (backwards.reverse ++ values, rest) := by
  induction docs generalizing fuel first backwards text cursor with
  | nil =>
      obtain ⟨fuel, rfl⟩ := Nat.exists_eq_add_one_of_ne_zero (Nat.ne_zero_of_lt enough)
      have spaced : Spaced [[0x5D]] text := by
        cases first <;> simpa [remaining, joined, separated] using spaced
      rw [readElements]
      refine Reading.seen_goes_on _ (next_element_end spaced given) fun place ending => ?_
      simp [meanings, ending]
  | cons doc docs induction =>
      obtain ⟨fuel, rfl⟩ := Nat.exists_eq_add_one_of_ne_zero (Nat.ne_zero_of_lt enough)
      obtain ⟨byte, token, tokens, split, opening⟩ := (lexical doc (by simp)).opening
      obtain ⟨back, next, spacedBack⟩ := next_element_more split opening spaced given
      obtain ⟨front, behind, rfl, element, others⟩ := spacedBack.split
      have delimited : Delimited (behind ++ rest) :=
        separated_delimited (docs.map Doc.tokens) others (Or.inr (Or.inl rfl))
      rw [List.append_assoc] at next
      rw [readElements]
      refine Reading.seen_goes_on _ next fun place ending => ?_
      have read := yields doc (by simp) element delimited ending
      rw [if_pos rfl, Reading.seen_and_then (fun value => (meanings item docs).map fun values =>
        (backwards.reverse ++ value :: values, rest)) read]
      · rw [meanings]
        cases meaning item doc with
        | none => rfl
        | some value => cases meanings item docs <;> rfl
      · intro value following _ place
        rw [induction (fun other member => yields other (by simp [member]))
          (fun other member => lexical other (by simp [member])) (by simp at enough; omega)
          false _ others place]
        simp

/-- What an object comes to where every member acts on a state under its name. -/
def walkMembers (step : σ → String → Doc → Option σ) :
    σ → List (Bytes × Doc) → Option σ
  | state, [] => some state
  | state, (key, value) :: members =>
    (textOf? key).bind fun name =>
      (step state name value).bind fun changed => walkMembers step changed members

theorem read_members_seen {member : String → σ → Cursor → Reading σ}
    {step : σ → String → Doc → Option σ} {members : List (Bytes × Doc)}
    (acts : ∀ entry ∈ members, ∀ (name : String) (state : σ) (text rest : Bytes)
      (cursor : Cursor), Spaced ([0x3A] :: entry.2.tokens) text → Delimited rest →
      cursor.rest = text ++ rest →
      (member name state cursor).seen = (step state name entry.2).map (·, rest))
    (keys : ∀ entry ∈ members, Body entry.1) {fuel : Nat} (enough : members.length < fuel)
    (first : Bool) (state : σ) {text : Bytes} (rest : Bytes) {cursor : Cursor}
    (spaced : Spaced (remaining first (Doc.memberTokens members) ++ [[0x7D]]) text)
    (given : cursor.rest = text ++ rest) :
    (readMembers member fuel first state cursor).seen =
      (walkMembers step state members).map (·, rest) := by
  induction members generalizing fuel first state text cursor with
  | nil =>
      obtain ⟨fuel, rfl⟩ := Nat.exists_eq_add_one_of_ne_zero (Nat.ne_zero_of_lt enough)
      have spaced : Spaced [[0x7D]] text := by
        cases first <;> simpa [remaining, joined, separated, Doc.memberTokens] using spaced
      rw [readMembers]
      refine Reading.seen_goes_on _ (next_name_end spaced given) fun place ending => ?_
      simp [walkMembers, ending]
  | cons entry members induction =>
      obtain ⟨fuel, rfl⟩ := Nat.exists_eq_add_one_of_ne_zero (Nat.ne_zero_of_lt enough)
      obtain ⟨key, value⟩ := entry
      rw [Doc.memberTokens] at spaced
      obtain ⟨back, next, spacedBack⟩ :=
        next_name_more (keys (key, value) (by simp)) spaced given
      obtain ⟨front, behind, rfl, entry, others⟩ := spacedBack.split
      have delimited : Delimited (behind ++ rest) :=
        separated_delimited (Doc.memberTokens members) others (Or.inr (Or.inr rfl))
      rw [List.append_assoc] at next
      rw [readMembers, Reading.seen_and_then (fun name? =>
        name?.bind fun name => (step state name value).bind fun changed =>
          (walkMembers step changed members).map (·, rest)) next]
      · rw [walkMembers]
        cases textOf? key with
        | none => rfl
        | some name =>
            simp only [Option.map_some, Option.bind_some]
            cases step state name value <;> rfl
      · rintro name? place found ending
        obtain ⟨name, -, rfl⟩ := Option.map_eq_some_iff.mp found
        refine Reading.seen_and_then _
          (acts (key, value) (by simp) name state front (behind ++ rest) place entry delimited
            ending) fun changed following _ remains => ?_
        exact induction (fun other inside => acts other (by simp [inside]))
          (fun other inside => keys other (by simp [inside])) (by simp at enough; omega)
          false _ others remains

def Record.fill? {ε : Type} (make : Field ρ → ε → Option (ρ → ρ)) :
    List (Field ρ) → List ε → ρ → Option ρ
  | [], [], value => some value
  | [], _ :: _, _ => none
  | field :: fields, [], value =>
    if field.requiredByPlace then none else fill? make fields [] value
  | field :: fields, element :: elements, value =>
    (make field element).bind fun change => fill? make fields elements (change value)

theorem read_fields_seen {record : Record ρ} {depth : Nat} {fields : List (Field ρ)}
    (uniform : ∀ field ∈ fields, Uniform (field.store.read depth)) {docs : List Doc}
    (lexical : ∀ doc ∈ docs, doc.Lexical) {place : Nat} (first : Bool) {value : ρ}
    {text rest : Bytes} {cursor : Cursor}
    (spaced : Spaced (remaining first (docs.map Doc.tokens) ++ [[0x5D]]) text)
    (given : cursor.rest = text ++ rest) :
    (record.readFields depth place first fields value cursor).seen =
      (Record.fill? (fun field => meaning (field.store.read depth)) fields docs value).map
        (·, rest) := by
  induction fields generalizing docs place first value text cursor with
  | nil =>
      cases docs with
      | nil =>
          have spaced : Spaced [[0x5D]] text := by
            cases first <;> simpa [remaining, joined, separated] using spaced
          rw [Record.readFields, Reading.seen_map, close_list_end spaced given]
          rfl
      | cons doc docs =>
          obtain ⟨byte, token, tokens, split, opening⟩ := (lexical doc (by simp)).opening
          rw [Record.readFields, Reading.seen_map, close_list_more split opening spaced given]
          rfl
  | cons field fields induction =>
      have others : ∀ field ∈ fields, Uniform (field.store.read depth) :=
        fun other member => uniform other (by simp [member])
      cases docs with
      | nil =>
          have ends : Spaced [[0x5D]] text := by
            cases first <;> simpa [remaining, joined, separated] using spaced
          rw [Record.readFields]
          refine Reading.seen_goes_on _ (next_element_end ends given) fun following ending => ?_
          rw [if_neg Bool.false_ne_true, Record.fill?]
          split
          · rfl
          · have closing : Spaced (remaining first [] ++ [[0x5D]]) [0x5D] := by
              cases first <;> exact spaced_flatten [[0x5D]]
            exact induction others lexical first closing ending
      | cons doc docs =>
          obtain ⟨byte, token, tokens, split, opening⟩ := (lexical doc (by simp)).opening
          have stored := (uniform field (by simp)).yields (lexical doc (by simp))
          obtain ⟨back, next, spacedBack⟩ := next_element_more split opening spaced given
          obtain ⟨front, behind, rfl, element, separator⟩ := spacedBack.split
          have delimited : Delimited (behind ++ rest) :=
            separated_delimited (docs.map Doc.tokens) separator (Or.inr (Or.inl rfl))
          rw [List.append_assoc] at next
          rw [Record.readFields, Record.fill?, Option.map_bind]
          refine Reading.seen_goes_on _ next fun following ending => ?_
          rw [if_pos rfl]
          exact Reading.seen_and_then _ (stored element delimited ending)
            fun change place _ remains =>
              induction others (fun other member => lexical other (by simp [member])) false
                separator remains

end LocalNet.Json
