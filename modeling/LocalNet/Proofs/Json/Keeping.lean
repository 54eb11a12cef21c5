import LocalNet.Proofs.Json.Acceptance
import LocalNet.Proofs.Json.Encoding
import LocalNet.Proofs.Tables

/-!
# Which documents are kept

A document is kept exactly if it is not nested too deep and every literal in it can be read. Of the
members of an object the last one of each name is kept.
-/

namespace LocalNet.Json

variable {α σ : Type}

/-- No more than `depth` brackets of the document stand in each other. -/
inductive Doc.Within : (depth : Nat) → Doc → Prop where
  | word {depth : Nat} {spelled : Word} : Within depth (.word spelled)
  | number {depth : Nat} {literal : Bytes} : Within depth (.number literal)
  | text {depth : Nat} {body : Bytes} : Within depth (.text body)
  | array {depth : Nat} {elements : List Doc} (each : ∀ element ∈ elements, Within depth element) :
      Within (depth + 1) (.array elements)
  | object {depth : Nat} {members : List (Bytes × Doc)}
      (each : ∀ member ∈ members, Within depth member.2) : Within (depth + 1) (.object members)

/-- Every string and every number of a document can be read. -/
structure Doc.Readable (doc : Doc) : Prop where
  bodies : ∀ body ∈ doc.bodies, ∃ text, textOf? body = some text
  numerals : ∀ literal ∈ doc.numerals, ∃ number, numberOf? literal = some number

namespace Doc

theorem within_array_iff {depth : Nat} {elements : List Doc} :
    (Doc.array elements).Within (depth + 1) ↔ ∀ element ∈ elements, element.Within depth :=
  ⟨fun within => by cases within; assumption, .array⟩

theorem within_object_iff {depth : Nat} {members : List (Bytes × Doc)} :
    (Doc.object members).Within (depth + 1) ↔ ∀ member ∈ members, member.2.Within depth :=
  ⟨fun within => by cases within; assumption, .object⟩

theorem readable_array_iff {elements : List Doc} :
    (Doc.array elements).Readable ↔ ∀ element ∈ elements, element.Readable := by
  constructor
  · intro readable element listed
    exact ⟨fun body inside => readable.bodies body (mem_element_bodies.mpr ⟨element, listed, inside⟩),
      fun literal inside =>
        readable.numerals literal (mem_element_numerals.mpr ⟨element, listed, inside⟩)⟩
  · intro each
    constructor
    · intro body inside
      obtain ⟨element, listed, held⟩ := mem_element_bodies.mp inside
      exact (each element listed).bodies body held
    · intro literal inside
      obtain ⟨element, listed, held⟩ := mem_element_numerals.mp inside
      exact (each element listed).numerals literal held

theorem readable_object_iff {members : List (Bytes × Doc)} :
    (Doc.object members).Readable ↔
      ∀ member ∈ members, (∃ name, textOf? member.1 = some name) ∧ member.2.Readable := by
  constructor
  · intro readable member listed
    refine ⟨readable.bodies _ (mem_member_bodies.mpr ⟨member, listed, .inl rfl⟩), ?_, ?_⟩
    · exact fun body inside =>
        readable.bodies body (mem_member_bodies.mpr ⟨member, listed, .inr inside⟩)
    · exact fun literal inside =>
        readable.numerals literal (mem_member_numerals.mpr ⟨member, listed, inside⟩)
  · intro each
    constructor
    · intro body inside
      obtain ⟨member, listed, rfl | held⟩ := mem_member_bodies.mp inside
      · exact (each member listed).1
      · exact (each member listed).2.bodies body held
    · intro literal inside
      obtain ⟨member, listed, held⟩ := mem_member_numerals.mp inside
      exact (each member listed).2.numerals literal held

end Doc

/-! ## Lists -/

theorem meanings_iff {reader : Cursor → Reading α} {docs : List Doc} :
    (∃ values, meanings reader docs = some values) ↔
      ∀ doc ∈ docs, ∃ value, meaning reader doc = some value := by
  induction docs with
  | nil => simp [meanings]
  | cons doc docs induction =>
      rw [List.forall_mem_cons, ← induction]
      simp only [meanings, Option.bind_eq_some_iff, Option.map_eq_some_iff]
      constructor
      · rintro ⟨_, value, first, values, others, -⟩
        exact ⟨⟨value, first⟩, values, others⟩
      · rintro ⟨⟨value, first⟩, values, others⟩
        exact ⟨value :: values, value, first, values, others, rfl⟩

/-! ## Objects -/

/-- The members of an object under their names, in the order in which they stand. -/
def Entries (depth : Nat) (members : List (Bytes × Doc)) (entries : List (String × Value)) : Prop :=
  List.Forall₂ (fun member entry => textOf? member.1 = some entry.1 ∧
    Decoder.keptAt? depth member.2 = some entry.2) members entries

def putAll (entries held : List (String × Value)) : List (String × Value) :=
  entries.foldl (fun held entry => putMember entry.1 entry.2 held) held

theorem walk_entries_iff {depth : Nat} {members : List (Bytes × Doc)}
    (lexical : ∀ member ∈ members, member.2.Lexical) {held result : List (String × Value)} :
    walkMembers (fun held name doc =>
        (meaning (readValue depth) doc).map fun value => putMember name value held) held members =
        some result ↔
      ∃ entries, Entries depth members entries ∧ result = putAll entries held := by
  induction members generalizing held with
  | nil =>
      rw [walkMembers]
      constructor
      · rintro ⟨⟩
        exact ⟨[], .nil, rfl⟩
      · rintro ⟨_, ⟨⟩, rfl⟩
        rfl
  | cons member members induction =>
      obtain ⟨key, doc⟩ := member
      obtain ⟨here, others⟩ := List.forall_mem_cons.mp lexical
      have means := (Decoder.kept_yields here depth).meaning_eq
      dsimp only at means
      simp only [walkMembers, Option.bind_eq_some_iff, Option.map_eq_some_iff, means]
      constructor
      · rintro ⟨name, spelled, _, ⟨value, kept, rfl⟩, walked⟩
        obtain ⟨entries, each, rfl⟩ := (induction others).mp walked
        exact ⟨(name, value) :: entries, .cons ⟨spelled, kept⟩ each, rfl⟩
      · rintro ⟨_, _ | ⟨⟨spelled, kept⟩, each⟩, rfl⟩
        exact ⟨_, spelled, _, ⟨_, kept, rfl⟩, (induction others).mpr ⟨_, each, rfl⟩⟩

theorem kept_object_iff {depth : Nat} {members : List (Bytes × Doc)}
    (lexical : (Doc.object members).Lexical) {value : Value} :
    Decoder.keptAt? (depth + 1) (.object members) = some value ↔
      ∃ entries, Entries depth members entries ∧ value = .object (putAll entries []) := by
  have lexicals : ∀ member ∈ members, member.2.Lexical := fun member => lexical.value
  simp only [Decoder.keptAt?, Option.map_eq_some_iff, walk_entries_iff lexicals]
  constructor
  · rintro ⟨_, ⟨entries, each, rfl⟩, rfl⟩
    exact ⟨entries, each, rfl⟩
  · rintro ⟨entries, each, rfl⟩
    exact ⟨_, ⟨entries, each, rfl⟩, rfl⟩

/-! ## The last member of a name -/

theorem lookup_put_member (name other : String) (value : Value) (held : List (String × Value)) :
    (putMember name value held).lookup other = ((name, value) :: held).lookup other := by
  induction held with
  | nil => rfl
  | cons entry held induction =>
      obtain ⟨first, stored⟩ := entry
      rw [putMember]
      split
      · rename_i same
        subst same
        simp only [List.lookup_cons]
        cases other == name <;> rfl
      · rename_i apart
        split
        · rfl
        · -- The member goes further back, past another name.
          simp only [List.lookup_cons] at induction ⊢
          rw [induction]
          by_cases here : other = name
          · subst here
            rw [beq_self_eq_true, beq_false_of_ne apart]
          · rw [beq_false_of_ne here]

theorem lookup_put_all (entries held : List (String × Value)) (name : String) :
    (putAll entries held).lookup name = (entries.reverse ++ held).lookup name := by
  induction entries generalizing held with
  | nil => rfl
  | cons entry entries induction =>
      have put := induction (putMember entry.1 entry.2 held)
      rw [List.lookup_append, lookup_put_member, ← List.lookup_append] at put
      rw [List.reverse_cons, List.append_assoc]
      exact put

theorem lookup_put_all_iff {entries : List (String × Value)} {name : String} {value : Value} :
    (putAll entries []).lookup name = some value ↔
      ∃ before after, entries = before ++ (name, value) :: after ∧
        ∀ entry ∈ after, entry.1 ≠ name := by
  rw [lookup_put_all, List.append_nil, List.lookup_eq_some_iff]
  constructor
  · rintro ⟨later, earlier, split, others⟩
    refine ⟨earlier.reverse, later.reverse, ?_, fun entry inside => ?_⟩
    · rw [← List.reverse_reverse entries, split]
      simp
    · exact (bne_iff_ne.mp (others entry (List.mem_reverse.mp inside))).symm
  · rintro ⟨earlier, later, rfl, others⟩
    refine ⟨later.reverse, earlier.reverse, by simp, fun entry inside => ?_⟩
    exact bne_iff_ne.mpr (others entry (List.mem_reverse.mp inside)).symm

/-! ## Documents -/

theorem brackets_need_depth {doc : Doc} (bracket : ¬doc.Within 0)
    (none : Decoder.keptAt? 0 doc = none) :
    (∃ value, Decoder.keptAt? 0 doc = some value) ↔ doc.Within 0 ∧ doc.Readable := by
  simp [bracket, none]

theorem kept_array_iff {depth : Nat} {elements : List Doc} (lexical : (Doc.array elements).Lexical) :
    (∃ value, Decoder.keptAt? (depth + 1) (.array elements) = some value) ↔
      ∀ element ∈ elements, ∃ value, Decoder.keptAt? depth element = some value := by
  have each : (∃ values, meanings (readValue depth) elements = some values) ↔ _ := meanings_iff
  have same : ∀ element ∈ elements,
      meaning (readValue depth) element = Decoder.keptAt? depth element :=
    fun element listed => (Decoder.kept_yields (lexical.element listed) depth).meaning_eq
  calc
    (∃ value, Decoder.keptAt? (depth + 1) (.array elements) = some value) ↔
        ∃ values, meanings (readValue depth) elements = some values := by
      simp only [Decoder.keptAt?, Option.map_eq_some_iff]
      constructor
      · rintro ⟨_, values, read, -⟩
        exact ⟨values, read⟩
      · rintro ⟨values, read⟩
        exact ⟨_, values, read, rfl⟩
    _ ↔ ∀ element ∈ elements, ∃ value, meaning (readValue depth) element = some value := each
    _ ↔ _ := forall₂_congr fun element listed => by rw [same element listed]

theorem kept_members_iff {depth : Nat} {members : List (Bytes × Doc)}
    (lexical : (Doc.object members).Lexical) :
    (∃ value, Decoder.keptAt? (depth + 1) (.object members) = some value) ↔
      ∀ member ∈ members, (∃ name, textOf? member.1 = some name) ∧
        ∃ value, Decoder.keptAt? depth member.2 = some value := by
  have each : (∃ entries, Entries depth members entries) ↔ _ := related_list_iff
  calc
    (∃ value, Decoder.keptAt? (depth + 1) (.object members) = some value) ↔
        ∃ entries, Entries depth members entries := by
      simp only [kept_object_iff lexical]
      constructor
      · rintro ⟨_, entries, read, -⟩
        exact ⟨entries, read⟩
      · rintro ⟨entries, read⟩
        exact ⟨_, entries, read, rfl⟩
    _ ↔ _ := each
    _ ↔ _ := forall₂_congr fun member _ => by rw [Prod.exists, exists_and_exists_comm]

/-- A document is kept exactly if it is not nested too deep and all of it can be read. -/
theorem kept_iff {doc : Doc} (lexical : doc.Lexical) {depth : Nat} :
    (∃ value, Decoder.keptAt? depth doc = some value) ↔ doc.Within depth ∧ doc.Readable := by
  induction doc using Doc.induct generalizing depth with
  | word spelled =>
      have kept : ∃ value, Decoder.keptAt? depth (.word spelled) = some value := by
        cases spelled <;> exact ⟨_, rfl⟩
      have readable : (Doc.word spelled).Readable :=
        ⟨List.forall_mem_nil _, List.forall_mem_nil _⟩
      exact iff_of_true kept ⟨.word, readable⟩
  | number literal =>
      constructor
      · rintro ⟨value, kept⟩
        obtain ⟨number, read, -⟩ := Option.map_eq_some_iff.mp kept
        exact ⟨.number, List.forall_mem_nil _, List.forall_mem_singleton.mpr ⟨number, read⟩⟩
      · rintro ⟨-, readable⟩
        obtain ⟨number, read⟩ := readable.numerals literal (List.mem_singleton.mpr rfl)
        exact ⟨_, Option.map_eq_some_iff.mpr ⟨number, read, rfl⟩⟩
  | text body =>
      constructor
      · rintro ⟨value, kept⟩
        obtain ⟨text, read, -⟩ := Option.map_eq_some_iff.mp kept
        exact ⟨.text, List.forall_mem_singleton.mpr ⟨text, read⟩, List.forall_mem_nil _⟩
      · rintro ⟨-, readable⟩
        obtain ⟨text, read⟩ := readable.bodies body (List.mem_singleton.mpr rfl)
        exact ⟨_, Option.map_eq_some_iff.mpr ⟨text, read, rfl⟩⟩
  | array elements induction =>
      cases depth with
      | zero => exact brackets_need_depth (by rintro ⟨⟩) rfl
      | succ depth =>
          rw [kept_array_iff lexical, Doc.within_array_iff, Doc.readable_array_iff, ← forall₂_and]
          exact forall₂_congr fun element listed => induction element listed (lexical.element listed)
  | object members induction =>
      cases depth with
      | zero => exact brackets_need_depth (by rintro ⟨⟩) rfl
      | succ depth =>
          rw [kept_members_iff lexical, Doc.within_object_iff, Doc.readable_object_iff,
            ← forall₂_and]
          refine forall₂_congr fun member listed => ?_
          rw [induction member listed (lexical.value listed)]
          exact and_left_comm

/-! ## What is kept of a member -/

/-- What stands under a name in the outermost object; of members of one name it is the last. -/
def Doc.Settles (doc : Doc) (name : String) (value : Doc) : Prop :=
  ∃ before key after, doc = .object (before ++ (key, value) :: after) ∧
    Denotes key (Bytes.ofText name) ∧ ∀ member ∈ after, ¬Denotes member.1 (Bytes.ofText name)

theorem Doc.Settles.lexical {doc member : Doc} {name : String} (settles : doc.Settles name member)
    (lexical : doc.Lexical) : member.Lexical := by
  obtain ⟨before, key, after, rfl, -⟩ := settles
  have listed : (key, member) ∈ before ++ (key, member) :: after := by simp
  exact lexical.value listed

theorem kept_object {depth : Nat} {doc : Doc} {members : List (String × Value)}
    (kept : Decoder.keptAt? depth doc = some (.object members)) :
    ∃ inner listed, depth = inner + 1 ∧ doc = .object listed := by
  rcases doc with word | literal | body | elements | listed
  · cases word <;> cases kept
  · obtain ⟨_, -, ⟨⟩⟩ := Option.map_eq_some_iff.mp kept
  · obtain ⟨_, -, ⟨⟩⟩ := Option.map_eq_some_iff.mp kept
  · obtain ⟨_, -, ⟨⟩⟩ := Option.map_eq_some_iff.mp kept
  · cases depth with
    | zero => cases kept
    | succ inner => exact ⟨inner, listed, rfl, rfl⟩

theorem kept_number_iff {depth : Nat} {doc : Doc} {number : Number} :
    Decoder.keptAt? depth doc = some (.number number) ↔
      ∃ literal, doc = .number literal ∧ numberOf? literal = some number := by
  constructor
  · intro kept
    rcases doc with word | literal | body | elements | listed
    · cases word <;> cases kept
    · obtain ⟨_, read, ⟨⟩⟩ := Option.map_eq_some_iff.mp kept
      exact ⟨literal, rfl, read⟩
    · obtain ⟨_, -, ⟨⟩⟩ := Option.map_eq_some_iff.mp kept
    · obtain ⟨_, -, ⟨⟩⟩ := Option.map_eq_some_iff.mp kept
    · cases depth with
      | zero => cases kept
      | succ inner => obtain ⟨_, -, ⟨⟩⟩ := Option.map_eq_some_iff.mp kept
  · rintro ⟨literal, rfl, read⟩
    exact Option.map_eq_some_iff.mpr ⟨number, read, rfl⟩

theorem kept_member_iff {doc : Doc} (lexical : doc.Lexical) {depth : Nat} {value found : Value}
    (kept : Decoder.keptAt? (depth + 1) doc = some value) {name : String} :
    value.member? name = some found ↔
      ∃ member, doc.Settles name member ∧ Decoder.keptAt? depth member = some found := by
  constructor
  · intro given
    cases value with
    | object held =>
        obtain ⟨_, listed, ⟨⟩, rfl⟩ := kept_object kept
        obtain ⟨entries, each, same⟩ := (kept_object_iff lexical).mp kept
        cases same
        obtain ⟨before, after, rfl, later⟩ := lookup_put_all_iff.mp given
        obtain ⟨front, ⟨key, member⟩, back, rfl, ⟨spelled, read⟩, behind⟩ := related_middle each.flip
        refine ⟨member, ⟨front, key, back, rfl, ?_, fun other listed denotes => ?_⟩, read⟩
        · exact (text_of_iff (lexical.key (by simp))).mp spelled
        · obtain ⟨entry, inside, known, -⟩ := related_each behind.flip other listed
          have again := (text_of_iff (lexical.key (by simp [listed]))).mpr denotes
          exact later entry inside (Option.some.inj (known.symm.trans again))
    | _ => cases given
  · rintro ⟨member, ⟨front, key, back, rfl, denotes, later⟩, read⟩
    obtain ⟨entries, each, rfl⟩ := (kept_object_iff lexical).mp kept
    obtain ⟨before, ⟨spelled, value⟩, after, rfl, ⟨known, alsoRead⟩, behind⟩ := related_middle each
    have listed : (key, member) ∈ front ++ (key, member) :: back := by simp
    have first := (text_of_iff (lexical.key listed)).mpr denotes
    obtain rfl : name = spelled := Option.some.inj (first.symm.trans known)
    obtain rfl : found = value := Option.some.inj (read.symm.trans alsoRead)
    refine lookup_put_all_iff.mpr ⟨before, after, rfl, fun entry inside same => ?_⟩
    obtain ⟨other, listed, again, -⟩ := related_each behind.flip entry inside
    rw [same] at again
    exact later other listed ((text_of_iff (lexical.key (by simp [listed]))).mp again)

/-! ## Valid texts -/

/-- A text is the document in UTF-8, and there is no error in it anywhere: every string denotes a text,
no number is too great for a double, and brackets are not nested too deep. -/
structure Doc.Valid (doc : Doc) (text : Bytes) : Prop where
  formed : doc.WellFormed
  spelled : doc.Spells text
  encoded : Bytes.IsUtf8 text
  meant : ∀ body ∈ doc.bodies, ∃ meant, Denotes body meant
  inRange : ∀ literal ∈ doc.numerals, (numberOf? literal).isSome
  nested : doc.Within maximalDepth

theorem valid_iff {doc : Doc} {text : Bytes} :
    doc.Valid text ↔
      doc.WellFormed ∧ doc.Spells text ∧ ∃ value, Decoder.keptAt? maximalDepth doc = some value := by
  constructor
  · intro valid
    have lexical := valid.formed.toLexical
    refine ⟨valid.formed, valid.spelled, (kept_iff lexical).mpr ⟨valid.nested, ?_, ?_⟩⟩
    · intro body inside
      have encoded := (lexical.utf8_iff valid.spelled).mp valid.encoded body inside
      exact (is_text_iff (lexical.bodies body inside)).mpr ⟨valid.meant body inside, encoded⟩
    · exact fun literal inside => Option.isSome_iff_exists.mp (valid.inRange literal inside)
  · rintro ⟨formed, spelled, kept⟩
    have lexical := formed.toLexical
    obtain ⟨nested, bodies, numerals⟩ := (kept_iff lexical).mp kept
    have texts := fun body inside =>
      (is_text_iff (lexical.bodies body inside)).mp (bodies body inside)
    exact {
      formed := formed
      spelled := spelled
      encoded := (lexical.utf8_iff spelled).mpr fun body inside => (texts body inside).2
      meant := fun body inside => (texts body inside).1
      inRange := fun literal inside => Option.isSome_iff_exists.mpr (numerals literal inside)
      nested := nested }

end LocalNet.Json
