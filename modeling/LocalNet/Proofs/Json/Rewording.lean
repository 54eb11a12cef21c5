import LocalNet.Proofs.Json.Showing

/-!
# Rewording an object

An object may be written down in other ways that mean the same to a record: its members in another
order, further members that the record does not know, defaults spelled out, and the same again in
members that are records themselves.
-/

namespace LocalNet.Json

variable {ρ : Type}

namespace Record

/-- `defaults` holds the default of each field, in every form in which it may be written, and
`within` tells what may be reworded inside a member. -/
inductive Rewords (record : Record ρ) (defaults : List (String × Value))
    (within : String → Doc → Doc → Prop) : List (Bytes × Doc) → List (Bytes × Doc) → Prop where
  | reordered {members others : List (Bytes × Doc)} (permuted : members.Perm others) :
      Rewords record defaults within members others
  | extended {members : List (Bytes × Doc)} {key : Bytes} {name : String} {doc : Doc}
      (body : Body key) (spelled : textOf? key = some name) (unknown : name ∉ record.names)
      (formed : doc.WellFormed) : Rewords record defaults within members ((key, doc) :: members)
  | spelledOut {members : List (Bytes × Doc)} {key : Bytes} {name : String} {doc : Doc}
      {value : Value} (body : Body key) (spelled : textOf? key = some name)
      (missing : ∀ member ∈ members, textOf? member.1 ≠ some name)
      (default : (name, value) ∈ defaults) (shows : doc.Shows value) (formed : doc.WellFormed) :
      Rewords record defaults within members ((key, doc) :: members)
  | inside {before after : List (Bytes × Doc)} {key : Bytes} {name : String} {doc other : Doc}
      (spelled : textOf? key = some name) (reworded : within name doc other) :
      Rewords record defaults within (before ++ (key, doc) :: after)
        (before ++ (key, other) :: after)
  | trans {first second third : List (Bytes × Doc)}
      (left : Rewords record defaults within first second)
      (right : Rewords record defaults within second third) :
      Rewords record defaults within first third

/-- A name that the record knows stands twice, or something is repeated inside a member. -/
inductive Repeats (record : Record ρ) (within : String → Doc → Prop) :
    List (Bytes × Doc) → Prop where
  | twice {members others : List (Bytes × Doc)} {first second : Bytes × Doc} {name : String}
      (known : name ∈ record.names) (one : textOf? first.1 = some name)
      (two : textOf? second.1 = some name) (permuted : members.Perm (first :: second :: others)) :
      Repeats record within members
  | inside {members : List (Bytes × Doc)} {member : Bytes × Doc} {name : String}
      (listed : member ∈ members) (spelled : textOf? member.1 = some name)
      (repeated : within name member.2) : Repeats record within members

/-- Decoding does not tell a text from its rewordings and refuses repetitions. -/
structure Indifferent (record : Record ρ)
    (rewords : List (Bytes × Doc) → List (Bytes × Doc) → Prop)
    (repeats : List (Bytes × Doc) → Prop) : Prop where
  reworded : ∀ (members others : List (Bytes × Doc)) (text other : Bytes) (result : ρ),
    (Doc.object members).Lexical → (Doc.object members).Spells text → rewords members others →
    (Doc.object others).Spells other → record.decoder.fromText text = .ok result →
    record.decoder.fromText other = .ok result
  repeated : ∀ (members : List (Bytes × Doc)) (text : Bytes) (result : ρ),
    (Doc.object members).Lexical → (Doc.object members).Spells text → repeats members →
    record.decoder.fromText text ≠ .ok result

variable {record : Record ρ} {defaults : List (String × Value)}

theorem field_of_listed {name : String} (known : name ∈ record.names) :
    ∃ field, record.field? name = some field := by
  obtain ⟨field, listed, rfl⟩ := List.mem_map.mp known
  exact Option.isSome_iff_exists.mp (List.find?_isSome.mpr ⟨field, listed, by simp⟩)

theorem no_field_of_unlisted {name : String} (unknown : name ∉ record.names) :
    record.field? name = none := by
  refine List.find?_eq_none.mpr fun field listed same => unknown ?_
  exact List.mem_map.mpr ⟨field, listed, of_decide_eq_true same⟩

/-- The default of a field, as a value, leaves a blank record as it is. -/
def IsDefault (record : Record ρ) (name : String) (value : Value) : Prop :=
  ∃ field change, record.field? name = some field ∧ field.store.Agrees value ∧
    field.store.ofValue value = .ok change ∧ change record.blank = record.blank

/-- Inside a member, other wording is still lexical and read alike. -/
def ReadsAlike (record : Record ρ) (depth : Nat) (name : String) (doc other : Doc) : Prop :=
  ∃ field, record.field? name = some field ∧
    (doc.Lexical → other.Lexical ∧
      meaning (field.store.read depth) doc = meaning (field.store.read depth) other)

theorem rewords_sound (orderless : record.Orderless) {depth : Nat}
    {within : String → Doc → Doc → Prop}
    (documented : ∀ entry ∈ defaults, record.IsDefault entry.1 entry.2 ∧
      entry.2.NestedWithin depth)
    (alike : ∀ name doc other, within name doc other → record.ReadsAlike depth name doc other)
    {members others : List (Bytes × Doc)}
    (rewords : record.Rewords defaults within members others)
    (lexical : (Doc.object members).Lexical) :
    (Doc.object others).Lexical ∧
      record.objectAt? depth members = record.objectAt? depth others := by
  induction rewords with
  | reordered permuted =>
      rw [Doc.lexical_object_iff] at lexical ⊢
      exact ⟨fun member listed => lexical member (permuted.mem_iff.mpr listed),
        object_perm orderless permuted⟩
  | @extended members key name doc body spelled unknown formed =>
      rw [Doc.lexical_object_iff] at lexical ⊢
      refine ⟨?_, (object_pass_over orderless spelled (no_field_of_unlisted unknown)
        formed.noControls members).symm⟩
      exact List.forall_mem_cons.mpr ⟨⟨body, formed.toLexical⟩, lexical⟩
  | @spelledOut members key name doc value body spelled missing default shows formed =>
      -- The default is decoded as a value; the document that shows it is read to the same change.
      obtain ⟨⟨field, change, known, agrees, stored, same⟩, nested⟩ := documented _ default
      have made := agrees depth doc change formed shows nested stored
      rw [Doc.lexical_object_iff] at lexical ⊢
      refine ⟨List.forall_mem_cons.mpr ⟨⟨body, formed.toLexical⟩, lexical⟩, ?_⟩
      exact (object_default orderless spelled known made same missing).symm
  | @inside before after key name doc other spelled reworded =>
      obtain ⟨field, known, same⟩ := alike name doc other reworded
      have listed : (key, doc) ∈ before ++ (key, doc) :: after := by simp
      obtain ⟨otherLexical, read⟩ := same (lexical.value listed)
      refine ⟨lexical.replace_value otherLexical, object_replace orderless fun draft => ?_⟩
      simp only [act?, spelled, Option.bind_some, member_at_known known, read]
  | trans _ _ first second =>
      obtain ⟨middle, same⟩ := first lexical
      obtain ⟨last, also⟩ := second middle
      exact ⟨last, same.trans also⟩

theorem repeats_refused (orderless : record.Orderless) {depth : Nat}
    {within : String → Doc → Prop}
    (refused : ∀ name doc, within name doc → doc.Lexical →
      ∃ field, record.field? name = some field ∧
        meaning (field.store.read depth) doc = none)
    {members : List (Bytes × Doc)} (repeats : record.Repeats within members)
    (lexical : (Doc.object members).Lexical) : record.objectAt? depth members = none := by
  cases repeats with
  | twice known one two permuted =>
      obtain ⟨field, found⟩ := field_of_listed known
      exact object_repeated orderless found one two permuted
  | inside listed spelled repeated =>
      obtain ⟨field, known, unread⟩ := refused _ _ repeated (lexical.value listed)
      refine object_refused orderless listed fun draft => ?_
      simp [act?, spelled, member_at_known known, unread]

theorem from_text_iff (uniform : ∀ field ∈ record.fields, field.store.IsUniform)
    {members : List (Bytes × Doc)} {text : Bytes} (lexical : (Doc.object members).Lexical)
    (spells : (Doc.object members).Spells text) {result : ρ} :
    record.decoder.fromText text = .ok result ↔
      record.objectAt? (maximalDepth - 1) members = some result := by
  have read := finish_reading (record_is_uniform uniform maximalDepth) lexical spells result
  have object := object_yields (maximalDepth - 1)
    (fun field member => uniform field member _) lexical
  rw [← object.meaning_eq]
  exact read

/-- As a part of something else, too, an object is read like its rewordings. -/
theorem object_reads_alike (depth : Nat) (orderless : record.Orderless)
    (uniform : ∀ field ∈ record.fields, field.store.IsUniform)
    {within : String → Doc → Doc → Prop}
    (documented : ∀ entry ∈ defaults, record.IsDefault entry.1 entry.2 ∧
      entry.2.NestedWithin depth)
    (alike : ∀ name doc other, within name doc other → record.ReadsAlike depth name doc other)
    {members others : List (Bytes × Doc)} (rewords : record.Rewords defaults within members others)
    (lexical : (Doc.object members).Lexical) :
    (Doc.object others).Lexical ∧
      meaning (record.decoder.read (depth + 1)) (.object members) =
        meaning (record.decoder.read (depth + 1)) (.object others) := by
  obtain ⟨otherLexical, same⟩ := rewords_sound orderless documented alike rewords lexical
  have fields : ∀ field ∈ record.fields, Uniform (field.store.read depth) :=
    fun field member => uniform field member depth
  exact ⟨otherLexical, objects_alike fields lexical otherLexical same⟩

theorem object_unread (depth : Nat) (orderless : record.Orderless)
    (uniform : ∀ field ∈ record.fields, field.store.IsUniform)
    {within : String → Doc → Prop}
    (refused : ∀ name doc, within name doc → doc.Lexical →
      ∃ field, record.field? name = some field ∧
        meaning (field.store.read depth) doc = none)
    {members : List (Bytes × Doc)} (repeats : record.Repeats within members)
    (lexical : (Doc.object members).Lexical) :
    meaning (record.decoder.read (depth + 1)) (.object members) = none :=
  (object_yields depth (fun field member => uniform field member depth) lexical).meaning_eq.trans
    (repeats_refused orderless refused repeats lexical)

/-- Wording makes no difference to a record whose members, too, are read alike. -/
theorem indifferent (orderless : record.Orderless)
    (uniform : ∀ field ∈ record.fields, field.store.IsUniform) {within : String → Doc → Doc → Prop}
    {repeatsWithin : String → Doc → Prop}
    (documented : ∀ entry ∈ defaults, record.IsDefault entry.1 entry.2 ∧
      entry.2.NestedWithin (maximalDepth - 1))
    (alike : ∀ name doc other, within name doc other →
      record.ReadsAlike (maximalDepth - 1) name doc other)
    (refused : ∀ name doc, repeatsWithin name doc → doc.Lexical →
      ∃ field, record.field? name = some field ∧
        meaning (field.store.read (maximalDepth - 1)) doc = none) :
    record.Indifferent (record.Rewords defaults within) (record.Repeats repeatsWithin) where
  reworded members others text other result lexical spells rewords otherSpells decoded := by
    obtain ⟨otherLexical, same⟩ := rewords_sound orderless documented alike rewords lexical
    rw [from_text_iff uniform lexical spells, same] at decoded
    exact (from_text_iff uniform otherLexical otherSpells).mpr decoded
  repeated members text result lexical spells repeats decoded := by
    rw [from_text_iff uniform lexical spells,
      repeats_refused orderless refused repeats lexical] at decoded
    cases decoded

end Record

end LocalNet.Json
