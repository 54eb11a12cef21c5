import LocalNet.Proofs.Json.Acceptance
import LocalNet.Proofs.Json.Integers
import LocalNet.Proofs.Json.OpenRecord

/-!
# What decoders ask for

What a decoder makes of documents is told by a relation between them and typed values. The fields of an
open record hand theirs on to the members of an object and to the elements of an array.
-/

namespace LocalNet.Json

variable {α β ρ : Type}

/-- The relation tells what the decoder makes of well-formed documents, as long as so many brackets are
allowed, and no other text is accepted. -/
structure Decoder.Means (decoder : Decoder α) (least : Nat) (spelled : Doc → α → Prop) : Prop where
  uniform : decoder.IsUniform
  recognizes : decoder.Recognizes
  told : ∀ {depth : Nat} {doc : Doc} {value : α}, least ≤ depth → doc.WellFormed →
    (meaning (decoder.read depth) doc = some value ↔ spelled doc value)

theorem Decoder.Means.accepted {decoder : Decoder α} {least : Nat} {spelled : Doc → α → Prop}
    (means : decoder.Means least spelled) (allowed : least ≤ maximalDepth) {text : Bytes} {value : α} :
    decoder.fromText text = .ok value ↔
      ∃ doc : Doc, doc.WellFormed ∧ doc.Spells text ∧ spelled doc value := by
  rw [accepted_text_iff means.uniform means.recognizes]
  exact exists_congr fun doc => and_congr_right fun formed => and_congr_right fun _ =>
    means.told allowed formed

/-! ## Scalars -/

def Doc.IsBoolean (doc : Doc) (value : Bool) : Prop :=
  doc = .word (if value then .true else .false)

def Doc.IsText (doc : Doc) (text : String) : Prop :=
  ∃ body, doc = .text body ∧ Denotes body (Bytes.ofText text)

/-- An integer of 64 bits with a sign, written without a fraction and without an exponent. -/
def Doc.IsSigned (doc : Doc) (value : Int) : Prop :=
  ∃ literal, doc = .number literal ∧ Writes literal value ∧
    -Nat.pow 2 63 ≤ value ∧ value < Nat.pow 2 63

namespace Decoder

theorem boolean_means : boolean.Means 0 Doc.IsBoolean := by
  refine ⟨boolean_is_uniform, boolean_recognizes, fun {depth doc value} _ formed => ?_⟩
  rw [(boolean_yields formed.toLexical depth).meaning_eq, Doc.IsBoolean]
  rcases doc with word | literal | body | elements | members
  · cases word <;> cases value <;> simp [Doc.boolean?]
  all_goals simp [Doc.boolean?]

theorem text_means (expected : String) : (text expected).Means 0 Doc.IsText := by
  refine ⟨text_is_uniform _, text_recognizes _, fun {depth doc value} _ formed => ?_⟩
  rw [(text_yields formed.toLexical depth).meaning_eq, Doc.IsText]
  rcases doc with word | literal | body | elements | members
  case text => simp [Doc.text?, text_of_iff formed.toLexical.text]
  all_goals simp [Doc.text?]

theorem integer_of_iff {least greatest value : Int} {expected : String} {number : Number} :
    (integerOf least greatest expected number).toOption = some value ↔
      number = .integer value ∧ least ≤ value ∧ value ≤ greatest := by
  cases number with
  | real bits => simp [integerOf, Except.toOption]
  | integer found =>
      rw [integerOf]
      split
      · rename_i inside
        simp only [Bool.and_eq_true, decide_eq_true_eq] at inside
        simp only [Except.toOption, Option.some.injEq, Number.integer.injEq]
        exact ⟨fun same => ⟨same, same ▸ inside⟩, And.left⟩
      · rename_i outside
        simp only [Bool.and_eq_true, decide_eq_true_eq] at outside
        simp only [Except.toOption, reduceCtorEq, Number.integer.injEq, false_iff]
        rintro ⟨same, bounds⟩
        exact outside (same ▸ bounds)

theorem signed_means : signed64.Means 0 Doc.IsSigned := by
  refine ⟨integer_is_uniform _ _ _, integer_recognizes _ _ _, fun {depth doc value} _ formed => ?_⟩
  have half : Nat.pow 2 63 = 9223372036854775808 := rfl
  have power : Nat.pow 2 64 = 18446744073709551616 := rfl
  rw [signed64, (integer_yields formed.toLexical depth).meaning_eq, Doc.IsSigned,
    Option.bind_eq_some_iff]
  simp only [integer_of_iff, half]
  rcases doc with word | literal | body | elements | members
  case number =>
    have known (value : Int) := @number_of_integer_iff literal formed.toLexical.number value
    simp only [Doc.number?, Doc.number.injEq]
    constructor
    · rintro ⟨_, read, rfl, least, greatest⟩
      exact ⟨literal, rfl, ((known value).mp read).1, by omega, by omega⟩
    · rintro ⟨_, rfl, writes, least, greatest⟩
      exact ⟨_, (known value).mpr ⟨writes, by omega, by omega⟩, rfl, by omega, by omega⟩
  all_goals simp [Doc.number?]

end Decoder

/-! ## Null -/

/-- What may be left out; where it stands, null means the same. -/
inductive OrNull (spelled : Doc → α → Prop) : Option Doc → Option α → Prop where
  | absent : OrNull spelled none none
  | null : OrNull spelled (some (.word .null)) none
  | present {doc : Doc} {value : α} (given : spelled doc value) :
      OrNull spelled (some doc) (some value)

namespace Decoder

theorem optional_means {decoder : Decoder α} {least : Nat} {spelled : Doc → α → Prop}
    (means : decoder.Means least spelled) (notNull : ∀ value, ¬spelled (.word .null) value) :
    (optional decoder).Means least fun doc => OrNull spelled (some doc) := by
  refine ⟨optional_is_uniform means.uniform, optional_recognizes means.recognizes,
    fun {depth doc value} deep formed => ?_⟩
  rw [(optional_yields means.uniform formed.toLexical depth).meaning_eq]
  by_cases isNull : doc = .word .null
  · subst isNull
    rw [optionalOf?]
    constructor
    · rintro ⟨⟩
      exact .null
    · intro nullable
      cases nullable with
      | null => rfl
      | present given => exact absurd given (notNull _)
  · rw [optionalOf?, Option.map_eq_some_iff]
    · constructor
      · rintro ⟨found, read, rfl⟩
        exact .present ((means.told deep formed).mp read)
      · intro nullable
        cases nullable with
        | null => exact absurd rfl isNull
        | @present _ found given => exact ⟨found, (means.told deep formed).mpr given, rfl⟩
    · exact isNull

end Decoder

/-! ## Fields -/

namespace Record

variable {decoder : Decoder α} {least depth : Nat} {spelled : Doc → α → Prop} {name : String}
  {set : α → ρ → ρ} {fields : List (Field ρ)} {value result : ρ}

theorem stored_iff_spelled (means : decoder.Means least spelled) (deep : least ≤ depth) {doc : Doc}
    (formed : doc.WellFormed) {change : ρ → ρ} :
    meaning ((decoder.map set).read depth) doc = some change ↔
      ∃ found, spelled doc found ∧ set found = change := by
  rw [Decoder.map_reads, Option.map_eq_some_iff]
  exact exists_congr fun found => and_congr_left fun _ => means.told deep formed

theorem lookup_formed {entries : List (String × Doc)}
    (formed : ∀ entry ∈ entries, entry.2.WellFormed) {given : Doc}
    (found : entries.lookup name = some given) : given.WellFormed := by
  obtain ⟨before, after, rfl, -⟩ := List.lookup_eq_some_iff.mp found
  exact formed (name, given) (by simp)

theorem gather_required_iff (means : decoder.Means least spelled) (deep : least ≤ depth)
    {entries : List (String × Doc)} (formed : ∀ entry ∈ entries, entry.2.WellFormed) :
    gather? (fun field => meaning (field.store.read depth)) entries
        (required name decoder set :: fields) value = some result ↔
      ∃ given found, entries.lookup name = some given ∧ spelled given found ∧
        gather? (fun field => meaning (field.store.read depth)) entries fields (set found value) =
          some result := by
  simp only [gather?, required]
  cases known : entries.lookup name with
  | none => simp
  | some given =>
      simp only [Option.bind_eq_some_iff, stored_iff_spelled means deep (lookup_formed formed known)]
      constructor
      · rintro ⟨_, ⟨found, spells, rfl⟩, others⟩
        exact ⟨given, found, rfl, spells, others⟩
      · rintro ⟨_, found, ⟨⟩, spells, others⟩
        exact ⟨_, ⟨found, spells, rfl⟩, others⟩

theorem gather_nullable_iff {decoder : Decoder (Option α)} {set : Option α → ρ → ρ}
    (means : decoder.Means least fun doc => OrNull spelled (some doc)) (deep : least ≤ depth)
    {entries : List (String × Doc)} (formed : ∀ entry ∈ entries, entry.2.WellFormed)
    (blank : set none value = value) :
    gather? (fun field => meaning (field.store.read depth)) entries
        (nullable name decoder set :: fields) value = some result ↔
      ∃ found, OrNull spelled (entries.lookup name) found ∧
        gather? (fun field => meaning (field.store.read depth)) entries fields (set found value) =
          some result := by
  simp only [gather?, nullable]
  cases known : entries.lookup name with
  | none =>
      simp only [Bool.false_eq_true, if_false]
      constructor
      · exact fun others => ⟨none, .absent, blank.symm ▸ others⟩
      · rintro ⟨_, ⟨⟩, others⟩
        exact blank ▸ others
  | some given =>
      simp only [Option.bind_eq_some_iff, stored_iff_spelled means deep (lookup_formed formed known)]
      constructor
      · rintro ⟨_, ⟨found, spells, rfl⟩, others⟩
        exact ⟨found, spells, others⟩
      · rintro ⟨found, spells, others⟩
        exact ⟨_, ⟨found, spells, rfl⟩, others⟩

theorem fill_placed_iff {byName : Bool} (means : decoder.Means least spelled) (deep : least ≤ depth)
    {elements : List Doc} (formed : ∀ element ∈ elements, element.WellFormed) :
    fill? (fun field => meaning (field.store.read depth))
        (⟨name, byName, true, decoder.map set⟩ :: fields) elements value = some result ↔
      ∃ given rest found, elements = given :: rest ∧ spelled given found ∧
        fill? (fun field => meaning (field.store.read depth)) fields rest (set found value) =
          some result := by
  cases elements with
  | nil => simp [fill?]
  | cons given rest =>
      simp only [fill?, Option.bind_eq_some_iff,
        stored_iff_spelled means deep (formed given List.mem_cons_self)]
      constructor
      · rintro ⟨_, ⟨found, spells, rfl⟩, others⟩
        exact ⟨given, rest, found, rfl, spells, others⟩
      · rintro ⟨_, _, found, ⟨⟩, spells, others⟩
        exact ⟨_, ⟨found, spells, rfl⟩, others⟩

theorem fill_nil_iff {make : Field ρ → Doc → Option (ρ → ρ)} {elements : List Doc} :
    fill? make [] elements value = some result ↔ elements = [] ∧ value = result := by
  cases elements <;> simp [fill?]

theorem stores_of_means (means : decoder.Means least spelled) (set : α → ρ → ρ) :
    (decoder.map set).IsUniform ∧ (decoder.map set).Recognizes :=
  ⟨Decoder.map_is_uniform set means.uniform, Decoder.map_recognizes set means.recognizes⟩

/-- The documents that an open record is made of: objects that fill its fields, and arrays that do. -/
theorem open_means {record : Record ρ} (opened : record.closed = false)
    (apart : record.fields.Pairwise Field.Apart) (distinct : record.names.Nodup)
    (stores : ∀ field ∈ record.fields, field.store.IsUniform ∧ field.store.Recognizes)
    {made : Doc → ρ → Prop} (bracketed : ∀ doc result, made doc result →
      (∃ members, doc = .object members) ∨ ∃ elements, doc = .array elements)
    (object : ∀ depth members result, least ≤ depth →
      (∀ member ∈ members, member.2.WellFormed) →
      ((∃ entries, Named members entries ∧ Once record.names entries ∧
        gather? (fun field => meaning (field.store.read depth)) entries record.fields record.blank =
          some result) ↔ made (.object members) result))
    (array : ∀ depth elements result, least ≤ depth → (∀ element ∈ elements, element.WellFormed) →
      (fill? (fun field => meaning (field.store.read depth)) record.fields elements record.blank =
        some result ↔ made (.array elements) result)) :
    record.decoder.Means (least + 1) made := by
  have uniform : ∀ field ∈ record.fields, field.store.IsUniform :=
    fun field listed => (stores field listed).1
  refine ⟨record_is_uniform uniform, record_recognizes fun field listed => (stores field listed).2,
    fun {depth doc value} deep formed => ?_⟩
  obtain ⟨depth, rfl⟩ := Nat.exists_eq_add_of_le' (Nat.le_of_add_left_le deep)
  have enough : least ≤ depth := Nat.le_of_add_le_add_right deep
  rw [(record_yields uniform formed.toLexical (depth + 1)).meaning_eq]
  cases doc with
  | object members =>
      rw [recordOf?, open_object_iff opened apart distinct formed]
      exact object depth members value enough
        fun member listed => (Doc.well_formed_object_iff.mp formed member listed).2
  | array elements =>
      exact array depth elements value enough (Doc.well_formed_array_iff.mp formed)
  | _ =>
      refine iff_of_false (by simp [recordOf?]) fun given => ?_
      obtain ⟨_, ⟨⟩⟩ | ⟨_, ⟨⟩⟩ := bracketed _ value given

end Record

end LocalNet.Json
