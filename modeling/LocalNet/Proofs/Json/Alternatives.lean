import LocalNet.Proofs.Json.Ensuring
import LocalNet.Proofs.Json.Rewording
import Mathlib.Data.List.Nodup

/-!
# Members that may be given in another form, or left out

Where a field makes the same of two forms of its member, so does the record, whether the member has
a name or a place. A null member means the same as no member, where the field makes nothing of null.
-/

namespace LocalNet.Json

variable {ε ρ : Type}

theorem Decoder.map_each_replace {α : Type} {decode : Value → Except Mismatch α} {one two : Value}
    (same : (decode one).toOption = (decode two).toOption) (before after : List Value) :
    (mapEach decode (before ++ one :: after)).toOption =
      (mapEach decode (before ++ two :: after)).toOption := by
  induction before with
  | nil =>
      rw [List.nil_append, List.nil_append, mapEach, mapEach]
      cases one : decode one <;> cases two : decode two <;>
        rw [one, two] at same <;> cases same <;> rfl
  | cons value before induction =>
      rw [List.cons_append, List.cons_append, mapEach, mapEach]
      cases decode value with
      | error reason => rfl
      | ok first =>
          dsimp only
          cases one : mapEach decode (before ++ one :: after) <;>
            cases two : mapEach decode (before ++ two :: after) <;>
            rw [one, two] at induction <;> cases induction <;> rfl

namespace Record

/-! ## Fields filled by their places -/

variable {make : Field ρ → ε → Option (ρ → ρ)}

theorem fill_replace {one two : ε} {field : Field ρ} (same : make field one = make field two)
    {fields : List (Field ρ)} {before after : List ε} (place : fields[before.length]? = some field)
    (value : ρ) :
    fill? make fields (before ++ one :: after) value =
      fill? make fields (before ++ two :: after) value := by
  induction before generalizing fields value with
  | nil =>
      cases fields with
      | nil => cases place
      | cons other fields =>
          obtain rfl : other = field := by simpa using place
          rw [List.nil_append, List.nil_append, fill?, fill?, same]
  | cons element before induction =>
      cases fields with
      | nil => cases place
      | cons other fields =>
          rw [List.cons_append, List.cons_append, fill?, fill?]
          exact congrArg _ (funext fun change => induction (by simpa using place) (change value))

theorem fill_keeps {good : ρ → Prop} {fields : List (Field ρ)} {elements : List ε}
    (keeps : ∀ entry ∈ fields.zip elements, ∀ change value,
      make entry.1 entry.2 = some change → good value → good (change value))
    {value result : ρ} (before : good value)
    (filled : fill? make fields elements value = some result) : good result := by
  induction fields generalizing elements value with
  | nil =>
      cases elements with
      | nil =>
          cases filled
          exact before
      | cons => cases filled
  | cons field fields induction =>
      cases elements with
      | nil =>
          rw [fill?] at filled
          split at filled
          · cases filled
          · exact induction (by simp) before filled
      | cons element elements =>
          rw [List.zip_cons_cons, List.forall_mem_cons] at keeps
          rw [fill?] at filled
          obtain ⟨change, made, others⟩ := Option.bind_eq_some_iff.mp filled
          exact induction keeps.2 (keeps.1 change value made before) others

/-- An element that changes nothing may as well be left out behind the others. -/
theorem fill_left_out {good : ρ → Prop} {fields : List (Field ρ)} {elements : List ε}
    (keeps : ∀ entry ∈ fields.zip elements, ∀ change value,
      make entry.1 entry.2 = some change → good value → good (change value))
    (optional : ∀ field ∈ fields, field.requiredByPlace = false) {field : Field ρ}
    (place : fields[elements.length]? = some field) {blank : ε} {change : ρ → ρ}
    (made : make field blank = some change) (same : ∀ value, good value → change value = value)
    {value : ρ} (before : good value) :
    fill? make fields (elements ++ [blank]) value = fill? make fields elements value := by
  induction elements generalizing fields value with
  | nil =>
      cases fields with
      | nil => cases place
      | cons other fields =>
          obtain rfl : other = field := by simpa using place
          rw [List.nil_append, fill?, fill?, made, Option.bind_some, same value before,
            optional other (by simp)]
          rfl
  | cons element elements induction =>
      cases fields with
      | nil => cases place
      | cons other fields =>
          rw [List.zip_cons_cons, List.forall_mem_cons] at keeps
          rw [List.forall_mem_cons] at optional
          rw [List.cons_append, fill?, fill?]
          cases found : make other element with
          | none => rfl
          | some change =>
              exact induction keeps.2 optional.2 (by simpa using place)
                (keeps.1 change value found before)

def stored? (field : Field ρ) (value : Value) : Option (ρ → ρ) :=
  (field.store.ofValue value).toOption

theorem defaulted_stored {α : Type} (name : String) (decoder : Decoder α) (set : α → ρ → ρ)
    (value : Value) :
    stored? (defaulted name decoder set) value = (decoder.ofValue value).toOption.map set := by
  simp only [stored?, defaulted, Decoder.map]
  cases decoder.ofValue value <;> rfl

variable {record : Record ρ}

theorem put_elements_eq (total place : Nat) (fields : List (Field ρ)) (elements : List Value)
    (value : ρ) : (record.putElements total place fields elements value).toOption =
      fill? stored? fields elements value := by
  induction fields generalizing place elements value with
  | nil => cases elements <;> rfl
  | cons field fields induction =>
      cases elements with
      | nil =>
          rw [putElements, fill?]
          split
          · rfl
          · exact induction (place + 1) [] value
      | cons element elements =>
          rw [putElements, fill?, stored?]
          cases field.store.ofValue element with
          | error reason => rfl
          | ok change => exact induction (place + 1) elements (change value)

theorem to_option_iff {ε α : Type} {outcome : Except ε α} {result : α} :
    outcome.toOption = some result ↔ outcome = .ok result := by
  cases outcome <;> simp [Except.toOption]

theorem of_array_iff {elements : List Value} {result : ρ} :
    record.decoder.ofValue (.array elements) = .ok result ↔
      fill? stored? record.fields elements record.blank = some result := by
  rw [← put_elements_eq elements.length 0, to_option_iff]
  rfl

theorem from_array_text_iff (uniform : ∀ field ∈ record.fields, field.store.IsUniform)
    {elements : List Doc} {text : Bytes} (lexical : (Doc.array elements).Lexical)
    (spells : (Doc.array elements).Spells text) {result : ρ} :
    record.decoder.fromText text = .ok result ↔
      record.arrayAt? (maximalDepth - 1) elements = some result := by
  have read := finish_reading (record_is_uniform uniform maximalDepth) lexical spells result
  have array := array_yields (maximalDepth - 1)
    (fun field member => uniform field member _) lexical
  rw [← array.meaning_eq]
  exact read

/-! ## Two forms of one member -/

theorem field_at_place (distinct : record.names.Nodup) {place : Nat} {name : String}
    (stands : record.names[place]? = some name) {field : Field ρ}
    (known : record.field? name = some field) : record.fields[place]? = some field := by
  rw [names, List.getElem?_map, Option.map_eq_some_iff] at stands
  obtain ⟨other, found, named⟩ := stands
  obtain ⟨listed, sameName⟩ := field_of_name known
  have same := List.inj_on_of_nodup_map distinct (List.mem_of_getElem? found) listed
    (named.trans sameName.symm)
  rw [found, same]

theorem put_members_replace {name : String} {field : Field ρ} {one two : Value}
    (known : record.field? name = some field) (same : stored? field one = stored? field two)
    (before after : List (String × Value)) (draft : Draft ρ) :
    (record.putMembers (before ++ (name, one) :: after) draft).toOption =
      (record.putMembers (before ++ (name, two) :: after) draft).toOption := by
  induction before generalizing draft with
  | nil =>
      rw [List.nil_append, List.nil_append, putMembers, putMembers]
      cases usage : record.useOf draft name with
      | store other =>
          obtain rfl : field = other :=
            Option.some.inj (known.symm.trans (stored_field_known usage))
          rw [stored?, stored?] at same
          dsimp only
          cases one : field.store.ofValue one <;> cases two : field.store.ofValue two <;>
            rw [one, two] at same <;> cases same <;> rfl
      | _ => rfl
  | cons member before induction =>
      rw [List.cons_append, List.cons_append, putMembers, putMembers]
      cases record.useOf draft member.1 with
      | refuse reason => rfl
      | passOver => exact induction draft
      | store field =>
          dsimp only
          cases field.store.ofValue member.2 with
          | error reason => rfl
          | ok change => exact induction _

/-- Two forms of a value: a member, named or at its place, is replaced by one that is the same to its
field, or a null is left out. -/
inductive ValueForms (record : Record ρ) (same : String → Value → Value → Prop)
    (optional : String → Prop) : Value → Value → Prop where
  | member {before after : List (String × Value)} {name : String} {one two : Value}
      (alike : same name one two) : ValueForms record same optional
        (.object (before ++ (name, one) :: after)) (.object (before ++ (name, two) :: after))
  | element {before after : List Value} {name : String} {one two : Value}
      (stands : record.names[before.length]? = some name) (alike : same name one two) :
      ValueForms record same optional
        (.array (before ++ one :: after)) (.array (before ++ two :: after))
  | nullMember {before after : List (String × Value)} {name : String} (isOptional : optional name) :
      ValueForms record same optional
        (.object (before ++ (name, .null) :: after)) (.object (before ++ after))
  | nullElement {elements : List Value} {name : String}
      (stands : record.names[elements.length]? = some name) (isOptional : optional name) :
      ValueForms record same optional (.array (elements ++ [.null])) (.array elements)

inductive DocForms (record : Record ρ) (same : String → Doc → Doc → Prop)
    (optional : String → Prop) : Doc → Doc → Prop where
  | member {before after : List (Bytes × Doc)} {key : Bytes} {name : String} {one two : Doc}
      (spelled : textOf? key = some name) (alike : same name one two) :
      DocForms record same optional
        (.object (before ++ (key, one) :: after)) (.object (before ++ (key, two) :: after))
  | element {before after : List Doc} {name : String} {one two : Doc}
      (stands : record.names[before.length]? = some name) (alike : same name one two) :
      DocForms record same optional
        (.array (before ++ one :: after)) (.array (before ++ two :: after))
  | nullMember {before after : List (Bytes × Doc)} {key : Bytes} {name : String}
      (spelled : textOf? key = some name) (isOptional : optional name)
      (fresh : ∀ member ∈ before ++ after, textOf? member.1 ≠ some name) :
      DocForms record same optional
        (.object (before ++ (key, .word .null) :: after)) (.object (before ++ after))
  | nullElement {elements : List Doc} {name : String}
      (stands : record.names[elements.length]? = some name) (isOptional : optional name) :
      DocForms record same optional (.array (elements ++ [.word .null])) (.array elements)

/-! ## Null and absence -/

/-- No member is required, by name or by place, and places are told apart by their names. -/
structure Lenient (record : Record ρ) : Prop where
  orderless : record.Orderless
  uniform : ∀ field ∈ record.fields, field.store.IsUniform
  distinct : record.names.Nodup
  optional : ∀ field ∈ record.fields, field.requiredByPlace = false

/-- A field that makes nothing of null, beside fields that leave it empty. -/
structure Nullable (record : Record ρ) (name : String) (empty : ρ → Prop) : Prop where
  blank : empty record.blank
  others : ∀ field ∈ record.fields, field.name ≠ name → field.Keeps empty
  makes : ∃ field change, record.field? name = some field ∧
    field.store.ofValue .null = .ok change ∧
    (∀ depth, meaning (field.store.read depth) (.word .null) = some change) ∧
    ∀ value, empty value → change value = value

theorem of_object_iff (orderless : record.Orderless) {members : List (String × Value)}
    {result : ρ} :
    record.decoder.ofValue (.object members) = .ok result ↔
      (record.putMembers members record.start).toOption.map Draft.value = some result := by
  simp only [decoder, ofValue]
  cases record.putMembers members record.start with
  | error reason => simp [Except.toOption]
  | ok draft => simp [complete_eq orderless, Except.toOption]

theorem put_members_alike (watched : String → Prop) {members : List (String × Value)}
    (watches : ∀ member ∈ members, watched member.1) {left right : Draft ρ}
    (alike : left.Alike watched right) :
    (record.putMembers members left).toOption.map Draft.value =
      (record.putMembers members right).toOption.map Draft.value := by
  induction members generalizing left right with
  | nil => exact congrArg some alike.value
  | cons member members induction =>
      rw [List.forall_mem_cons] at watches
      have usage : record.useOf left member.1 = record.useOf right member.1 := by
        simp only [useOf, List.contains_eq_mem, alike.present member.1 watches.1]
      rw [putMembers, putMembers, usage]
      cases record.useOf right member.1 with
      | refuse reason => rfl
      | passOver => exact induction watches.2 alike
      | store field =>
          dsimp only
          cases field.store.ofValue member.2 with
          | error reason => rfl
          | ok change =>
              refine induction watches.2 ⟨congrArg change alike.value, fun other watch => ?_⟩
              simp [Draft.put, alike.present other watch]

theorem put_members_left_out {name : String} {empty : ρ → Prop} {field : Field ρ} {blank : Value}
    {change : ρ → ρ} (known : record.field? name = some field)
    (made : field.store.ofValue blank = .ok change)
    (same : ∀ value, empty value → change value = value)
    (others : ∀ field ∈ record.fields, field.name ≠ name → field.Keeps empty)
    {before after : List (String × Value)} (apart : ∀ member ∈ before ++ after, member.1 ≠ name)
    (wellFormed : ∀ member ∈ before, member.2.WellFormed) (draft : Draft ρ)
    (start : empty draft.value) (fresh : name ∉ draft.present) :
    (record.putMembers (before ++ (name, blank) :: after) draft).toOption.map Draft.value =
      (record.putMembers (before ++ after) draft).toOption.map Draft.value := by
  induction before generalizing draft with
  | nil =>
      have usage : record.useOf draft name = .store field := by simp [useOf, known, fresh]
      rw [List.nil_append, List.nil_append, putMembers, usage]
      dsimp only
      rw [made]
      refine put_members_alike (· ≠ name) apart ⟨same draft.value start, ?_⟩
      exact fun other apart => by simp [Draft.put, apart]
  | cons member before induction =>
      rw [List.cons_append, List.forall_mem_cons] at apart
      rw [List.forall_mem_cons] at wellFormed
      rw [List.cons_append, List.cons_append, putMembers, putMembers]
      cases usage : record.useOf draft member.1 with
      | refuse reason => rfl
      | passOver => exact induction apart.2 wellFormed.2 draft start fresh
      | store other =>
          dsimp only
          cases stored : other.store.ofValue member.2 with
          | error reason => rfl
          | ok change =>
              obtain ⟨listed, named⟩ := field_of_name (stored_field_known usage)
              have keeps := others other listed (named ▸ apart.1)
              exact induction apart.2 wellFormed.2 _
                (keeps.stored member.2 change wellFormed.1 stored draft.value start)
                (by simp [Draft.put, Ne.symm apart.1, fresh])

theorem walk_keeps {depth : Nat} {good : ρ → Prop} {members : List (Bytes × Doc)}
    (keeps : ∀ member ∈ members, ∀ name field change value, textOf? member.1 = some name →
      record.field? name = some field → meaning (field.store.read depth) member.2 = some change →
      good value → good (change value))
    {draft result : Draft ρ} (before : good draft.value)
    (walked : walkMembers (record.memberAt? depth) draft members = some result) :
    good result.value := by
  induction members generalizing draft with
  | nil =>
      cases walked
      exact before
  | cons member members induction =>
      rw [List.forall_mem_cons] at keeps
      rw [walk_members_cons] at walked
      obtain ⟨changed, acted, others⟩ := Option.bind_eq_some_iff.mp walked
      refine induction keeps.2 ?_ others
      obtain ⟨name, spelled, used⟩ := Option.bind_eq_some_iff.mp acted
      rw [memberAt?] at used
      split at used
      · cases used
      · split at used <;> cases used
        exact before
      · rename_i field usage
        obtain ⟨change, read, rfl⟩ := Option.map_eq_some_iff.mp used
        exact keeps.1 name field change draft.value spelled (stored_field_known usage) read before

theorem zip_apart (distinct : record.names.Nodup) {name : String} {place : Nat}
    (stands : record.names[place]? = some name) {elements : List ε}
    (short : elements.length ≤ place) :
    ∀ entry ∈ record.fields.zip elements, entry.1 ∈ record.fields ∧ entry.1.name ≠ name ∧
      entry.2 ∈ elements := by
  intro entry listed
  obtain ⟨field, element⟩ := List.of_mem_zip listed
  refine ⟨field, fun named => ?_, element⟩
  obtain ⟨index, below, rfl⟩ := List.mem_iff_getElem.mp listed
  rw [List.length_zip] at below
  have earlier : record.names[index]? = some name := by
    rw [names, List.getElem?_map, List.getElem?_eq_getElem (by omega), ← named, List.getElem_zip]
    rfl
  have same := (List.getElem?_inj (by simp [names]; omega) distinct).mp (earlier.trans stands.symm)
  omega

/-! ## Forms that are decoded alike -/

theorem value_forms_alike (lenient : record.Lenient) {same : String → Value → Value → Prop}
    {optional : String → Prop}
    (sound : ∀ name one two, same name one two → one.WellFormed →
      ∃ field, record.field? name = some field ∧ stored? field one = stored? field two)
    (nullable : ∀ name, optional name → ∃ empty, record.Nullable name empty) {one two : Value}
    (forms : record.ValueForms same optional one two) (wellFormed : one.WellFormed) {result : ρ} :
    record.decoder.ofValue one = .ok result ↔ record.decoder.ofValue two = .ok result := by
  cases forms with
  | @member before after name one two alike =>
      cases wellFormed with
      | object _ each =>
          obtain ⟨field, known, equal⟩ := sound name one two alike (each (name, one) (by simp))
          rw [of_object_iff lenient.orderless, of_object_iff lenient.orderless,
            put_members_replace known equal]
  | @element before after name one two stands alike =>
      cases wellFormed with
      | array each =>
          obtain ⟨field, known, equal⟩ := sound name one two alike (each one (by simp))
          rw [of_array_iff, of_array_iff, fill_replace equal
            (field_at_place lenient.distinct stands known)]
  | @nullMember before after name isOptional =>
      obtain ⟨empty, isNullable⟩ := nullable name isOptional
      obtain ⟨field, change, known, stored, -, equal⟩ := isNullable.makes
      cases wellFormed with
      | object ascending each =>
          have distinct := ascending.nodup
          rw [List.map_append, List.map_cons, List.nodup_middle, ← List.map_append,
            List.nodup_cons] at distinct
          have apart : ∀ member ∈ before ++ after, member.1 ≠ name := fun member listed named =>
            distinct.1 (List.mem_map.mpr ⟨member, listed, named⟩)
          rw [of_object_iff lenient.orderless, of_object_iff lenient.orderless,
            put_members_left_out known stored equal isNullable.others apart
              (fun member listed => each member (by simp [listed])) record.start isNullable.blank
              (by simp [start])]
  | @nullElement elements name stands isOptional =>
      obtain ⟨empty, isNullable⟩ := nullable name isOptional
      obtain ⟨field, change, known, stored, -, equal⟩ := isNullable.makes
      cases wellFormed with
      | array each =>
          rw [of_array_iff, of_array_iff, fill_left_out ?_ lenient.optional
            (field_at_place lenient.distinct stands known) (congrArg Except.toOption stored) equal
            isNullable.blank]
          intro entry listed change value made
          obtain ⟨field, apart, element⟩ :=
            zip_apart lenient.distinct stands (Nat.le_refl _) entry listed
          exact (isNullable.others _ field apart).stored _ change (each _ (by simp [element]))
            (to_option_iff.mp made) value

theorem doc_forms_alike (lenient : record.Lenient) {depth : Nat} {same : String → Doc → Doc → Prop}
    {optional : String → Prop}
    (sound : ∀ name one two, same name one two → one.Lexical → two.Lexical ∧
      ∃ field, record.field? name = some field ∧
        meaning (field.store.read depth) one = meaning (field.store.read depth) two)
    (nullable : ∀ name, optional name → ∃ empty, record.Nullable name empty) {one two : Doc}
    (forms : record.DocForms same optional one two) (lexical : one.Lexical) :
    two.Lexical ∧ meaning (record.decoder.read (depth + 1)) one =
      meaning (record.decoder.read (depth + 1)) two := by
  have fields : ∀ field ∈ record.fields, Uniform (field.store.read depth) :=
    fun field member => lenient.uniform field member depth
  cases forms with
  | @member before after key name one two spelled alike =>
      have listed : (key, one) ∈ before ++ (key, one) :: after := by simp
      obtain ⟨lexicalTwo, field, known, equal⟩ := sound name one two alike (lexical.value listed)
      have otherLexical := lexical.replace_value lexicalTwo
      refine ⟨otherLexical, objects_alike fields lexical otherLexical ?_⟩
      refine object_replace lenient.orderless fun draft => ?_
      simp only [act?, spelled, Option.bind_some, member_at_known known, equal]
  | @element before after name one two stands alike =>
      obtain ⟨lexicalTwo, field, known, equal⟩ := sound name one two alike
        (lexical.element (by simp))
      have otherLexical := lexical.replace_element lexicalTwo
      refine ⟨otherLexical, arrays_alike fields lexical otherLexical ?_⟩
      exact fill_replace equal (field_at_place lenient.distinct stands known) record.blank
  | @nullMember before after key name spelled isOptional fresh =>
      obtain ⟨empty, isNullable⟩ := nullable name isOptional
      obtain ⟨field, change, known, -, read, equal⟩ := isNullable.makes
      have otherLexical : (Doc.object (before ++ after)).Lexical := by
        rw [Doc.lexical_object_iff, List.forall_mem_append] at lexical ⊢
        exact ⟨lexical.1, (List.forall_mem_cons.mp lexical.2).2⟩
      refine ⟨otherLexical, objects_alike fields lexical otherLexical ?_⟩
      -- Moved to the front, the null meets a draft that is still blank.
      rw [object_perm lenient.orderless List.perm_middle,
        object_default lenient.orderless spelled known (read _) (equal _ isNullable.blank) fresh]
  | @nullElement elements name stands isOptional =>
      obtain ⟨empty, isNullable⟩ := nullable name isOptional
      obtain ⟨field, change, known, -, read, equal⟩ := isNullable.makes
      have otherLexical : (Doc.array elements).Lexical := by
        rw [Doc.lexical_array_iff, List.forall_mem_append] at lexical
        exact Doc.lexical_array_iff.mpr lexical.1
      refine ⟨otherLexical, arrays_alike fields lexical otherLexical ?_⟩
      refine fill_left_out ?_ lenient.optional (field_at_place lenient.distinct stands known)
        (read _) equal isNullable.blank
      intro entry listed change value means
      obtain ⟨field, apart, -⟩ := zip_apart lenient.distinct stands (Nat.le_refl _) entry listed
      exact (isNullable.others _ field apart).meant means value

/-- Decoding does not tell the forms of a record from each other, on either route. -/
structure AlikeInForms (record : Record ρ) (valueForms : Value → Value → Prop)
    (docForms : Doc → Doc → Prop) : Prop where
  byValue : ∀ (one two : Value) (result : ρ), valueForms one two → one.WellFormed →
    (record.decoder.ofValue one = .ok result ↔ record.decoder.ofValue two = .ok result)
  byText : ∀ (one two : Doc) (text other : Bytes) (result : ρ), docForms one two → one.Lexical →
    one.Spells text → two.Spells other →
    (record.decoder.fromText text = .ok result ↔ record.decoder.fromText other = .ok result)

theorem alike_in_forms (lenient : record.Lenient) {valueForms : Value → Value → Prop}
    {docForms : Doc → Doc → Prop}
    (values : ∀ {one two : Value}, valueForms one two → one.WellFormed → ∀ {result : ρ},
      record.decoder.ofValue one = .ok result ↔ record.decoder.ofValue two = .ok result)
    (docs : ∀ {one two : Doc}, docForms one two → one.Lexical → two.Lexical ∧
      meaning (record.decoder.read maximalDepth) one =
        meaning (record.decoder.read maximalDepth) two) :
    record.AlikeInForms valueForms docForms where
  byValue one two result forms wellFormed := values forms wellFormed
  byText one two text other result forms lexical spells otherSpells := by
    obtain ⟨otherLexical, same⟩ := docs forms lexical
    have uniform := record_is_uniform lenient.uniform maximalDepth
    rw [Decoder.fromText, Decoder.fromText, finish_reading uniform lexical spells,
      finish_reading uniform otherLexical otherSpells, same]

/-! ## What is empty -/

/-- What is decoded without a member of this name, or without an element at its place, is empty
there. -/
structure EmptyWithout (record : Record ρ) (name : String) (empty : ρ → Prop) : Prop where
  valueByName : ∀ (members : List (String × Value)) (result : ρ),
    (Value.object members).WellFormed → (∀ member ∈ members, member.1 ≠ name) →
    record.decoder.ofValue (.object members) = .ok result → empty result
  valueByPlace : ∀ (elements : List Value) (place : Nat) (result : ρ),
    (Value.array elements).WellFormed → record.names[place]? = some name →
    elements.length ≤ place → record.decoder.ofValue (.array elements) = .ok result → empty result
  textByName : ∀ (members : List (Bytes × Doc)) (text : Bytes) (result : ρ),
    (∀ member ∈ members, textOf? member.1 ≠ some name) → (Doc.object members).Lexical →
    (Doc.object members).Spells text → record.decoder.fromText text = .ok result → empty result
  textByPlace : ∀ (elements : List Doc) (place : Nat) (text : Bytes) (result : ρ),
    record.names[place]? = some name → elements.length ≤ place → (Doc.array elements).Lexical →
    (Doc.array elements).Spells text → record.decoder.fromText text = .ok result → empty result

theorem empty_without (lenient : record.Lenient) {name : String} {empty : ρ → Prop}
    (nullable : record.Nullable name empty) : record.EmptyWithout name empty where
  valueByName members result wellFormed apart decoded := by
    cases wellFormed with
    | object _ each =>
        refine of_object_keeps (fun member listed field change value known stored => ?_)
          nullable.blank decoded
        obtain ⟨field, named⟩ := field_of_name known
        exact (nullable.others _ field (named ▸ apart member listed)).stored _ change
          (each member listed) stored value
  valueByPlace elements place result wellFormed stands short decoded := by
    cases wellFormed with
    | array each =>
        refine of_array_keeps (fun entry listed change value stored => ?_) nullable.blank decoded
        obtain ⟨field, apart, element⟩ := zip_apart lenient.distinct stands short entry listed
        exact (nullable.others _ field apart).stored _ change (each _ element) stored value
  textByName members text result apart lexical spells decoded := by
    rw [from_text_iff lenient.uniform lexical spells, object_at_eq lenient.orderless,
      Option.map_eq_some_iff] at decoded
    obtain ⟨draft, walked, rfl⟩ := decoded
    refine walk_keeps (fun member listed name field change value spelled known read => ?_)
      nullable.blank walked
    obtain ⟨field, named⟩ := field_of_name known
    exact (nullable.others _ field (named ▸ fun same => apart member listed (same ▸ spelled))).meant
      read value
  textByPlace elements place text result stands short lexical spells decoded := by
    rw [from_array_text_iff lenient.uniform lexical spells, arrayAt?] at decoded
    refine fill_keeps (fun entry listed change value read => ?_) nullable.blank decoded
    obtain ⟨field, apart, -⟩ := zip_apart lenient.distinct stands short entry listed
    exact (nullable.others _ field apart).meant read value

end Record

end LocalNet.Json
