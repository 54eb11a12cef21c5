import LocalNet.Proofs.Json.Alternatives
import LocalNet.Proofs.Json.Printing

/-!
# Decoding what was encoded

An encoded record is an object with a member for each field. Every member is stored under its own
name, so decoding the object sets every field; the printed text is decoded alike.
-/

namespace LocalNet.Json

variable {α ρ : Type}

/-- Encoded data comes back from its value, from its printed text, and from every other text that
shows its value, where the value is not nested too deep for a text. -/
structure Decoder.Restores (decoder : Decoder α) (encoded : Value) (result : α)
    (shallow : Prop) : Prop where
  byValue : decoder.ofValue encoded = .ok result
  byPrint : shallow → decoder.fromText (Bytes.ofText encoded.print) = .ok result
  byText : shallow → ∀ (doc : Doc) (text : Bytes), doc.WellFormed → doc.Shows encoded →
    doc.Spells text → decoder.fromText text = .ok result

theorem Decoder.restores {decoder : Decoder α} (uniform : decoder.IsUniform) {encoded : Value}
    {result : α} {shallow : Prop} (decoded : decoder.ofValue encoded = .ok result)
    (agrees : decoder.Agrees encoded) (wellFormed : encoded.WellFormed)
    (realFree : encoded.RealFree) (nested : shallow → encoded.NestedWithin maximalDepth) :
    decoder.Restores encoded result shallow := by
  have byText (isShallow : shallow) (doc : Doc) (text : Bytes) (formed : doc.WellFormed)
      (shows : doc.Shows encoded) (spells : doc.Spells text) :
      decoder.fromText text = .ok result := by
    rw [fromText, finish_reading (uniform maximalDepth) formed.toLexical spells]
    exact agrees maximalDepth doc result formed shows (nested isShallow) decoded
  obtain ⟨formed, shows⟩ := printed_shows wellFormed realFree
  exact ⟨decoded, fun isShallow => byText isShallow _ _ formed shows (printed_text wellFormed),
    byText⟩

/-! ## Members put in order -/

theorem mem_put_all {members held : List (String × Value)} {entry : String × Value}
    (inside : entry ∈ members.foldl (fun held member => putMember member.1 member.2 held) held) :
    entry ∈ members ∨ entry ∈ held := by
  induction members generalizing held with
  | nil => exact Or.inr inside
  | cons member members induction =>
      rcases induction inside with later | put
      · exact Or.inl (List.mem_cons_of_mem _ later)
      · rcases mem_put_member put with rfl | before
        · exact Or.inl List.mem_cons_self
        · exact Or.inr before

namespace Value

variable {members : List (String × Value)}

theorem of_members_well_formed (each : ∀ member ∈ members, member.2.WellFormed) :
    (ofMembers members).WellFormed := by
  refine .object (put_all_ascending List.Pairwise.nil) fun member inside => ?_
  rcases mem_put_all inside with listed | none
  · exact each member listed
  · cases none

theorem of_members_real_free (each : ∀ member ∈ members, member.2.RealFree) :
    (ofMembers members).RealFree := by
  refine .object fun member inside => ?_
  rcases mem_put_all inside with listed | none
  · exact each member listed
  · cases none

theorem of_members_nested {depth : Nat} (each : ∀ member ∈ members, member.2.NestedWithin depth) :
    (ofMembers members).NestedWithin (depth + 1) := by
  refine .object fun member inside => ?_
  rcases mem_put_all inside with listed | none
  · exact each member listed
  · cases none

/-! ## Numbers and bytes -/

theorem of_nat_well_formed {value : Nat} (below : value < Nat.pow 2 64) :
    (ofNat value).WellFormed := by
  refine .number ⟨?_, Int.ofNat_lt.mpr below⟩
  have natural : (0 : Int) ≤ (value : Int) := Int.natCast_nonneg value
  have half : (0 : Int) ≤ ((Nat.pow 2 63 : Nat) : Int) := Int.natCast_nonneg _
  omega

theorem of_bytes_well_formed (bytes : Bytes) : (ofBytes bytes).WellFormed := by
  refine .array fun element listed => ?_
  obtain ⟨byte, -, rfl⟩ := List.mem_map.mp listed
  exact of_nat_well_formed (Nat.lt_trans byte.toNat_lt (by decide))

theorem of_bytes_real_free (bytes : Bytes) : (ofBytes bytes).RealFree := by
  refine .array fun element listed => ?_
  obtain ⟨byte, -, rfl⟩ := List.mem_map.mp listed
  exact .integer

theorem of_bytes_nested (bytes : Bytes) {depth : Nat} :
    (ofBytes bytes).NestedWithin (depth + 1) := by
  refine .array fun element listed => ?_
  obtain ⟨byte, -, rfl⟩ := List.mem_map.mp listed
  exact .number

end Value

namespace Decoder

theorem map_of_value {α β : Type} {decoder : Decoder α} {value : Value} {result : α}
    (decoded : decoder.ofValue value = .ok result) (change : α → β) :
    (decoder.map change).ofValue value = .ok (change result) := by
  simp only [map, decoded]
  rfl

theorem map_each_map {α : Type} {decode : Value → Except Mismatch α} {encode : α → Value}
    {items : List α} (each : ∀ item ∈ items, decode (encode item) = .ok item) :
    mapEach decode (items.map encode) = .ok items := by
  induction items with
  | nil => rfl
  | cons item items induction =>
      rw [List.forall_mem_cons] at each
      rw [List.map_cons, mapEach, each.1, induction each.2]
      rfl

theorem integer_of_value (expected : String) {least greatest value : Int} (atLeast : least ≤ value)
    (atMost : value ≤ greatest) :
    (integer least greatest expected).ofValue (.number (.integer value)) = .ok value := by
  simp [integer, integerOf, atLeast, atMost]

theorem byte_of_value (given : UInt8) : byte.ofValue (.ofNat given.toNat) = .ok given := by
  have below := given.toNat_lt
  have atLeast : (0 : Int) ≤ given.toNat := by omega
  have atMost : (given.toNat : Int) ≤ 255 := by omega
  exact (map_of_value (integer_of_value "u8" atLeast atMost) _).trans (by simp)

theorem bytes_of_value (given : Bytes) : bytes.ofValue (.ofBytes given) = .ok given :=
  map_each_map fun item _ => byte_of_value item

theorem word64_of_value (given : UInt64) : word64.ofValue (.ofNat given.toNat) = .ok given := by
  have below := given.toNat_lt
  have greatest : ((Nat.pow 2 64 : Nat) : Int) - 1 = 18446744073709551615 := rfl
  have atLeast : (0 : Int) ≤ given.toNat := by omega
  have atMost : (given.toNat : Int) ≤ (Nat.pow 2 64 : Nat) - 1 := by omega
  exact (map_of_value (integer_of_value "u64" atLeast atMost) _).trans (by simp)

theorem word32_of_value (given : UInt32) : word32.ofValue (.ofNat given.toNat) = .ok given := by
  have below := given.toNat_lt
  have greatest : ((Nat.pow 2 32 : Nat) : Int) - 1 = 4294967295 := rfl
  have atLeast : (0 : Int) ≤ given.toNat := by omega
  have atMost : (given.toNat : Int) ≤ (Nat.pow 2 32 : Nat) - 1 := by omega
  exact (map_of_value (integer_of_value "u32" atLeast atMost) _).trans (by simp)

end Decoder

/-! ## Records -/

namespace Record

variable {record : Record ρ}

/-- A member that a field stores as a change of the record. -/
def Stores (record : Record ρ) (entry : String × Value) (change : ρ → ρ) : Prop :=
  ∃ field, record.field? entry.1 = some field ∧ field.store.ofValue entry.2 = .ok change

theorem defaulted_stores {name : String} {decoder : Decoder α} {set : α → ρ → ρ} {given : α}
    {entry : String × Value} (known : record.field? entry.1 = some (defaulted name decoder set))
    (decoded : decoder.ofValue entry.2 = .ok given) : record.Stores entry (set given) :=
  ⟨_, known, Decoder.map_of_value decoded set⟩

theorem put_members_stored {entries : List (String × Value)} {changes : List (ρ → ρ)}
    (stored : List.Forall₂ record.Stores entries changes) (distinct : (entries.map Prod.fst).Nodup)
    {draft : Draft ρ} (fresh : ∀ entry ∈ entries, entry.1 ∉ draft.present) :
    (record.putMembers entries draft).toOption.map Draft.value =
      some (changes.foldl (fun value change => change value) draft.value) := by
  induction stored generalizing draft with
  | nil => rfl
  | @cons entry change entries changes first others induction =>
      obtain ⟨field, known, made⟩ := first
      obtain ⟨unlisted, distinct⟩ := List.nodup_cons.mp distinct
      rw [List.forall_mem_cons] at fresh
      have usage : record.useOf draft entry.1 = .store field := by simp [useOf, known, fresh.1]
      rw [putMembers, usage]
      dsimp only
      rw [made]
      refine induction distinct fun later listed => ?_
      simp only [Draft.put, List.mem_cons, not_or]
      refine ⟨fun same => unlisted ?_, fresh.2 later listed⟩
      exact List.mem_map.mpr ⟨later, listed, same⟩

theorem object_restored (orderless : record.Orderless) {entries : List (String × Value)}
    {changes : List (ρ → ρ)} (wellFormed : (Value.object entries).WellFormed)
    (stored : List.Forall₂ record.Stores entries changes) :
    record.decoder.ofValue (.object entries) =
      .ok (changes.foldl (fun value change => change value) record.blank) := by
  cases wellFormed with
  | object ascending _ =>
      rw [of_object_iff orderless]
      exact put_members_stored stored ascending.nodup (by simp [start])

end Record

end LocalNet.Json
