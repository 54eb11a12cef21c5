import LocalNet.Proofs.Json.Uniform

/-!
# Well-formed values

A value that is read holds integers of 64 bits only, and the members of its objects stand in the
order of their names, each name once.
-/

namespace LocalNet.Json

variable {α β σ : Type}

/-! ## Readings that succeed -/

namespace Reading

theorem and_then_ok {reading : Reading α} {next : α → Cursor → Reading β} {result : β × Cursor}
    (success : reading.andThen next = .ok result) :
    ∃ value cursor, reading = .ok (value, cursor) ∧ next value cursor = .ok result := by
  rcases reading with failure | ⟨value, cursor⟩
  · cases success
  · exact ⟨value, cursor, rfl, success⟩

theorem map_ok {reading : Reading α} {change : α → β} {result : β} {place : Cursor}
    (success : reading.map change = .ok (result, place)) :
    ∃ value, reading = .ok (value, place) ∧ change value = result := by
  obtain ⟨value, cursor, read, same⟩ := and_then_ok success
  cases same
  exact ⟨value, read, rfl⟩

end Reading

theorem read_elements_each {item : Cursor → Reading α} {holds : α → Prop}
    (each : ∀ cursor value place, item cursor = .ok (value, place) → holds value) {fuel : Nat}
    {first : Bool} {backwards values : List α} {cursor place : Cursor}
    (before : ∀ value ∈ backwards, holds value)
    (read : readElements item fuel first backwards cursor = .ok (values, place)) :
    ∀ value ∈ values, holds value := by
  induction fuel generalizing first backwards cursor with
  | zero => cases read
  | succ fuel induction =>
      rw [readElements] at read
      obtain ⟨more, following, -, goesOn⟩ := Reading.and_then_ok read
      split at goesOn
      · obtain ⟨value, rest, found, others⟩ := Reading.and_then_ok goesOn
        refine induction (fun other member => ?_) others
        rcases List.mem_cons.mp member with rfl | earlier
        · exact each following other rest found
        · exact before other earlier
      · cases goesOn
        exact fun value member => before value (List.mem_reverse.mp member)

theorem read_members_keep (holds : σ → Prop) {member : String → σ → Cursor → Reading σ}
    (keeps : ∀ name state cursor changed place, holds state →
      member name state cursor = .ok (changed, place) → holds changed) {fuel : Nat}
    {first : Bool} {state result : σ} {cursor place : Cursor} (before : holds state)
    (read : readMembers member fuel first state cursor = .ok (result, place)) : holds result := by
  induction fuel generalizing first state cursor with
  | zero => cases read
  | succ fuel induction =>
      rw [readMembers] at read
      obtain ⟨name?, following, -, goesOn⟩ := Reading.and_then_ok read
      cases name? with
      | none =>
          cases goesOn
          exact before
      | some name =>
          obtain ⟨changed, rest, found, others⟩ := Reading.and_then_ok goesOn
          exact induction (keeps name state following changed rest before found) others

/-! ## Members in the order of their names -/

def Ascending (members : List (String × Value)) : Prop :=
  members.Pairwise fun first second => first.1 < second.1

theorem mem_put_member {name : String} {value : Value} {members : List (String × Value)}
    {entry : String × Value} (inside : entry ∈ putMember name value members) :
    entry = (name, value) ∨ entry ∈ members := by
  induction members with
  | nil => simpa [putMember] using inside
  | cons member members induction =>
      obtain ⟨other, held⟩ := member
      rw [putMember] at inside
      split at inside
      · rcases List.mem_cons.mp inside with same | later
        · exact Or.inl same
        · exact Or.inr (List.mem_cons_of_mem _ later)
      · split at inside
        · exact List.mem_cons.mp inside
        · rcases List.mem_cons.mp inside with same | later
          · exact Or.inr (same ▸ List.mem_cons_self)
          · exact (induction later).imp_right (List.mem_cons_of_mem _)

theorem put_member_ascending {name : String} {value : Value} {members : List (String × Value)}
    (ascending : Ascending members) : Ascending (putMember name value members) := by
  induction members with
  | nil => simp [putMember, Ascending]
  | cons member members induction =>
      obtain ⟨other, held⟩ := member
      obtain ⟨below, others⟩ := List.pairwise_cons.mp ascending
      rw [putMember]
      split
      · rename_i same
        subst same
        exact List.pairwise_cons.mpr ⟨below, others⟩
      · rename_i apart
        split
        · rename_i lower
          refine List.pairwise_cons.mpr ⟨fun entry inside => ?_, ascending⟩
          rcases List.mem_cons.mp inside with rfl | later
          · exact lower
          · exact String.lt_trans lower (below entry later)
        · rename_i notLower
          have higher : other < name := by grind
          refine List.pairwise_cons.mpr ⟨fun entry inside => ?_, induction others⟩
          rcases mem_put_member inside with rfl | earlier
          · exact higher
          · exact below entry earlier

theorem put_member_perm {name : String} (value : Value) {members : List (String × Value)}
    (fresh : name ∉ members.map Prod.fst) :
    (putMember name value members).Perm ((name, value) :: members) := by
  induction members with
  | nil => exact List.Perm.refl _
  | cons member members induction =>
      obtain ⟨other, held⟩ := member
      simp only [List.map_cons, List.mem_cons, not_or] at fresh
      rw [putMember, if_neg fresh.1]
      split
      · exact List.Perm.refl _
      · exact ((induction fresh.2).cons _).trans (List.Perm.swap _ _ _)

theorem put_all_perm {members : List (String × Value)} (held : List (String × Value))
    (distinct : (members.map Prod.fst).Nodup)
    (fresh : ∀ name ∈ members.map Prod.fst, name ∉ held.map Prod.fst) :
    (members.foldl (fun held member => putMember member.1 member.2 held) held).Perm
      (members ++ held) := by
  induction members generalizing held with
  | nil => exact List.Perm.refl _
  | cons member members induction =>
      obtain ⟨unlisted, distinct⟩ := List.nodup_cons.mp distinct
      have put := put_member_perm member.2 (fresh member.1 (by simp))
      have later : ∀ name ∈ members.map Prod.fst,
          name ∉ (putMember member.1 member.2 held).map Prod.fst := by
        intro name inside again
        rw [(put.map Prod.fst).mem_iff, List.map_cons, List.mem_cons] at again
        rcases again with rfl | before
        · exact unlisted inside
        · exact fresh name (by simp [inside]) before
      rw [List.foldl_cons]
      exact (induction _ distinct later).trans ((put.append_left _).trans List.perm_middle)

theorem put_all_ascending {members held : List (String × Value)} (ascending : Ascending held) :
    Ascending (members.foldl (fun held member => putMember member.1 member.2 held) held) := by
  induction members generalizing held with
  | nil => exact ascending
  | cons member members induction => exact induction (put_member_ascending ascending)

theorem Ascending.nodup {members : List (String × Value)} (ascending : Ascending members) :
    (members.map Prod.fst).Nodup := by
  rw [List.nodup_iff_pairwise_ne, List.pairwise_map]
  refine ascending.imp fun {first second} lower same => ?_
  rw [same] at lower
  exact String.lt_irrefl _ lower

theorem put_all_eq {members others : List (String × Value)} (permuted : others.Perm members)
    (ascending : Ascending members) :
    others.foldl (fun held member => putMember member.1 member.2 held) [] = members := by
  have distinct : (others.map Prod.fst).Nodup :=
    (permuted.map Prod.fst).nodup_iff.mpr ascending.nodup
  have placed : (others.foldl (fun held member => putMember member.1 member.2 held) []).Perm
      members := by
    have all := put_all_perm [] distinct (by simp)
    rw [List.append_nil] at all
    exact all.trans permuted
  refine placed.eq_of_pairwise (fun first second _ _ lower higher => ?_)
    (put_all_ascending List.Pairwise.nil) ascending
  exact absurd higher (String.lt_asymm lower)

/-! ## Values -/

/-- Integers are those of 64 bits, with a sign or without. -/
def Number.Fits : Number → Prop
  | .integer value => -Nat.pow 2 63 ≤ value ∧ value < Nat.pow 2 64
  | .real _ => True

namespace Value

inductive WellFormed : Value → Prop where
  | null : WellFormed .null
  | boolean {value : Bool} : WellFormed (.boolean value)
  | number {number : Number} (fits : number.Fits) : WellFormed (.number number)
  | text {text : String} : WellFormed (.text text)
  | array {elements : List Value} (each : ∀ element ∈ elements, WellFormed element) :
      WellFormed (.array elements)
  | object {members : List (String × Value)} (ascending : Ascending members)
      (each : ∀ member ∈ members, WellFormed member.2) : WellFormed (.object members)

inductive RealFree : Value → Prop where
  | null : RealFree .null
  | boolean {value : Bool} : RealFree (.boolean value)
  | integer {value : Int} : RealFree (.number (.integer value))
  | text {text : String} : RealFree (.text text)
  | array {elements : List Value} (each : ∀ element ∈ elements, RealFree element) :
      RealFree (.array elements)
  | object {members : List (String × Value)} (each : ∀ member ∈ members, RealFree member.2) :
      RealFree (.object members)

/-- No more than `depth` brackets stand in each other. -/
inductive NestedWithin : (depth : Nat) → Value → Prop where
  | null {depth : Nat} : NestedWithin depth .null
  | boolean {depth : Nat} {value : Bool} : NestedWithin depth (.boolean value)
  | number {depth : Nat} {number : Number} : NestedWithin depth (.number number)
  | text {depth : Nat} {text : String} : NestedWithin depth (.text text)
  | array {depth : Nat} {elements : List Value}
      (each : ∀ element ∈ elements, NestedWithin depth element) :
      NestedWithin (depth + 1) (.array elements)
  | object {depth : Nat} {members : List (String × Value)}
      (each : ∀ member ∈ members, NestedWithin depth member.2) :
      NestedWithin (depth + 1) (.object members)

end Value

/-! ## What is read is well formed -/

theorem absorbed_lt {value count : Nat} {bytes : Bytes} (below : value < Nat.pow 2 64) :
    (absorbDigits value count bytes).1 < Nat.pow 2 64 := by
  induction bytes generalizing value count with
  | nil => exact below
  | cons byte bytes induction =>
      rw [absorbDigits]
      split
      · rename_i taken
        exact induction (of_decide_eq_true (Bool.and_eq_true_iff.mp taken).2)
      · exact below

theorem whole_number_fits {negative : Bool} {magnitude : Nat} (below : magnitude < Nat.pow 2 64) :
    (wholeNumber negative magnitude).Fits := by
  simp only [wholeNumber]
  split
  · split
    · trivial
    · rename_i inside
      simp only [Bool.or_eq_true, decide_eq_true_eq, not_or] at inside
      constructor <;> omega
  · constructor <;> omega

theorem real_at_fits {negative : Bool} {significand : Nat} {exponent : Int}
    {cursor place : Cursor} {number : Number}
    (read : realAt negative significand exponent cursor = .ok (number, place)) : number.Fits := by
  rw [realAt] at read
  split at read <;> cases read
  trivial

theorem exponent_fits {negative : Bool} {significand : Nat} {start : Int}
    {cursor place : Cursor} {number : Number}
    (read : readExponent negative significand start cursor = .ok (number, place)) :
    number.Fits := by
  unfold readExponent at read
  dsimp only at read
  split at read
  · cases read
  · split at read
    · split at read
      · exact real_at_fits read
      · split at read <;> cases read
        trivial
    · cases read

theorem real_tail_fits {negative : Bool} {significand : Nat} {exponent : Int}
    {cursor place : Cursor} {number : Number}
    (read : readRealTail negative significand exponent cursor = .ok (number, place)) :
    number.Fits := by
  rw [readRealTail] at read
  split at read
  · unfold readPlaces at read
    dsimp only at read
    split at read
    · split at read <;> cases read
    · split at read
      · exact exponent_fits read
      · exact real_at_fits read
  · split at read
    · exact exponent_fits read
    · exact real_at_fits read

theorem number_fits {negative : Bool} {cursor place : Cursor} {number : Number}
    (read : readNumber negative cursor = .ok (number, place)) : number.Fits := by
  unfold readNumber at read
  dsimp only at read
  split at read
  · cases read
  · split at read
    · cases read
    · split at read
      · cases read
      · split at read
        · cases read
          exact whole_number_fits (absorbed_lt (by decide))
        · exact real_tail_fits read

theorem read_list_each (item : Decoder α) {holds : α → Prop} {depth : Nat}
    (each : ∀ inner, depth = inner + 1 → ∀ cursor value place,
      item.read inner cursor = .ok (value, place) → holds value)
    {cursor place : Cursor} {values : List α}
    (read : Decoder.readList item depth cursor = .ok (values, place)) :
    ∀ value ∈ values, holds value := by
  cases depth with
  | zero => cases read
  | succ depth =>
      exact read_elements_each (each depth rfl) (fun _ member => by cases member) read

theorem object_well_formed {depth : Nat}
    (inner : ∀ cursor value place, readValue depth cursor = .ok (value, place) → value.WellFormed)
    {fuel : Nat} {cursor place : Cursor} {members : List (String × Value)}
    (read : readMembers
      (fun name members place =>
        (readColon place).andThen fun _ following =>
          (readValue depth following).map fun value => putMember name value members)
      fuel true [] cursor = .ok (members, place)) : (Value.object members).WellFormed := by
  have kept : Ascending members ∧ ∀ member ∈ members, member.2.WellFormed := by
    refine read_members_keep (fun members : List (String × Value) =>
      Ascending members ∧ ∀ member ∈ members, member.2.WellFormed) ?_
      ⟨List.Pairwise.nil, fun _ member => by cases member⟩ read
    rintro name members cursor changed place ⟨ascending, each⟩ put
    obtain ⟨_, following, -, stored⟩ := Reading.and_then_ok put
    obtain ⟨value, found, rfl⟩ := Reading.map_ok stored
    refine ⟨put_member_ascending ascending, fun member inside => ?_⟩
    rcases mem_put_member inside with rfl | earlier
    · exact inner following value place found
    · exact each member earlier
  exact .object kept.1 kept.2

/-- How a value that is kept was read, by what stands at its beginning. -/
inductive KeptRead (depth : Nat) (cursor : Cursor) : Value → Cursor → Prop where
  | null {place : Cursor} (first : cursor.peek = some 0x6E) : KeptRead depth cursor .null place
  | boolean {value : Bool} {place : Cursor} : KeptRead depth cursor (.boolean value) place
  | number {negative : Bool} {start place : Cursor} {number : Number}
      (found : readNumber negative start = .ok (number, place)) :
      KeptRead depth cursor (.number number) place
  | text {text : String} {place : Cursor} : KeptRead depth cursor (.text text) place
  | array {elements : List Value} {place : Cursor}
      (found : Decoder.readList Decoder.kept depth cursor = .ok (elements, place)) :
      KeptRead depth cursor (.array elements) place
  | object {smaller fuel : Nat} {start place : Cursor} {members : List (String × Value)}
      (below : depth = smaller + 1)
      (found : readMembers
        (fun name members place =>
          (readColon place).andThen fun _ following =>
            (readValue smaller following).map fun value => putMember name value members)
        fuel true [] start = .ok (members, place)) :
      KeptRead depth cursor (.object members) place

theorem kept_read {depth : Nat} {cursor place : Cursor} {value : Value}
    (read : readValue depth cursor = .ok (value, place)) :
    KeptRead depth cursor.skipBlanks value place := by
  rw [Decoder.read_value_eq] at read
  dsimp only [atValue] at read
  split at read
  · cases read
  · rename_i byte first
    split at read
    · rename_i isNull
      obtain ⟨_, -, rfl⟩ := Reading.map_ok read
      exact .null (isNull ▸ first)
    · split at read
      · obtain ⟨_, -, rfl⟩ := Reading.map_ok read
        exact .boolean
      · split at read
        · obtain ⟨_, -, rfl⟩ := Reading.map_ok read
          exact .boolean
        · split at read
          · obtain ⟨number, found, rfl⟩ := Reading.map_ok read
            exact .number found
          · split at read
            · obtain ⟨number, found, rfl⟩ := Reading.map_ok read
              exact .number found
            · split at read
              · obtain ⟨_, -, rfl⟩ := Reading.map_ok read
                exact .text
              · split at read
                · obtain ⟨elements, found, rfl⟩ := Reading.map_ok read
                  exact .array found
                · split at read
                  · split at read
                    · cases read
                    · obtain ⟨members, found, rfl⟩ := Reading.map_ok read
                      exact .object rfl found
                  · cases read

theorem kept_well_formed_step {depth : Nat}
    (inner : ∀ smaller, depth = smaller + 1 → ∀ cursor value place,
      readValue smaller cursor = .ok (value, place) → value.WellFormed)
    {cursor place : Cursor} {value : Value} (read : readValue depth cursor = .ok (value, place)) :
    value.WellFormed := by
  cases kept_read read with
  | null => exact .null
  | boolean => exact .boolean
  | number found => exact .number (number_fits found)
  | text => exact .text
  | array found => exact .array (read_list_each Decoder.kept inner found)
  | object below found => exact object_well_formed (inner _ below) found

theorem kept_well_formed {depth : Nat} {cursor place : Cursor} {value : Value}
    (read : readValue depth cursor = .ok (value, place)) : value.WellFormed := by
  induction depth generalizing cursor value place with
  | zero => exact kept_well_formed_step (fun _ impossible => by cases impossible) read
  | succ depth induction =>
      refine kept_well_formed_step (fun smaller same cursor value place found => ?_) read
      cases same
      exact induction found

end LocalNet.Json
