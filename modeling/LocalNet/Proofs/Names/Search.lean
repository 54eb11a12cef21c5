import Mathlib.Data.Finset.Card
import Mathlib.Order.Bounds.Basic
import Mathlib.Order.Interval.Finset.Nat
import LocalNet.Proofs.Names
import LocalNet.Proofs.Text.Numeral

/-!
# The search for a free name ends

The search goes round with a counter of 64 bits until the counter's name is free, and nothing bounds its
rounds beforehand. Different suffixes have different names, so that it passes over no more names
than are taken, and it stops at the first free one. While there is room for as many suffixes as names are
taken, and for one more, the counter never overflows, and an allocator finds the same name.
-/

namespace LocalNet.NameAllocator

theorem name_of_numeral (suffix : Nat) :
    ∃ digits, (nameOf suffix).toList = "node-".toList ++ digits ∧ Text.Numeral digits suffix :=
  ⟨Nat.toDigits 10 suffix, name_of_to_list suffix, Text.numeral_of_nat suffix⟩

inductive Round where
  /-- The counter has no successor. -/
  | overflow
  | passed (counter : UInt64)
  | found (name : String) (counter : UInt64)

/-- In every round the counter goes on, before the name that it stood for is looked up. -/
def roundFrom (taken : List String) (counter : UInt64) : Round :=
  if counter.toNat + 1 = UInt64.size then .overflow
  else if taken.contains (nameOf counter.toNat) then .passed (counter + 1)
  else .found (nameOf counter.toNat) (counter + 1)

/-- A search that ends after so many rounds: the name that it hands out, and where it leaves the counter.
There is none through an overflow. -/
inductive Search (taken : List String) :
    (rounds : Nat) → (counter : UInt64) → (name : String) → (left : UInt64) → Prop where
  | found {counter left : UInt64} {name : String}
      (ends : roundFrom taken counter = .found name left) : Search taken 1 counter name left
  | passed {rounds : Nat} {counter next left : UInt64} {name : String}
      (onward : roundFrom taken counter = .passed next) (rest : Search taken rounds next name left) :
    Search taken (rounds + 1) counter name left

variable {taken : List String} {counter : UInt64}

theorem counter_goes_on (room : counter.toNat + 1 < UInt64.size) :
    (counter + 1).toNat = counter.toNat + 1 := by
  rw [UInt64.toNat_add, UInt64.toNat_one, Nat.mod_eq_of_lt room]

theorem round_passes (room : counter.toNat + 1 < UInt64.size) (present : nameOf counter.toNat ∈ taken) :
    roundFrom taken counter = .passed (counter + 1) := by
  rw [roundFrom, if_neg (Nat.ne_of_lt room), if_pos (by simpa using present)]

theorem round_finds (room : counter.toNat + 1 < UInt64.size) (free : nameOf counter.toNat ∉ taken) :
    roundFrom taken counter = .found (nameOf counter.toNat) (counter + 1) := by
  rw [roundFrom, if_neg (Nat.ne_of_lt room), if_neg (by simpa using free)]

/-- The search gets to any suffix that it has room for, if all names before are taken. -/
theorem search_reaches {suffix : Nat} (low : counter.toNat ≤ suffix) (room : suffix + 1 < UInt64.size)
    (skipped : ∀ earlier, counter.toNat ≤ earlier → earlier < suffix → nameOf earlier ∈ taken)
    (free : nameOf suffix ∉ taken) :
    ∃ left, Search taken (suffix - counter.toNat + 1) counter (nameOf suffix) left ∧
      left.toNat = suffix + 1 := by
  obtain ⟨distance, rfl⟩ := Nat.exists_eq_add_of_le low
  rw [Nat.add_sub_cancel_left]
  -- Every round goes one step of the distance, and what is left of it has the same end.
  induction distance generalizing counter with
  | zero => exact ⟨counter + 1, .found (round_finds room free), counter_goes_on room⟩
  | succ distance ih =>
      have here : counter.toNat + 1 < UInt64.size := by omega
      have next := counter_goes_on here
      have shifted : (counter + 1).toNat + distance = counter.toNat + (distance + 1) := by omega
      obtain ⟨left, rest, leaves⟩ := @ih (counter + 1) (by omega) (by omega)
        (fun earlier above below => skipped earlier (by omega) (by omega)) (by rwa [shifted])
      rw [shifted] at rest leaves
      exact ⟨left, .passed (round_passes here (skipped _ (Nat.le_refl _) (by omega))) rest, leaves⟩

/-- A round can end in one way only, and so can a search. -/
theorem Search.unique {rounds others : Nat} {name other : String} {left last : UInt64}
    (search : Search taken rounds counter name left) (again : Search taken others counter other last) :
    rounds = others ∧ name = other ∧ left = last := by
  induction search generalizing others with
  | found ends =>
      cases again with
      | found same =>
          cases ends.symm.trans same
          exact ⟨rfl, rfl, rfl⟩
      | passed onward => cases ends.symm.trans onward
  | passed onward _ ih =>
      cases again with
      | found ends => cases onward.symm.trans ends
      | passed same rest =>
          cases onward.symm.trans same
          obtain ⟨count, ends⟩ := ih rest
          exact ⟨congrArg (· + 1) count, ends⟩

/-- The names that the search passes over are all taken, and no two of them are the same. -/
theorem passed_names_le (taken : List String) (suffix : Nat) :
    freeSuffix taken taken.length suffix - suffix ≤ taken.toFinset.card := by
  have passed : (Finset.Ico suffix (freeSuffix taken taken.length suffix)).image nameOf ⊆
      taken.toFinset := by
    intro name member
    obtain ⟨skipped, between, rfl⟩ := Finset.mem_image.mp member
    obtain ⟨low, high⟩ := Finset.mem_Ico.mp between
    exact List.mem_toFinset.mpr (skipped_name_taken taken taken.length low high)
  have bound := Finset.card_le_card passed
  rwa [Finset.card_image_of_injective _ fun _ _ => name_of_injective, Nat.card_Ico] at bound

theorem free_suffix_least (taken : List String) (suffix : Nat) :
    IsLeast {later | suffix ≤ later ∧ nameOf later ∉ taken}
      (freeSuffix taken taken.length suffix) := by
  refine ⟨⟨le_free_suffix taken taken.length suffix, free_suffix_free taken suffix⟩, ?_⟩
  rintro other ⟨low, free⟩
  by_contra less
  exact free (skipped_name_taken taken taken.length low (Nat.lt_of_not_le less))

/-- The search from a counter ends, at the least suffix from there on whose name is free. It takes one round
more at most than there are different names that are taken, and it leaves the counter just past that
suffix, which did not overflow on the way. The name is the stem and the suffix in decimal. -/
theorem search_ends_at_least_free_suffix (taken : List String) (counter : UInt64)
    (room : counter.toNat + taken.toFinset.card + 1 < UInt64.size) :
    ∃ suffix left,
      IsLeast {later | counter.toNat ≤ later ∧ nameOf later ∉ taken} suffix ∧
      (∀ rounds name last, Search taken rounds counter name last ↔
        rounds = suffix - counter.toNat + 1 ∧ name = nameOf suffix ∧ last = left) ∧
      suffix - counter.toNat + 1 ≤ taken.toFinset.card + 1 ∧
      left.toNat = suffix + 1 ∧
      (∃ digits, (nameOf suffix).toList = "node-".toList ++ digits ∧ Text.Numeral digits suffix) ∧
      nextName ⟨counter.toNat⟩ taken = (nameOf suffix, ⟨left.toNat⟩) := by
  have few := passed_names_le taken counter.toNat
  have least := free_suffix_least taken counter.toNat
  obtain ⟨low, free⟩ := least.1
  obtain ⟨left, search, leaves⟩ := search_reaches low (by omega)
    (fun earlier above below => skipped_name_taken taken taken.length above below) free
  refine ⟨_, left, least, ?_, by omega, leaves, name_of_numeral _, ?_⟩
  · intro rounds name last
    constructor
    · exact fun other => other.unique search
    · rintro ⟨rfl, rfl, rfl⟩
      exact search
  · rw [nextName, leaves]

/-- Two names, one of them told twice, which leave one suffix of 64 bits that can be handed out. -/
def lastNames : List String :=
  ["node-18446744073709551613", "node-18446744073709551612", "node-18446744073709551613"]

theorem search_ends_before_overflow :
    (18446744073709551612 : UInt64).toNat + lastNames.toFinset.card + 1 < UInt64.size ∧
    nextName ⟨18446744073709551612⟩ lastNames =
      ("node-18446744073709551614", ⟨18446744073709551615⟩) ∧
    Search lastNames 3 18446744073709551612 "node-18446744073709551614" 18446744073709551615 := by
  have room : (18446744073709551612 : UInt64).toNat + lastNames.toFinset.card + 1 < UInt64.size := by
    decide
  have handed : nextName ⟨18446744073709551612⟩ lastNames =
      ("node-18446744073709551614", ⟨18446744073709551615⟩) := by
    decide
  obtain ⟨suffix, left, -, ends, -, leaves, -, found⟩ :=
    search_ends_at_least_free_suffix lastNames 18446744073709551612 room
  obtain ⟨name, last⟩ := Prod.mk.inj (handed.symm.trans found)
  have counted : left.toNat = 18446744073709551615 := (NameAllocator.mk.inj last).symm
  obtain rfl : left = 18446744073709551615 := UInt64.toNat_inj.mp counted
  obtain rfl : suffix = 18446744073709551614 := by omega
  exact ⟨room, handed, (ends _ _ _).mpr ⟨rfl, name, rfl⟩⟩

end LocalNet.NameAllocator
