import Mathlib.Algebra.Ring.Nat
import LocalNet.Pem.Base64

/-!
# What a base64 text spells

A base64 text is a row of digits of six bits, with blanks anywhere and perhaps padding at its end. It
spells the bytes that the same bits make in groups of eight. The decoder takes the symbols in blocks of
eight and joins four digits at a time; what it returns is what the text spells.
-/

namespace LocalNet

/-- The low bits of a number, the most significant first. -/
def bits : (count : Nat) → (value : Nat) → List Bool
  | 0, _ => []
  | count + 1, value => bits count (value / 2) ++ [decide (value % 2 = 1)]

@[simp] theorem bits_length (count value : Nat) : (bits count value).length = count := by
  induction count generalizing value with
  | zero => rfl
  | succ count ih => simp [bits, ih]

theorem bits_append (high low : Nat) (first : Nat) {second : Nat} (small : second < 2 ^ low) :
    bits (high + low) (first * 2 ^ low + second) = bits high first ++ bits low second := by
  induction low generalizing second with
  | zero =>
      have none : second = 0 := by simpa using small
      simp [bits, none]
  | succ low ih =>
      have half : second / 2 < 2 ^ low := by omega
      have doubled : first * 2 ^ (low + 1) = 2 * (first * 2 ^ low) := by
        rw [Nat.pow_succ, ← Nat.mul_assoc, Nat.mul_comm]
      have upper : (first * 2 ^ (low + 1) + second) / 2 = first * 2 ^ low + second / 2 := by omega
      have lowest : (first * 2 ^ (low + 1) + second) % 2 = second % 2 := by omega
      rw [← Nat.add_assoc, bits, bits, upper, lowest, ih half, List.append_assoc]

theorem bits_split (high low value : Nat) :
    bits (high + low) value = bits high (value / 2 ^ low) ++ bits low (value % 2 ^ low) := by
  have whole : value = value / 2 ^ low * 2 ^ low + value % 2 ^ low := (Nat.div_add_mod' ..).symm
  conv => lhs; rw [whole]
  exact bits_append high low _ (Nat.mod_lt _ (Nat.two_pow_pos low))

theorem bits_injective {count first second : Nat} (small : first < 2 ^ count)
    (little : second < 2 ^ count) (same : bits count first = bits count second) :
    first = second := by
  induction count generalizing first second with
  | zero => omega
  | succ count ih =>
      obtain ⟨upper, lowest⟩ := List.append_inj' same rfl
      have halves : first / 2 = second / 2 := ih (by omega) (by omega) upper
      have parity : first % 2 = 1 ↔ second % 2 = 1 := by simpa using lowest
      omega

namespace Bytes

def bits (bytes : Bytes) : List Bool :=
  bytes.flatMap fun byte => LocalNet.bits 8 byte.toNat

theorem bits_ofNat (count value : Nat) :
    bits (ofNat count value) = LocalNet.bits (8 * count) value := by
  induction count generalizing value with
  | zero => rfl
  | succ count ih =>
      have lowest : (UInt8.ofNat (value % 256)).toNat = value % 256 := by simp
      have split : LocalNet.bits (8 * count + 8) value =
          LocalNet.bits (8 * count) (value / 256) ++ LocalNet.bits 8 (value % 256) :=
        bits_split (8 * count) 8 value
      rw [Nat.mul_succ, split, ← ih, ofNat, bits, bits, List.flatMap_append]
      simp only [List.flatMap_cons, List.flatMap_nil, List.append_nil, lowest]

theorem bits_length (bytes : Bytes) : bytes.bits.length = bytes.length * 8 := by
  simp [bits, List.length_flatMap, List.map_const']

theorem bits_append (first second : Bytes) : (first ++ second).bits = first.bits ++ second.bits :=
  List.flatMap_append

/-- Bits left over that do not fill a byte do not change what the bytes before are. -/
theorem eq_of_bits {first second : Bytes} {left other : List Bool} (short : left.length < 8)
    (brief : other.length < 8) (same : bits first ++ left = bits second ++ other) :
    first = second := by
  induction first generalizing second with
  | nil =>
      cases second with
      | nil => rfl
      | cons byte rest =>
          have lengths := congrArg List.length same
          simp only [List.length_append, bits_length, List.length_nil, List.length_cons] at lengths
          omega
  | cons byte rest ih =>
      cases second with
      | nil =>
          have lengths := congrArg List.length same
          simp only [List.length_append, bits_length, List.length_nil, List.length_cons] at lengths
          omega
      | cons twin later =>
          simp only [bits, List.flatMap_cons, List.append_assoc] at same
          obtain ⟨leading, following⟩ := List.append_inj same (by simp)
          have bytes : byte = twin :=
            UInt8.toNat_inj.mp (bits_injective byte.toNat_lt twin.toNat_lt leading)
          rw [bytes, ih following]

end Bytes

namespace Pem

def alphabet : Bytes :=
  Bytes.ofText "ABCDEFGHIJKLMNOPQRSTUVWXYZabcdefghijklmnopqrstuvwxyz0123456789+/"

def blanks : Bytes := Bytes.ofText "\t\n\x0b\x0c\r "

/-- The symbols that a text is made of, where `none` is padding. -/
inductive Symbols : Bytes → List (Option Nat) → Prop
  | nil : Symbols [] []
  | digit {value : Nat} {byte : UInt8} {rest : Bytes} {symbols : List (Option Nat)} :
      alphabet[value]? = some byte → Symbols rest symbols →
      Symbols (byte :: rest) (some value :: symbols)
  | padding {rest : Bytes} {symbols : List (Option Nat)} :
      Symbols rest symbols → Symbols (0x3D :: rest) (none :: symbols)
  | blank {byte : UInt8} {rest : Bytes} {symbols : List (Option Nat)} :
      byte ∈ blanks → Symbols rest symbols → Symbols (byte :: rest) symbols

def digitBits (digits : List Nat) : List Bool :=
  digits.flatMap (bits 6)

theorem digitBits_length (digits : List Nat) : (digitBits digits).length = digits.length * 6 := by
  simp [digitBits, List.length_flatMap, List.map_const']

/-- The row of digits is as it is, or filled up with padding to a multiple of four. -/
def Filled (digits : List Nat) (padding : Nat) : Prop :=
  padding = 0 ∨ padding < 4 ∧ (digits.length + padding) % 4 = 0

/-- What the digits of `text` have in bits beyond whole bytes is less than a digit. -/
inductive Base64 (text content : Bytes) : Prop
  | intro (digits : List Nat) (padding : Nat) (left : List Bool)
      (symbols : Symbols text (digits.map some ++ List.replicate padding none))
      (filled : Filled digits padding) (spelled : digitBits digits = content.bits ++ left)
      (short : left.length < 6)

/-! ### Symbols -/

theorem symbol_of_digit {value : Nat} {byte : UInt8} (found : alphabet[value]? = some byte) :
    Symbol.of byte = .digit value ∧ value < 64 := by
  have table : ∀ value : Fin 64, alphabet[value.val]?.map Symbol.of = some (.digit value) := by
    decide +kernel
  have total : alphabet.length = 64 := by decide +kernel
  obtain ⟨inside, -⟩ := List.getElem?_eq_some_iff.mp found
  have entry := table ⟨value, total ▸ inside⟩
  rw [found] at entry
  exact ⟨Option.some.inj entry, total ▸ inside⟩

theorem symbol_of_blank {byte : UInt8} (blank : byte ∈ blanks) : Symbol.of byte = .blank := by
  have table : ∀ byte ∈ blanks, Symbol.of byte = .blank := by decide +kernel
  exact table byte blank

theorem Symbols.digit_bound {text : Bytes} {symbols : List (Option Nat)}
    (spelled : Symbols text symbols) {value : Nat} (inside : some value ∈ symbols) : value < 64 := by
  induction spelled with
  | nil => cases inside
  | digit found _ ih =>
      rcases List.mem_cons.mp inside with same | later
      · exact Option.some.inj same ▸ (symbol_of_digit found).2
      · exact ih later
  | padding _ ih =>
      rcases List.mem_cons.mp inside with same | later
      · cases same
      · exact ih later
  | blank _ _ ih => exact ih inside

theorem Symbols.append {text rest : Bytes} {symbols later : List (Option Nat)}
    (spelled : Symbols text symbols) (following : Symbols rest later) :
    Symbols (text ++ rest) (symbols ++ later) := by
  induction spelled with
  | nil => exact following
  | digit found _ ih => exact .digit found ih
  | padding _ ih => exact .padding ih
  | blank inside _ ih => exact .blank inside ih

theorem Symbols.split {text rest : Bytes} {symbols : List (Option Nat)}
    (spelled : Symbols (text ++ rest) symbols) :
    ∃ leading later, symbols = leading ++ later ∧ Symbols text leading ∧ Symbols rest later := by
  induction text generalizing symbols with
  | nil => exact ⟨[], symbols, rfl, .nil, spelled⟩
  | cons byte text ih =>
      cases spelled with
      | digit found following =>
          obtain ⟨leading, later, rfl, first, second⟩ := ih following
          exact ⟨_ :: leading, later, rfl, .digit found first, second⟩
      | padding following =>
          obtain ⟨leading, later, rfl, first, second⟩ := ih following
          exact ⟨_ :: leading, later, rfl, .padding first, second⟩
      | blank inside following =>
          obtain ⟨leading, later, rfl, first, second⟩ := ih following
          exact ⟨leading, later, rfl, .blank inside first, second⟩

/-! ### Digits -/

theorem joinDigits_append (later : List Nat) :
    ∀ {digits : List Nat}, digits.length % 4 = 0 →
      joinDigits (digits ++ later) = joinDigits digits ++ joinDigits later
  | [], _ => rfl
  | [_], whole => by simp at whole
  | [_, _], whole => by simp at whole
  | [_, _, _], whole => by simp at whole
  | first :: second :: third :: fourth :: rest, whole => by
      have fewer : rest.length % 4 = 0 := by
        simp only [List.length_cons] at whole
        omega
      simp only [List.cons_append, joinDigits, joinDigits_append later fewer, List.append_assoc]

theorem bits_digit (high first : Nat) {digit : Nat} (small : digit < 64) :
    bits (high + 6) (first * 64 + digit) = bits high first ++ bits 6 digit :=
  bits_append high 6 first small

theorem digitBits_joined :
    ∀ {digits : List Nat}, (∀ digit ∈ digits, digit < 64) → digits.length % 4 ≠ 1 →
      ∃ left, digitBits digits = (joinDigits digits).bits ++ left ∧ left.length < 6
  | [], _, _ => ⟨[], rfl, by decide⟩
  | [_], _, odd => absurd rfl odd
  | [first, second], small, _ => by
      simp only [List.mem_cons, List.not_mem_nil, or_false, forall_eq_or_imp, forall_eq] at small
      have split (value : Nat) : bits 12 value = bits (8 * 1) (value / 16) ++ bits 4 (value % 16) :=
        bits_split 8 4 value
      refine ⟨bits 4 ((first * 64 + second) % 16), ?_, by simp⟩
      rw [joinDigits, Bytes.bits_ofNat, ← split, bits_digit 6 first small.2]
      simp [digitBits]
  | [first, second, third], small, _ => by
      simp only [List.mem_cons, List.not_mem_nil, or_false, forall_eq_or_imp, forall_eq] at small
      have split (value : Nat) : bits 18 value = bits (8 * 2) (value / 4) ++ bits 2 (value % 4) :=
        bits_split 16 2 value
      refine ⟨bits 2 (((first * 64 + second) * 64 + third) % 4), ?_, by simp⟩
      rw [joinDigits, Bytes.bits_ofNat, ← split, bits_digit 12 _ small.2.2,
        bits_digit 6 first small.2.1]
      simp [digitBits]
  | first :: second :: third :: fourth :: rest, small, odd => by
      simp only [List.mem_cons, forall_eq_or_imp] at small
      obtain ⟨-, smallSecond, smallThird, smallFourth, smaller⟩ := small
      have fewer : rest.length % 4 ≠ 1 := by
        simp only [List.length_cons] at odd
        omega
      obtain ⟨left, later, short⟩ := digitBits_joined smaller fewer
      refine ⟨left, ?_, short⟩
      have leading : (Bytes.ofNat 3 (((first * 64 + second) * 64 + third) * 64 + fourth)).bits =
          digitBits [first, second, third, fourth] := by
        rw [Bytes.bits_ofNat, bits_digit 18 _ smallFourth, bits_digit 12 _ smallThird,
          bits_digit 6 _ smallSecond]
        simp [digitBits]
      rw [joinDigits, Bytes.bits_append, List.append_assoc, ← later, leading]
      rfl

/-! ### Blocks -/

variable {digits : List Nat} {padding : Nat}

theorem inner_block_of_digits (digits : List Nat) :
    innerBlock (digits.map some) = .ok (joinDigits digits) := by
  simp [innerBlock, List.filterMap_map]

theorem trailing_digits_of_filled (filled : Filled digits padding) (whole : digits.length % 4 ≠ 1)
    (short : digits.length + padding ≤ 4) :
    trailingDigits (digits.map some ++ List.replicate padding none) = .ok digits := by
  unfold Filled at filled
  match digits with
  | [] =>
      obtain rfl : padding = 0 := by
        simp only [List.length_nil] at filled
        omega
      rfl
  | [_] => exact absurd rfl whole
  | [_, _] =>
      obtain rfl | rfl : padding = 0 ∨ padding = 2 := by
        simp only [List.length_cons, List.length_nil] at filled
        omega
      all_goals rfl
  | [_, _, _] =>
      obtain rfl | rfl : padding = 0 ∨ padding = 1 := by
        simp only [List.length_cons, List.length_nil] at filled
        omega
      all_goals rfl
  | [_, _, _, _] =>
      obtain rfl : padding = 0 := by
        simp only [List.length_cons, List.length_nil] at short
        omega
      rfl
  | _ :: _ :: _ :: _ :: _ :: _ =>
      simp only [List.length_cons] at short
      omega

/-- A row of digits is filled exactly if it is after some of its digits in fours. -/
theorem Filled.drop (filled : Filled digits padding) {count : Nat} (fours : count % 4 = 0)
    (within : count ≤ digits.length) : Filled (digits.drop count) padding := by
  unfold Filled at filled ⊢
  rw [List.length_drop]
  omega

theorem last_block_of_filled (filled : Filled digits padding) (whole : digits.length % 4 ≠ 1)
    (short : digits.length + padding ≤ 8) :
    lastBlock (digits.map some ++ List.replicate padding none) = .ok (joinDigits digits) := by
  unfold lastBlock
  by_cases half : digits.length + padding ≤ 4
  · have brief : (digits.map some ++ List.replicate padding none).length ≤ 4 := by simpa using half
    rw [if_pos brief, trailing_digits_of_filled filled whole half]
    rfl
  · have long : ¬(digits.map some ++ List.replicate padding none).length ≤ 4 := by simpa using half
    have four : 4 ≤ digits.length := by
      unfold Filled at filled
      omega
    have fewer : (digits.drop 4).length = digits.length - 4 := List.length_drop
    have leading : (digits.map some ++ List.replicate padding none).take 4 =
        (digits.take 4).map some := by
      rw [List.take_append_of_le_length (by simpa using four), List.map_take]
    have trailing : (digits.map some ++ List.replicate padding none).drop 4 =
        (digits.drop 4).map some ++ List.replicate padding none := by
      rw [List.drop_append_of_le_length (by simpa using four), List.map_drop]
    have joined : joinDigits (digits.take 4) ++ joinDigits (digits.drop 4) = joinDigits digits := by
      rw [← joinDigits_append _ (by simp [four]), List.take_append_drop]
    rw [if_neg long, leading, trailing, inner_block_of_digits,
      trailing_digits_of_filled (filled.drop rfl four) (by omega) (by omega), ← joined]
    rfl

/-! ### The whole text -/

/-- The decoder comes to the bytes of all digits from within any block. -/
def Decodes (text : Bytes) (symbols : List (Option Nat)) : Prop :=
  ∀ (gathered : List (Option Nat)) ⦃digits : List Nat⦄ ⦃padding : Nat⦄, gathered.length ≤ 8 →
    gathered ++ symbols = digits.map some ++ List.replicate padding none →
    Filled digits padding → digits.length % 4 ≠ 1 →
      decodeAfter gathered.reverse text = .ok (joinDigits digits)

theorem Decodes.nil : Decodes [] [] := by
  intro gathered digits padding room all filled whole
  rw [List.append_nil] at all
  have lengths := congrArg List.length all
  simp only [List.length_append, List.length_map, List.length_replicate] at lengths
  rw [decodeAfter, List.reverse_reverse, all]
  exact last_block_of_filled filled whole (by omega)

theorem Decodes.blank {byte : UInt8} {rest : Bytes} {symbols : List (Option Nat)}
    (skipped : Symbol.of byte = .blank) (decodes : Decodes rest symbols) :
    Decodes (byte :: rest) symbols := by
  intro gathered digits padding room all filled whole
  rw [decodeAfter, skipped]
  exact decodes gathered room all filled whole

theorem Decodes.symbol (byte : UInt8) {rest : Bytes} {symbols : List (Option Nat)}
    (used : Symbol.of byte ≠ .blank) (valid : Symbol.of byte ≠ .invalid)
    (decodes : Decodes rest symbols) :
    Decodes (byte :: rest) ((Symbol.of byte).digit? :: symbols) := by
  intro gathered digits padding room all filled whole
  have read : decodeAfter gathered.reverse (byte :: rest) =
      if gathered.reverse.length < 8 then
        decodeAfter ((Symbol.of byte).digit? :: gathered.reverse) rest
      else do
        let decoded ← innerBlock gathered.reverse.reverse
        return decoded ++ (← decodeAfter [(Symbol.of byte).digit?] rest) := by
    rw [decodeAfter]
    split
    · contradiction
    · contradiction
    · rfl
  rw [read, List.length_reverse, List.reverse_reverse]
  by_cases free : gathered.length < 8
  · rw [if_pos free, ← List.reverse_concat]
    exact decodes _ (by simpa [Nat.lt_succ_iff] using free) (by simpa using all) filled whole
  · -- More follows a full block, so that all of its symbols are digits.
    have lengths := congrArg List.length all
    simp only [List.length_append, List.length_cons, List.length_map, List.length_replicate]
      at lengths
    have eight : 8 ≤ digits.length := by
      unfold Filled at filled
      omega
    have full : gathered = (digits.take 8).map some := by
      have taken := congrArg (List.take 8) all
      rw [List.take_append_of_le_length (by omega), List.take_of_length_le room,
        List.take_append_of_le_length (by simpa using eight), ← List.map_take] at taken
      exact taken
    have later : [(Symbol.of byte).digit?] ++ symbols =
        (digits.drop 8).map some ++ List.replicate padding none := by
      have dropped := congrArg (List.drop 8) all
      rw [List.drop_append_of_le_length (by omega), List.drop_of_length_le room,
        List.drop_append_of_le_length (by simpa using eight), ← List.map_drop] at dropped
      exact dropped
    have fewer : (digits.drop 8).length = digits.length - 8 := List.length_drop
    have next : decodeAfter [(Symbol.of byte).digit?] rest =
        .ok (joinDigits (digits.drop 8)) :=
      decodes [(Symbol.of byte).digit?] (by simp) later (filled.drop rfl eight)
        (by omega)
    have joined : joinDigits (digits.take 8) ++ joinDigits (digits.drop 8) = joinDigits digits := by
      rw [← joinDigits_append _ (by simp [eight]), List.take_append_drop]
    rw [if_neg free, full, inner_block_of_digits, next, ← joined]
    rfl

theorem Symbols.decodes {text : Bytes} {symbols : List (Option Nat)}
    (spelled : Symbols text symbols) : Decodes text symbols := by
  induction spelled with
  | nil => exact Decodes.nil
  | @digit value byte _ _ found _ ih =>
      have read : Symbol.of byte = .digit value := (symbol_of_digit found).1
      have decodes := Decodes.symbol byte (by simp [read]) (by simp [read]) ih
      rwa [read] at decodes
  | padding _ ih => exact Decodes.symbol 0x3D (by decide) (by decide) ih
  | blank inside _ ih => exact Decodes.blank (symbol_of_blank inside) ih

theorem Base64.decode {text content : Bytes} (written : Base64 text content) :
    decodeBase64 text = .ok content := by
  obtain ⟨digits, padding, left, symbols, filled, spelled, short⟩ := written
  have small : ∀ digit ∈ digits, digit < 64 := fun digit inside =>
    symbols.digit_bound (List.mem_append_left _ (List.mem_map_of_mem inside))
  have whole : digits.length % 4 ≠ 1 := by
    have lengths := congrArg List.length spelled
    rw [List.length_append, digitBits_length, Bytes.bits_length] at lengths
    omega
  obtain ⟨rest, joined, brief⟩ := digitBits_joined small whole
  have same : joinDigits digits = content :=
    Bytes.eq_of_bits (by omega) (by omega) (joined.symm.trans spelled)
  exact same ▸ symbols.decodes [] (by simp) (by simp) filled whole

end Pem

end LocalNet
