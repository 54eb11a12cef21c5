import LocalNet.Names

/-!
# Generated names are free, plain and never blank

An allocator looks for the first suffix from its own on whose name is free. It tries one name more
than are taken, and different suffixes have different names, so the search ends at a free one.
-/

namespace LocalNet.NameAllocator

theorem name_of_to_list (suffix : Nat) :
    (nameOf suffix).toList = generatedStem.toList ++ Nat.toDigits 10 suffix := by
  simp [nameOf, String.toList_append]

theorem name_of_injective {left right : Nat} (same : nameOf left = nameOf right) :
    left = right := by
  have digits : Nat.toDigits 10 left = Nat.toDigits 10 right := by
    have lists := congrArg String.toList same
    rw [name_of_to_list, name_of_to_list] at lists
    exact List.append_cancel_left lists
  have values := congrArg (fun chars => Nat.ofDigitChars 10 chars 0) digits
  simpa using values

theorem name_of_ne_blank (suffix : Nat) : nameOf suffix ≠ "" := by
  intro blank
  have lists := congrArg String.toList blank
  rw [name_of_to_list] at lists
  have digits : Nat.toDigits 10 suffix = [] := by
    simpa using (List.append_eq_nil_iff.mp lists).2
  exact Nat.toDigits_ne_nil digits

/-- Letters, a dash and digits: none of them divides the components of a path. -/
theorem name_of_valid (suffix : Nat) : isValidNodeName (nameOf suffix) = true := by
  have plain : ∀ char ∈ (nameOf suffix).toList, char ≠ '/' ∧ char ≠ '\\' ∧ char ≠ '.' := by
    intro char member
    rw [name_of_to_list] at member
    rcases List.mem_append.mp member with stem | digit
    · have letters : char = 'n' ∨ char = 'o' ∨ char = 'd' ∨ char = 'e' ∨ char = '-' := by
        simpa [generatedStem] using stem
      rcases letters with rfl | rfl | rfl | rfl | rfl <;> decide
    · have isDigit := Nat.isDigit_of_mem_toDigits (by decide) (by decide) digit
      refine ⟨?_, ?_, ?_⟩ <;> rintro rfl <;> exact absurd isDigit (by decide)
  have noDots : ∀ dots : String, '.' ∈ dots.toList → nameOf suffix ≠ dots := by
    rintro dots member rfl
    exact (plain '.' member).2.2 rfl
  have noSlash : '/' ∉ (nameOf suffix).toList := fun member => (plain _ member).1 rfl
  have noBackslash : '\\' ∉ (nameOf suffix).toList := fun member => (plain _ member).2.1 rfl
  have noDot : nameOf suffix ≠ "." := noDots "." (by decide)
  have noDoubleDot : nameOf suffix ≠ ".." := noDots ".." (by decide)
  simp [isValidNodeName, noSlash, noBackslash, noDot, noDoubleDot]

theorem le_free_suffix (taken : List String) (tries suffix : Nat) :
    suffix ≤ freeSuffix taken tries suffix := by
  induction tries generalizing suffix with
  | zero => exact Nat.le_refl _
  | succ tries ih =>
      rw [freeSuffix]
      split
      · exact Nat.le_of_succ_le (ih (suffix + 1))
      · exact Nat.le_refl _

theorem skipped_name_taken (taken : List String) (tries : Nat) {suffix skipped : Nat}
    (low : suffix ≤ skipped) (high : skipped < freeSuffix taken tries suffix) :
    nameOf skipped ∈ taken := by
  induction tries generalizing suffix with
  | zero =>
      rw [freeSuffix] at high
      omega
  | succ tries ih =>
      rw [freeSuffix] at high
      split at high
      case isTrue present =>
        rcases Nat.eq_or_lt_of_le low with rfl | later
        · simpa using present
        · exact ih later high
      case isFalse => omega

/-- A search that stops at a taken name has used up all its tries. -/
theorem free_suffix_of_taken (taken : List String) (tries suffix : Nat)
    (stuck : nameOf (freeSuffix taken tries suffix) ∈ taken) :
    freeSuffix taken tries suffix = suffix + tries := by
  induction tries generalizing suffix with
  | zero => rfl
  | succ tries ih =>
      rw [freeSuffix] at stuck ⊢
      split
      case isTrue present =>
        rw [if_pos present] at stuck
        have later := ih (suffix + 1) stuck
        omega
      case isFalse absent =>
        rw [if_neg absent] at stuck
        exact absurd (by simpa using stuck) absent

/-- As many names as there are tries, and the last one, would all be taken: one too many. -/
theorem free_suffix_free (taken : List String) (suffix : Nat) :
    nameOf (freeSuffix taken taken.length suffix) ∉ taken := by
  intro stuck
  have last := free_suffix_of_taken taken taken.length suffix stuck
  have distinct : ((List.range' suffix (taken.length + 1)).map nameOf).Nodup := by
    rw [List.Nodup, List.pairwise_map]
    exact List.Pairwise.imp (fun different same => different (name_of_injective same))
      List.nodup_range'
  have allTaken : (List.range' suffix (taken.length + 1)).map nameOf ⊆ taken := by
    intro name member
    obtain ⟨tried, range, rfl⟩ := List.mem_map.mp member
    obtain ⟨low, high⟩ := List.mem_range'_1.mp range
    rcases Nat.eq_or_lt_of_le (show tried ≤ suffix + taken.length by omega) with rfl | before
    · exact last ▸ stuck
    · exact skipped_name_taken taken taken.length low (by omega)
  have bound := distinct.length_le_of_subset allTaken
  simp only [List.length_map, List.length_range'] at bound
  omega

theorem next_name_fresh (names : NameAllocator) (taken : List String) :
    (names.nextName taken).1 ∉ taken :=
  free_suffix_free taken names.nextSuffix

end LocalNet.NameAllocator
