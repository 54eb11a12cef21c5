import LocalNet.Pem.Section
import LocalNet.Proofs.Pem.Base64
import Mathlib.Data.List.Forall2

/-!
# The sections of a well-formed PEM file

A file is a row of lines, and its lines are text outside sections, sections of a known kind, which hold
base64, and sections of other kinds, which hold anything. The scanner returns the sections of known
kinds with what their base64 spells; nothing else that a file is made of has a trace in its result.
-/

namespace LocalNet.Pem

/-- Both bytes end a line. -/
def Break (byte : UInt8) : Prop :=
  byte = 0x0A ∨ byte = 0x0D

instance : DecidablePred Break :=
  fun byte => inferInstanceAs (Decidable (byte = 0x0A ∨ byte = 0x0D))

/-- Lines as they stand in a text; the last one may go without an end. -/
inductive Lines : List Bytes → Bytes → Prop
  | nil : Lines [] []
  | last {line : Bytes} (plain : ∀ byte ∈ line, ¬Break byte) (given : line ≠ []) : Lines [line] line
  | cons {line text : Bytes} {lines : List Bytes} {byte : UInt8}
      (plain : ∀ byte ∈ line, ¬Break byte) (ends : Break byte) (rest : Lines lines text) :
      Lines (line :: lines) (line ++ byte :: text)

/-- The closing dashes of a begin line can be told from the label. -/
def Proper (label : Bytes) : Prop :=
  ∀ byte ∈ label.getLast?, isTrailer byte = false

instance (label : Bytes) : Decidable (Proper label) :=
  decidable_of_iff ((label.getLast?.all fun byte => !isTrailer byte) = true) (by
    simp [Proper, Option.all_eq_true])

def beginLine (label : Bytes) (blanks : Nat) : Bytes :=
  beginMark ++ label ++ (dashes ++ List.replicate blanks 0x20)

/-- A line that stands inside a section of this label. -/
def Inside (label line : Bytes) : Prop :=
  ¬beginMark <+: line ∧ ¬endMark ++ label ++ dashes <+: line

instance (label line : Bytes) : Decidable (Inside label line) :=
  inferInstanceAs (Decidable (_ ∧ _))

/-- The sections of known kinds that lines are made of, with their content. -/
inductive Holds : List Bytes → List Section → Prop
  | nil : Holds [] []
  | outside {line : Bytes} {lines : List Bytes} {parts : List Section}
      (free : ¬beginMark <+: line) (rest : Holds lines parts) : Holds (line :: lines) parts
  | known {label content closing : Bytes} {body lines : List Bytes} {parts : List Section}
      (blanks : Nat) (kind : label ∈ labels) (inside : ∀ line ∈ body, Inside label line)
      (written : Base64 body.flatten content) (closes : endMark ++ label ++ dashes <+: closing)
      (rest : Holds lines parts) :
      Holds (beginLine label blanks :: (body ++ closing :: lines)) (⟨label, content⟩ :: parts)
  | other {label closing : Bytes} {body lines : List Bytes} {parts : List Section}
      (blanks : Nat) (kind : label ∉ labels) (proper : Proper label)
      (inside : ∀ line ∈ body, Inside label line)
      (closes : endMark ++ label ++ dashes <+: closing) (rest : Holds lines parts) :
      Holds (beginLine label blanks :: (body ++ closing :: lines)) parts

/-- A well-formed file, and its sections of known kinds. -/
def File (text : Bytes) (parts : List Section) : Prop :=
  ∃ lines, Lines lines text ∧ Holds lines parts

/-! ### Lines -/

def Ended (raw line : Bytes) : Prop :=
  raw = line ∨ ∃ byte, Break byte ∧ raw = line ++ [byte]

theorem split_lines_break {line : Bytes} {byte : UInt8} (plain : ∀ byte ∈ line, ¬Break byte)
    (ends : Break byte) (rest backwards : Bytes) :
    splitLines (line ++ byte :: rest) backwards =
      (backwards.reverse ++ line ++ [byte]) :: splitLines rest [] := by
  induction line generalizing backwards with
  | nil =>
      have ends : (byte = 0x0A || byte = 0x0D) = true := by simpa [Break] using ends
      simp [splitLines, ends]
  | cons first line ih =>
      obtain ⟨kept, plain⟩ := List.forall_mem_cons.mp plain
      have kept : (first = 0x0A || first = 0x0D) = false := by simpa [Break] using kept
      simp [splitLines, kept, ih plain]

theorem split_lines_last {line : Bytes} (plain : ∀ byte ∈ line, ¬Break byte) (backwards : Bytes)
    (given : backwards.reverse ++ line ≠ []) :
    splitLines line backwards = [backwards.reverse ++ line] := by
  induction line generalizing backwards with
  | nil =>
      have given : backwards ≠ [] := by simpa using given
      simp [splitLines, given]
  | cons first line ih =>
      obtain ⟨kept, plain⟩ := List.forall_mem_cons.mp plain
      have kept : (first = 0x0A || first = 0x0D) = false := by simpa [Break] using kept
      have next := ih plain (first :: backwards) (by simp)
      simpa [splitLines, kept] using next

theorem Lines.split {lines : List Bytes} {text : Bytes} (written : Lines lines text) :
    List.Forall₂ Ended (splitLines text []) lines := by
  induction written with
  | nil => exact .nil
  | last plain given =>
      rw [split_lines_last plain [] (by simpa using given)]
      exact .cons (.inl rfl) .nil
  | cons plain ends _ ih =>
      rw [split_lines_break plain ends]
      exact .cons (.inr ⟨_, ends, rfl⟩) ih

theorem Lines.join {byte : UInt8} (ends : Break byte) {lines : List Bytes}
    (plain : ∀ line ∈ lines, ∀ byte ∈ line, ¬Break byte) :
    Lines lines (lines.flatMap (· ++ [byte])) := by
  induction lines with
  | nil => exact .nil
  | cons line lines ih =>
      obtain ⟨first, plain⟩ := List.forall_mem_cons.mp plain
      simpa using Lines.cons first ends (ih plain)

/-- No mark ends with what ends a line, so that the end of a line never completes one. -/
theorem Ended.starts_iff {raw line mark : Bytes} (ended : Ended raw line)
    (clean : ∀ byte ∈ mark.getLast?, ¬Break byte) : mark <+: raw ↔ mark <+: line := by
  obtain rfl | ⟨byte, ends, rfl⟩ := ended
  · rfl
  · rw [List.prefix_concat_iff]
    refine or_iff_right fun whole => clean byte ?_ ends
    simp [whole]

theorem Ended.begins {raw line : Bytes} (ended : Ended raw line) :
    beginMark.isPrefixOf raw = true ↔ beginMark <+: line := by
  have clean : ∀ byte ∈ beginMark.getLast?, ¬Break byte := by decide +kernel
  rw [List.isPrefixOf_iff_prefix, ended.starts_iff clean]

theorem Ended.closes {raw line label : Bytes} (ended : Ended raw line) :
    isEnd label raw = true ↔ endMark ++ label ++ dashes <+: line := by
  have last : (endMark ++ label ++ dashes).getLast? = some 0x2D := by
    rw [List.getLast?_append]
    rfl
  have clean : ∀ byte ∈ (endMark ++ label ++ dashes).getLast?, ¬Break byte := by
    rw [last]
    decide +kernel
  rw [isEnd, List.isPrefixOf_iff_prefix, ended.starts_iff clean]

theorem not_begins_of_closes {label line : Bytes} (closes : endMark ++ label ++ dashes <+: line) :
    ¬beginMark <+: line := by
  intro begins
  have mark : endMark <+: line := by
    rw [List.append_assoc] at closes
    exact (List.prefix_append ..).trans closes
  have apart : ¬endMark <+: beginMark := by decide
  exact apart (List.prefix_of_prefix_length_le mark begins (by decide))

/-- The ends of lines are blanks in what a section holds. -/
theorem Symbols.ended {raws body : List Bytes} {symbols : List (Option Nat)}
    (ended : List.Forall₂ Ended raws body) (spelled : Symbols body.flatten symbols) :
    Symbols raws.flatten symbols := by
  induction ended generalizing symbols with
  | nil => exact spelled
  | cons first _ ih =>
      obtain ⟨leading, later, rfl, line, rest⟩ := Symbols.split spelled
      refine Symbols.append ?_ (ih rest)
      obtain rfl | ⟨byte, ends, rfl⟩ := first
      · exact line
      · have blank : byte ∈ blanks := by
          obtain rfl | rfl := ends <;> decide
        simpa using line.append (.blank blank .nil)

/-! ### Labels -/

theorem label_of_trailer (stem : Bytes) {trailing : Bytes} {byte : UInt8} (count : Nat)
    (stop : isTrailer byte = false) (closing : ∀ byte ∈ trailing, isTrailer byte = true)
    (five : (dashes ++ trailing).count 0x2D = 5) :
    labelOf? (stem ++ byte :: List.replicate count 0x20 ++ (dashes ++ trailing)) =
      some ((stem ++ byte :: List.replicate count 0x20).drop beginMark.length) := by
  have fills : ∀ byte ∈ (List.replicate count 0x20 ++ (dashes ++ trailing)).reverse,
      isTrailer byte = true := by
    have row : ∀ byte ∈ dashes, isTrailer byte = true := by decide +kernel
    intro byte inside
    simp only [List.mem_reverse, List.mem_append, List.mem_replicate] at inside
    obtain ⟨-, rfl⟩ | among | after := inside
    · decide
    · exact row byte among
    · exact closing byte after
  have trailer :
      ((stem ++ byte :: List.replicate count 0x20 ++ (dashes ++ trailing)).reverse.takeWhile
        isTrailer).reverse = List.replicate count 0x20 ++ (dashes ++ trailing) := by
    rw [List.append_assoc, List.cons_append, List.reverse_append, List.reverse_cons,
      List.append_assoc, List.takeWhile_append_of_pos fills, List.singleton_append,
      List.takeWhile_cons_of_neg (by simp [stop]), List.append_nil, List.reverse_reverse]
  have closed : (List.replicate count 0x20 ++ (dashes ++ trailing)).dropWhile
      (fun byte => decide (byte ≠ 0x2D)) = dashes ++ trailing := by
    rw [List.dropWhile_append_of_pos (by simp +contextual [List.mem_replicate])]
    rfl
  simp only [labelOf?, trailer, closed, five, if_true, List.length_append, Nat.add_sub_cancel_right]
  congr 2
  exact List.take_left' (by simp)

theorem label_of_begin {label raw : Bytes} {blanks : Nat} (proper : Proper label)
    (ended : Ended raw (beginLine label blanks)) : labelOf? raw = some label := by
  obtain ⟨trailing, closing, five, rfl⟩ : ∃ trailing : Bytes,
      (∀ byte ∈ trailing, isTrailer byte = true) ∧ (dashes ++ trailing).count 0x2D = 5 ∧
        raw = beginMark ++ label ++ (dashes ++ trailing) := by
    have row : (List.replicate blanks (0x20 : UInt8)).count 0x2D = 0 :=
      List.count_eq_zero.mpr (by simp [List.mem_replicate])
    have five : dashes.count 0x2D = 5 := by decide
    obtain rfl | ⟨byte, ends, rfl⟩ := ended
    · refine ⟨List.replicate blanks 0x20, fun byte inside => ?_, ?_, rfl⟩
      · obtain ⟨-, rfl⟩ := List.mem_replicate.mp inside
        decide
      · rw [List.count_append, row, five]
    · have other : byte ≠ 0x2D ∧ isTrailer byte = true := by
        obtain rfl | rfl := ends <;> decide
      refine ⟨List.replicate blanks 0x20 ++ [byte], fun byte inside => ?_, ?_, ?_⟩
      · rcases List.mem_append.mp inside with among | last
        · obtain ⟨-, rfl⟩ := List.mem_replicate.mp among
          decide
        · exact List.mem_singleton.mp last ▸ other.2
      · rw [List.count_append, List.count_append, row, five, List.count_singleton]
        simp [other.1]
      · simp [beginLine]
  obtain ⟨stem, byte, count, stop, front⟩ : ∃ stem byte count, isTrailer byte = false ∧
      beginMark ++ label = stem ++ byte :: List.replicate count 0x20 := by
    rcases List.eq_nil_or_concat label with rfl | ⟨front, last, rfl⟩
    · exact ⟨Bytes.ofText "-----BEGI", 0x4E, 1, by decide, by decide⟩
    · exact ⟨beginMark ++ front, last, 0, proper last (by simp), by simp⟩
  have found := label_of_trailer stem count stop closing five
  rw [← front, List.drop_left] at found
  exact found

/-! ### Sections -/

theorem proper_of_known {label : Bytes} (kind : label ∈ labels) : Proper label := by
  have table : ∀ label ∈ labels, ∀ byte ∈ label.getLast?, isTrailer byte = false := by decide +kernel
  exact table label kind

theorem scan_inside {label : Bytes} {raws body : List Bytes} (ended : List.Forall₂ Ended raws body)
    (inside : ∀ line ∈ body, Inside label line) (rest : List Bytes) (gathered : Bytes) :
    scan (raws ++ rest) (some label) gathered =
      scan rest (some label) (gathered ++ raws.flatten) := by
  induction ended generalizing gathered with
  | nil => simp
  | @cons raw line _ _ first _ ih =>
      obtain ⟨⟨free, open'⟩, inside⟩ := List.forall_mem_cons.mp inside
      have plain : ¬beginMark.isPrefixOf raw = true := fun begins => free (first.begins.mp begins)
      have within : ¬isEnd label raw = true := fun closes => open' (first.closes.mp closes)
      rw [List.cons_append, scan, if_neg plain]
      simp only [if_neg within, ih inside, List.flatten_cons, List.append_assoc]

theorem scan_section {label closing : Bytes} {raws body lines : List Bytes} {blanks : Nat}
    (proper : Proper label) (inside : ∀ line ∈ body, Inside label line)
    (closes : endMark ++ label ++ dashes <+: closing)
    (ended : List.Forall₂ Ended raws (beginLine label blanks :: (body ++ closing :: lines))) :
    ∃ gathered rest, List.Forall₂ Ended gathered body ∧ List.Forall₂ Ended rest lines ∧
      (∀ content, label ∈ labels → decodeBase64 gathered.flatten = .ok content →
        scan raws none [] = .ok ⟨label, content⟩ :: scan rest none []) ∧
      (label ∉ labels → scan raws none [] = scan rest none []) := by
  obtain ⟨opening, raws, opened, behind, rfl⟩ := List.forall₂_cons_right_iff.mp ended
  obtain ⟨gathered, following, within, after, rfl⟩ : ∃ gathered following,
      List.Forall₂ Ended gathered body ∧ List.Forall₂ Ended following (closing :: lines) ∧
        raws = gathered ++ following :=
    ⟨_, _, List.forall₂_take_append _ _ _ behind, List.forall₂_drop_append _ _ _ behind,
      (List.take_append_drop ..).symm⟩
  obtain ⟨last, rest, ends, later, rfl⟩ := List.forall₂_cons_right_iff.mp after
  have begins : beginMark.isPrefixOf opening = true :=
    opened.begins.mpr (by simp only [beginLine, List.append_assoc, List.prefix_append])
  have plain : ¬beginMark.isPrefixOf last = true := fun again =>
    not_begins_of_closes closes (ends.begins.mp again)
  have closed : isEnd label last = true := ends.closes.mpr closes
  have come : scan (opening :: (gathered ++ last :: rest)) none [] =
      scan (last :: rest) (some label) gathered.flatten := by
    rw [scan, if_pos begins, label_of_begin proper opened]
    exact scan_inside within inside _ []
  rw [come, scan, if_neg plain]
  simp only [closed, if_true]
  refine ⟨gathered, rest, within, later, fun content kind decoded => ?_, fun kind => ?_⟩
  · rw [if_pos (List.contains_iff_mem.mpr kind), decoded]
  · rw [if_neg (fun known => kind (List.contains_iff_mem.mp known))]

theorem Holds.scan {lines raws : List Bytes} {parts : List Section} (holds : Holds lines parts)
    (ended : List.Forall₂ Ended raws lines) :
    Pem.scan raws none [] = parts.map Except.ok := by
  induction holds generalizing raws with
  | nil =>
      cases ended
      rfl
  | outside free _ ih =>
      cases ended with
      | @cons raw _ _ _ first rest =>
          have plain : ¬beginMark.isPrefixOf raw = true := fun begins =>
            free (first.begins.mp begins)
          rw [Pem.scan, if_neg plain]
          exact ih rest
  | known blanks kind inside written closes _ ih =>
      obtain ⟨gathered, rest, within, later, scanned, -⟩ :=
        scan_section (proper_of_known kind) inside closes ended
      obtain ⟨digits, padding, left, symbols, filled, spelled, short⟩ := written
      have decoded := Base64.decode
        ⟨digits, padding, left, symbols.ended within, filled, spelled, short⟩
      rw [scanned _ kind decoded, ih later]
      rfl
  | other blanks kind proper inside closes _ ih =>
      obtain ⟨-, rest, -, later, -, scanned⟩ := scan_section proper inside closes ended
      rw [scanned kind, ih later]

/-- Nothing but the sections of known kinds, their labels and what their base64 spells, is left of a
well-formed file. -/
theorem File.sections {text : Bytes} {parts : List Section} (file : File text parts) :
    Pem.sections text = parts.map Except.ok := by
  obtain ⟨lines, written, holds⟩ := file
  exact holds.scan written.split

end LocalNet.Pem
