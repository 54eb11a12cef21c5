import LocalNet.Proofs.Validation.Batch

/-!
# What acceptance makes of a network

Accepting a network fills in its blank names and changes nothing else. The names that are filled in are
numbered upwards in the order of their nodes. They are free, and they meet no explicit name of the
network, wherever it stands and whatever its form.
-/

namespace LocalNet

/-- The names that were filled in, in the order of their nodes. -/
def generatedNames : (configs resolved : List NodeConfig) → List String
  | config :: configs, node :: resolved =>
    if config.name = "" then node.name :: generatedNames configs resolved
    else generatedNames configs resolved
  | _, _ => []

/-- Names of growing suffixes, which an allocator has handed out between two of its states. -/
structure Numbered (first last : NameAllocator) (generated : List String) : Prop where
  onward : first.nextSuffix ≤ last.nextSuffix
  suffixes : ∃ suffixes : List Nat, generated = suffixes.map NameAllocator.nameOf ∧
    suffixes.Pairwise (· < ·) ∧
    ∀ suffix ∈ suffixes, first.nextSuffix ≤ suffix ∧ suffix < last.nextSuffix

namespace Numbered

variable {first middle last : NameAllocator} {early late : List String}

theorem nil (names : NameAllocator) : Numbered names names [] :=
  ⟨Nat.le_refl _, [], rfl, .nil, by simp⟩

theorem next_name (names : NameAllocator) (taken : List String) :
    Numbered names (names.nextName taken).2 [(names.nextName taken).1] := by
  have low := NameAllocator.le_free_suffix taken taken.length names.nextSuffix
  refine ⟨Nat.le_succ_of_le low, [_], rfl, List.pairwise_singleton _ _, ?_⟩
  intro suffix member
  rw [List.mem_singleton.mp member]
  exact ⟨low, Nat.lt_succ_self _⟩

theorem append (before : Numbered first middle early) (after : Numbered middle last late) :
    Numbered first last (early ++ late) := by
  obtain ⟨low, left, rfl, leftGrows, leftBounds⟩ := before
  obtain ⟨high, right, rfl, rightGrows, rightBounds⟩ := after
  refine ⟨Nat.le_trans low high, left ++ right, by simp, ?_, ?_⟩
  · refine List.pairwise_append.mpr ⟨leftGrows, rightGrows, ?_⟩
    intro smaller old larger new
    exact Nat.lt_of_lt_of_le (leftBounds smaller old).2 (rightBounds larger new).1
  · intro suffix member
    rcases List.mem_append.mp member with old | new
    · exact ⟨(leftBounds suffix old).1, Nat.lt_of_lt_of_le (leftBounds suffix old).2 high⟩
    · exact ⟨Nat.le_trans low (rightBounds suffix new).1, (rightBounds suffix new).2⟩

end Numbered

theorem resolve_names_numbered (configs : List NodeConfig) (taken : List String)
    (names : NameAllocator) :
    Numbered names (resolveNames configs taken names).2
      (generatedNames configs (resolveNames configs taken names).1) := by
  induction configs generalizing taken names with
  | nil => exact .nil names
  | cons config rest ih =>
      unfold resolveNames
      split
      case isTrue blank =>
        simp only [generatedNames, if_pos blank]
        exact (Numbered.next_name names taken).append (ih _ _)
      case isFalse named =>
        simp only [generatedNames, if_neg named]
        exact ih _ _

theorem generated_name_fresh {configs : List NodeConfig} {taken : List String}
    {names : NameAllocator} {generated : String}
    (member : generated ∈ generatedNames configs (resolveNames configs taken names).1) :
    generated ∉ taken := by
  induction configs generalizing taken names with
  | nil => simp [generatedNames] at member
  | cons config rest ih =>
      unfold resolveNames at member
      split at member
      case isTrue blank =>
        simp only [generatedNames, if_pos blank] at member
        rcases List.mem_cons.mp member with rfl | later
        · exact names.next_name_fresh taken
        · exact fun present => ih later (List.mem_cons_of_mem _ present)
      case isFalse named =>
        simp only [generatedNames, if_neg named] at member
        exact ih member

/-- An accepted node is the given one, but that a blank name was replaced by a generated one. -/
inductive FilledIn : NodeConfig → NodeConfig → Prop where
  | explicit {config : NodeConfig} (named : config.name ≠ "") : FilledIn config config
  | generated {config : NodeConfig} (blank : config.name = "") (suffix : Nat) :
    FilledIn config { config with name := NameAllocator.nameOf suffix }

theorem resolve_names_filled_in (configs : List NodeConfig) (taken : List String)
    (names : NameAllocator) :
    List.Forall₂ FilledIn configs (resolveNames configs taken names).1 := by
  induction configs generalizing taken names with
  | nil => exact .nil
  | cons config rest ih =>
      unfold resolveNames
      split
      case isTrue blank => exact .cons (.generated blank _) (ih _ _)
      case isFalse named => exact .cons (.explicit named) (ih _ _)

/-- An accepted batch is filled in beside all that is taken: what was taken before, and the explicit
names of the batch. -/
theorem validate_batch_resolved {configs nodes : List NodeConfig} {existing : List String}
    {names later : NameAllocator}
    (accepted : validateBatch configs existing names = .ok (nodes, later)) :
    ∃ taken, resolveNames configs taken names = (nodes, later) ∧
      ∀ name, name ∈ taken ↔ name ∈ explicitNames configs ∨ name ∈ existing := by
  unfold validateBatch at accepted
  split at accepted
  · cases accepted
  · split at accepted
    · cases accepted
    · rename_i taken reserved
      exact ⟨taken, by simpa using accepted, (reserve_names_ok reserved).2.2⟩

theorem validate_batch_filled_in {configs nodes : List NodeConfig} {existing : List String}
    {names later : NameAllocator}
    (accepted : validateBatch configs existing names = .ok (nodes, later)) :
    List.Forall₂ FilledIn configs nodes := by
  obtain ⟨taken, resolved, -⟩ := validate_batch_resolved accepted
  have filled := resolve_names_filled_in configs taken names
  rwa [resolved] at filled

/-- The numbers that a batch is filled in with go up, and none of the names is taken or given
explicitly. -/
theorem validate_batch_generated {configs nodes : List NodeConfig} {existing : List String}
    {names later : NameAllocator}
    (accepted : validateBatch configs existing names = .ok (nodes, later)) :
    Numbered names later (generatedNames configs nodes) ∧
      ∀ generated ∈ generatedNames configs nodes,
        generated ∉ existing ∧ generated ∉ explicitNames configs := by
  obtain ⟨taken, resolved, all⟩ := validate_batch_resolved accepted
  have numbered := resolve_names_numbered configs taken names
  rw [resolved] at numbered
  refine ⟨numbered, fun generated member => ?_⟩
  have fresh : generated ∉ taken := generated_name_fresh (by rwa [resolved])
  exact ⟨fun present => fresh ((all _).mpr (.inr present)),
    fun explicit => fresh ((all _).mpr (.inl explicit))⟩

/-- An accepted network is the given one, node by node, but for its blank names. None of its names is
blank, none occurs twice, and none was taken before. A generated name is nowhere given explicitly, and
the suffixes of the generated ones grow in the order of the nodes. -/
theorem accepted_network_names_unique {config accepted : NetworkConfig} {existing : List String}
    {names later : NameAllocator}
    (judged : validateNetwork config existing names = (.ok accepted, later)) :
    accepted.name = config.name ∧ accepted.logLevel = config.logLevel ∧
      accepted.health = config.health ∧
      accepted.nodes.length = config.nodes.length ∧
      List.Forall₂ FilledIn config.nodes accepted.nodes ∧
      (∀ node ∈ accepted.nodes, node.name ≠ "" ∧ node.name ∉ existing) ∧
      (accepted.nodes.map NodeConfig.name).Nodup ∧
      (∀ generated ∈ generatedNames config.nodes accepted.nodes,
        generated ∉ explicitNames config.nodes) ∧
      ∃ suffixes : List Nat,
        generatedNames config.nodes accepted.nodes = suffixes.map NameAllocator.nameOf ∧
        suffixes.Pairwise (· < ·) := by
  obtain ⟨batch, same⟩ := validate_network_ok judged
  have filled := validate_batch_filled_in batch
  obtain ⟨-, distinct, usable⟩ := validate_batch_ok batch
  obtain ⟨⟨-, suffixes, numbers, grow, -⟩, fresh⟩ := validate_batch_generated batch
  refine ⟨by rw [same], by rw [same], by rw [same], filled.length_eq.symm, filled, ?_, distinct,
    fun generated member => (fresh generated member).2, suffixes, numbers, grow⟩
  intro node member
  exact ⟨(usable node member).named, (usable node member).free⟩

/-- A node that is sound by itself and has no name yet. -/
def nameless : NodeConfig where
  isBeacon := true
  genesisFile := [1]
  configFile := [1]
  implConfig := some (.object [("binary_path", .text "node")])

/-- Explicit names of the generated form stand before and behind the blank ones. -/
def mixedNames : NetworkConfig where
  name := "mixed"
  nodes := [nameless, { nameless with name := "node-1" }, nameless,
    { nameless with name := "node-3" }]

theorem mixed_names_unique :
    ∃ accepted, validateNetwork mixedNames ["node-2"] {} = (.ok accepted, ⟨6⟩) ∧
      accepted.nodes.map NodeConfig.name = ["node-4", "node-1", "node-5", "node-3"] ∧
      List.Forall₂ FilledIn mixedNames.nodes accepted.nodes ∧
      (accepted.nodes.map NodeConfig.name).Nodup := by
  have judged : validateNetwork mixedNames ["node-2"] {} =
      (.ok { mixedNames with
        nodes := [{ nameless with name := "node-4" }, { nameless with name := "node-1" },
          { nameless with name := "node-5" }, { nameless with name := "node-3" }] }, ⟨6⟩) := by
    rfl
  obtain ⟨-, -, -, -, filled, -, distinct, -⟩ := accepted_network_names_unique judged
  exact ⟨_, judged, rfl, filled, distinct⟩

end LocalNet
