import LocalNet.Proofs.Validation.Judgement
import LocalNet.Proofs.Validation.Joining
import LocalNet.Proofs.Validation.Normalization

/-!
# Judging again changes nothing

What comes out of a validation has no blank name left, and of its fields only names were written, each a
plain one. So everything that was checked still holds, every name counts as an explicit one, and
judged again it comes out as it is, without a name being asked of any allocator.
-/

namespace LocalNet

variable {config accepted : NetworkConfig} {configs nodes : List NodeConfig}
variable {existing again : List String} {names later : NameAllocator}

/-- A node's verdict does not depend on which plain name it has. -/
theorem validate_node_renamed (config : NodeConfig) {name : String}
    (given : isValidNodeName config.name = true) (plain : isValidNodeName name = true) :
    validateNode { config with name := name } = validateNode config := by
  simp [validateNode, validateStaking, given, plain]

theorem Resolves.sound {config resolved : NodeConfig} (resolves : Resolves config resolved)
    (sound : validateNode config = .ok ()) (plain : isValidNodeName resolved.name = true) :
    validateNode resolved = .ok () := by
  rw [resolves.1, validate_node_renamed config (validate_node_name sound) plain]
  exact sound

theorem explicit_names_of_named (named : ∀ config ∈ configs, config.name ≠ "") :
    explicitNames configs = configs.map NodeConfig.name := by
  rw [explicitNames, List.filter_eq_self]
  intro name member
  obtain ⟨config, listed, rfl⟩ := List.mem_map.mp member
  simpa using named config listed

/-- Where no name is blank, none is filled in, and the allocator is not asked. -/
theorem resolve_names_of_named (named : ∀ config ∈ configs, config.name ≠ "")
    (taken : List String) (names : NameAllocator) :
    resolveNames configs taken names = (configs, names) := by
  induction configs with
  | nil => rfl
  | cons config rest ih =>
      obtain ⟨first, others⟩ := List.forall_mem_cons.mp named
      rw [resolveNames, if_neg first, ih others]

theorem validate_batch_of_named (valid : BatchValid existing configs)
    (named : ∀ config ∈ configs, config.name ≠ "") (names : NameAllocator) :
    validateBatch configs existing names = .ok (configs, names) := by
  obtain ⟨taken, reserved⟩ :=
    (reserve_names_ok_iff configs 0 existing).mpr ⟨valid.distinct, valid.free⟩
  unfold validateBatch
  rw [(validate_each_ok_iff configs 0).mpr valid.nodes, reserved]
  simp only [resolve_names_of_named named]

/-! ## What was accepted is valid as it is -/

theorem accepted_node_valid (accepted : validateBatch configs existing names = .ok (nodes, later)) :
    ∀ node ∈ nodes, validateNode node = .ok () := by
  obtain ⟨judged, given⟩ := validate_batch_judged accepted
  intro node member
  obtain ⟨config, listed, resolves⟩ := given node member
  have usable := (validate_batch_ok accepted).2.2 node member
  exact resolves.sound (judged config listed) usable.valid

theorem accepted_node_named (accepted : validateBatch configs existing names = .ok (nodes, later)) :
    ∀ node ∈ nodes, node.name ≠ "" := by
  intro node member
  exact ((validate_batch_ok accepted).2.2 node member).named

theorem accepted_batch_valid (accepted : validateBatch configs existing names = .ok (nodes, later))
    (fewer : again ⊆ existing) : BatchValid again nodes := by
  obtain ⟨-, distinct, usable⟩ := validate_batch_ok accepted
  have explicit := explicit_names_of_named (accepted_node_named accepted)
  refine ⟨accepted_node_valid accepted, explicit ▸ distinct, ?_⟩
  intro name member taken
  rw [explicit] at member
  obtain ⟨node, listed, rfl⟩ := List.mem_map.mp member
  exact (usable node listed).free (fewer taken)

theorem accepted_network_valid
    (judged : validateNetwork config existing names = (.ok accepted, later))
    (fewer : again ⊆ existing) : NetworkValid again accepted := by
  obtain ⟨batch, same⟩ := validate_network_ok judged
  have valid := (validate_network_ok_iff config existing names).mp ⟨accepted, by rw [judged]⟩
  have health : accepted.health = config.health := by rw [same]
  obtain ⟨empty, beacon⟩ := resolved_beacons (validate_batch_ok batch).1
  refine ⟨health ▸ valid.pollInterval, health ▸ valid.timeout, accepted_batch_valid batch fewer, ?_⟩
  rw [empty, beacon]
  exact valid.beacon

/-! ## The second judgement -/

theorem validate_network_again
    (judged : validateNetwork config existing names = (.ok accepted, later))
    (fewer : again ⊆ existing) (other : NameAllocator) :
    validateNetwork accepted again other = (.ok accepted, other) := by
  have valid := accepted_network_valid judged fewer
  have named := accepted_node_named (validate_network_ok judged).1
  obtain ⟨result, outcome⟩ := (validate_network_ok_iff accepted again other).mpr valid
  obtain ⟨last, second⟩ : ∃ last, validateNetwork accepted again other = (.ok result, last) :=
    ⟨_, by rw [← outcome]⟩
  -- It is accepted, so that only its batch could have been written to.
  obtain ⟨batch, same⟩ := validate_network_ok second
  have kept := validate_batch_of_named valid.batch named other
  simp only [batch, Except.ok.injEq, Prod.mk.injEq] at kept
  obtain ⟨nodes, rfl⟩ := kept
  rw [second, same, nodes]

theorem validate_added_node_again {config resolved : NodeConfig}
    (judged : validateAddedNode config existing names = (.ok resolved, later))
    (fewer : again ⊆ existing) (other : NameAllocator) :
    validateAddedNode resolved again other = (.ok resolved, other) := by
  obtain ⟨resolves, usable⟩ := validate_added_node_ok judged
  have valid := resolves.sound (validate_added_node_judged judged) usable.valid
  have free : resolved.name ∉ again := fun taken => usable.free (fewer taken)
  simp only [validate_added_node_eq, valid, if_neg usable.named, if_neg free]

theorem filled_in_generated (filled : List.Forall₂ FilledIn configs nodes) :
    ∀ generated ∈ generatedNames configs nodes,
      isValidNodeName generated = true ∧ generated ∈ nodes.map NodeConfig.name := by
  induction filled with
  | nil => simp [generatedNames]
  | @cons config node configs nodes first _ ih =>
      intro generated member
      have onward (later : generated ∈ generatedNames configs nodes) :
          isValidNodeName generated = true ∧ generated ∈ (node :: nodes).map NodeConfig.name :=
        (ih generated later).imp id (List.mem_cons_of_mem _)
      rw [generatedNames] at member
      split at member
      case isTrue blank =>
        rcases List.mem_cons.mp member with rfl | later
        · cases first with
          | explicit named => exact absurd blank named
          | generated _ suffix =>
              exact ⟨NameAllocator.name_of_valid suffix, List.mem_cons_self ..⟩
        · exact onward later
      case isFalse => exact onward member

/-- A name that was filled in is plain, and it stands among the explicit names of what was accepted. -/
theorem generated_name_explicit
    (accepted : validateBatch configs existing names = .ok (nodes, later)) :
    ∀ generated ∈ generatedNames configs nodes,
      isValidNodeName generated = true ∧ generated ∈ explicitNames nodes := by
  rw [explicit_names_of_named (accepted_node_named accepted)]
  exact filled_in_generated (validate_batch_filled_in accepted)

/-- A network that was accepted is accepted again as it is, beside the same names or fewer, and so is a
node that was. The allocator of the second judgement may be any, and it stays where it is. Every name that
was filled in is a plain explicit name now; and whatever name an allocator hands out, a node that
bears it is judged as if it had none yet, and reserves it. -/
theorem validation_is_idempotent (existing : List String) (names : NameAllocator) :
    (∀ config accepted later, validateNetwork config existing names = (.ok accepted, later) →
      (∀ again ⊆ existing, ∀ other,
        validateNetwork accepted again other = (.ok accepted, other)) ∧
      ∀ generated ∈ generatedNames config.nodes accepted.nodes,
        isValidNodeName generated = true ∧ generated ∈ explicitNames accepted.nodes) ∧
    (∀ config resolved later, validateAddedNode config existing names = (.ok resolved, later) →
      ∀ again ⊆ existing, ∀ other,
        validateAddedNode resolved again other = (.ok resolved, other)) ∧
    ∀ taken config, config.name = (names.nextName taken).1 →
      isValidNodeName config.name = true ∧
      validateNode config = validateNode { config with name := "" } ∧
      explicitNames [config] = [config.name] := by
  refine ⟨?_, ?_, ?_⟩
  · intro config accepted later judged
    exact ⟨fun again fewer other => validate_network_again judged fewer other,
      generated_name_explicit (validate_network_ok judged).1⟩
  · intro config resolved later judged again fewer other
    exact validate_added_node_again judged fewer other
  · intro taken config generated
    have plain : isValidNodeName config.name = true := by
      rw [generated]
      exact NameAllocator.name_of_valid _
    have named : config.name ≠ "" := by
      rw [generated]
      exact NameAllocator.name_of_ne_blank _
    exact ⟨plain, (validate_node_renamed config plain rfl).symm, explicit_names_cons [] named⟩

theorem mixed_names_stay :
    ∃ accepted, validateNetwork mixedNames ["node-2"] {} = (.ok accepted, ⟨6⟩) ∧
      accepted.nodes.map NodeConfig.name = ["node-4", "node-1", "node-5", "node-3"] ∧
      validateNetwork accepted ["node-2"] {} = (.ok accepted, {}) ∧
      "node-5" ∈ explicitNames accepted.nodes ∧
      validateAddedNode nameless ["node-1"] {} =
        (.ok { nameless with name := "node-2" }, ⟨3⟩) ∧
      validateAddedNode { nameless with name := "node-2" } ["node-1"] ⟨1⟩ =
        (.ok { nameless with name := "node-2" }, ⟨1⟩) := by
  have judged : validateNetwork mixedNames ["node-2"] {} =
      (.ok { mixedNames with
        nodes := [{ nameless with name := "node-4" }, { nameless with name := "node-1" },
          { nameless with name := "node-5" }, { nameless with name := "node-3" }] }, ⟨6⟩) := by
    rfl
  have joined : validateAddedNode nameless ["node-1"] {} =
      (.ok { nameless with name := "node-2" }, ⟨3⟩) := by
    rfl
  obtain ⟨again, explicit⟩ := (validation_is_idempotent ["node-2"] {}).1 _ _ _ judged
  have kept := (validation_is_idempotent ["node-1"] {}).2.1 _ _ _ joined
  exact ⟨_, judged, rfl, again _ (List.Subset.refl _) {}, (explicit "node-5" (by decide)).2, joined,
    kept _ (List.Subset.refl _) ⟨1⟩⟩

end LocalNet
