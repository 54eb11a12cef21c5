import LocalNet.Proofs.Network.Trace

/-!
# Names in the registry

Registered and reserved names are distinct and usable, a node stands under its own name, and each
reservation belongs to one add between its two locked sections. So an insertion never meets an entry
of the same name. Every move of a network keeps all of this.
-/

namespace LocalNet

namespace Registry

structure NamesSound (registry : Registry) : Prop where
  keyed : ∀ entry ∈ registry.nodes, entry.1 = entry.2.name
  distinct : registry.taken.Nodup
  usable : ∀ name ∈ registry.taken, name ≠ "" ∧ isValidNodeName name = true

theorem insert_fresh {registry : Registry} {name : String} (fresh : name ∉ registry.taken)
    (node : Node) :
    registry.insert name node = { registry with nodes := registry.nodes ++ [(name, node)] } := by
  have others : registry.nodes.filter (·.1 ≠ name) = registry.nodes := by
    apply List.filter_eq_self.mpr
    intro entry member
    have different : entry.1 ≠ name := by
      rintro rfl
      exact fresh (List.mem_append_left _ (List.mem_map_of_mem member))
    simpa using different
  unfold insert
  rw [others]

namespace NamesSound

variable {registry : Registry} {name : String} {node : Node}

theorem find_iff_mem (sound : registry.NamesSound) :
    registry.find? name = some node ↔ (name, node) ∈ registry.nodes :=
  lookup_iff_mem (List.nodup_append.mp sound.distinct).1

theorem name_of_found (sound : registry.NamesSound) (found : registry.find? name = some node) :
    node.name = name :=
  (sound.keyed _ (sound.find_iff_mem.mp found)).symm

theorem fresh_of_nodup {names : List String}
    (distinct : (registry.taken ++ name :: names).Nodup) : name ∉ registry.taken := by
  intro again
  exact (List.nodup_append.mp distinct).2.2 name again name (List.mem_cons_self ..) rfl

theorem insert (sound : registry.NamesSound) (usable : UsableName registry.taken name)
    (named : node.name = name) : (registry.insert name node).NamesSound := by
  have moved : (registry.insert name node).taken.Perm (name :: registry.taken) := by
    rw [insert_fresh usable.free]
    simp only [taken, List.map_append, List.map_cons, List.map_nil, List.append_assoc]
    exact List.perm_middle
  refine ⟨?_, ?_, ?_⟩
  · rw [insert_fresh usable.free]
    intro entry member
    rcases List.mem_append.mp member with old | new
    · exact sound.keyed entry old
    · rw [List.mem_singleton.mp new]
      exact named.symm
  · exact moved.nodup_iff.mpr (List.nodup_cons.mpr ⟨usable.free, sound.distinct⟩)
  · intro other member
    rcases List.mem_cons.mp (moved.mem_iff.mp member) with rfl | old
    · exact ⟨usable.named, usable.valid⟩
    · exact sound.usable other old

theorem reserve (sound : registry.NamesSound) (usable : UsableName registry.taken name)
    (names : NameAllocator) :
    NamesSound { registry with names := names, pending := name :: registry.pending } := by
  have moved : (registry.nodes.map Prod.fst ++ name :: registry.pending).Perm
      (name :: registry.taken) := List.perm_middle
  refine ⟨sound.keyed, ?_, ?_⟩
  · exact moved.nodup_iff.mpr (List.nodup_cons.mpr ⟨usable.free, sound.distinct⟩)
  · intro other member
    rcases List.mem_cons.mp (moved.mem_iff.mp member) with rfl | old
    · exact ⟨usable.named, usable.valid⟩
    · exact sound.usable other old

theorem shrink {smaller : Registry} (sound : registry.NamesSound)
    (nodes : smaller.nodes.Sublist registry.nodes)
    (pending : smaller.pending.Sublist registry.pending) : smaller.NamesSound := by
  have fewer : smaller.taken.Sublist registry.taken := (nodes.map Prod.fst).append pending
  exact ⟨fun entry member => sound.keyed entry (nodes.subset member),
    sound.distinct.sublist fewer, fun name member => sound.usable name (fewer.subset member)⟩

theorem give_back (sound : registry.NamesSound) (name : String) :
    (registry.giveBack name).NamesSound :=
  sound.shrink (List.Sublist.refl _) List.erase_sublist

theorem count_give_back (reserved : name ∈ registry.pending) (other : String) :
    (registry.giveBack name).pending.count other + (if name = other then 1 else 0) =
      registry.pending.count other := by
  have positive := List.count_pos_iff.mpr reserved
  simp only [giveBack, List.count_erase, beq_iff_eq]
  split
  · rename_i same
    subst same
    omega
  · rfl

/-- A name given back is free, since it was reserved once only. -/
theorem usable_of_pending (sound : registry.NamesSound) (reserved : name ∈ registry.pending) :
    UsableName (registry.giveBack name).taken name := by
  obtain ⟨-, distinct, disjoint⟩ := List.nodup_append.mp sound.distinct
  obtain ⟨named, valid⟩ := sound.usable name (List.mem_append_right _ reserved)
  refine ⟨?_, named, valid⟩
  intro present
  rcases List.mem_append.mp present with registered | pending
  · exact disjoint name registered name reserved rfl
  · exact distinct.not_mem_erase pending

theorem shuffle (sound : registry.NamesSound) {nodes : List (String × Node)}
    (same : nodes.Perm registry.nodes) : NamesSound { registry with nodes := nodes } := by
  have moved : (nodes.map Prod.fst ++ registry.pending).Perm registry.taken :=
    (same.map Prod.fst).append_right _
  exact ⟨fun entry member => sound.keyed entry (same.mem_iff.mp member),
    moved.nodup_iff.mpr sound.distinct, fun name member => sound.usable name (moved.mem_iff.mp member)⟩

end NamesSound

end Registry

namespace Activity

/-- The name that an add has reserved while it is between its locked sections. -/
def reserved? : Activity → Option String
  | .adding launch => some launch.config.name
  | .committing name _ => some name
  | _ => none

def reserves (name : String) (activity : Activity) : Nat :=
  if activity.reserved? = some name then 1 else 0

end Activity

namespace Network

structure NamesSound (network : Network) : Prop where
  registry : network.registry.NamesSound
  reserved : ∀ name, network.registry.pending.count name = network.tally (Activity.reserves name)
  /-- The names that a construction still has to register are distinct from those it has. -/
  building : ∀ call launch rest, network.activity? call = some (.building launch rest) →
    (network.registry.taken ++ (launch.config :: rest).map NodeConfig.name).Nodup ∧
      ∀ config ∈ launch.config :: rest,
        config.name ≠ "" ∧ isValidNodeName config.name = true

variable {network shared : Network} {call : CallId} {action : Action} {fate : Fate}

theorem pending_of_reserved (sound : Sound network) (names : NamesSound network)
    {activity : Activity} (busy : network.activity? call = some activity) {name : String}
    (reserved : activity.reserved? = some name) : name ∈ network.registry.pending := by
  have counted := weight_le_tally sound.distinct busy (Activity.reserves name)
  rw [← names.reserved, Activity.reserves, if_pos reserved] at counted
  exact List.count_pos_iff.mp counted

theorem usable_of_building (names : NamesSound network) {launch : Launch}
    {rest : List NodeConfig} (busy : network.activity? call = some (.building launch rest)) :
    UsableName network.registry.taken launch.config.name := by
  obtain ⟨distinct, usable⟩ := names.building _ _ _ busy
  obtain ⟨named, valid⟩ := usable _ (List.mem_cons_self ..)
  exact ⟨Registry.NamesSound.fresh_of_nodup distinct, named, valid⟩

theorem turn_registry_names (sound : Sound network) (names : NamesSound network)
    (turn : Turn network call action shared fate) : shared.registry.NamesSound := by
  cases turn with
  | reserved running opened judged =>
      exact names.registry.reserve (validate_added_node_ok judged).2 _
  | taken => exact names.registry.shrink List.filter_sublist (List.Sublist.refl _)
  | drained | drainedNone | buildFailed | buildFailedAlone =>
      exact names.registry.shrink (List.nil_sublist _) (List.Sublist.refl _)
  | built busy | builtLast busy =>
      exact names.registry.insert (usable_of_building names busy) rfl
  | registered busy =>
      have reserved := pending_of_reserved sound names busy rfl
      have named := sound.sound _ _ busy
      exact (names.registry.give_back _).insert (names.registry.usable_of_pending reserved) named
  | tooLate | lost => exact names.registry.give_back _
  | refused | answered | spawnedBuilding | spawnedAdding | addFailed | started | asked | unbuilt
  | unbuiltLast | withdrawn | removed | stopped | stoppedLast | cleared | clearedLast | cancelled
  | left => exact names.registry

theorem turn_reserved (sound : Sound network) (names : NamesSound network)
    (turn : Turn network call action shared fate) (name : String) :
    shared.registry.pending.count name +
        (network.activity? call).elim 0 (Activity.reserves name) =
      network.registry.pending.count name + fate.weigh (Activity.reserves name) := by
  cases turn with
  | refused | answered | taken | drained | drainedNone =>
      rw [sound.fresh]
      rfl
  | reserved =>
      rw [sound.fresh]
      simp [Fate.weigh, Activity.reserves, Activity.reserved?, launchOf, List.count_cons]
  | registered busy | tooLate busy | lost busy =>
      have reserved := pending_of_reserved sound names busy rfl
      have counted := Registry.NamesSound.count_give_back reserved name
      rw [busy]
      simpa [Registry.insert, Fate.weigh, Activity.reserves, Activity.reserved?] using counted
  | spawnedBuilding busy | spawnedAdding busy | buildFailed busy | buildFailedAlone busy
  | addFailed busy | built busy | builtLast busy | started busy | asked busy | unbuilt busy
  | unbuiltLast busy | withdrawn busy | removed busy | stopped busy | stoppedLast busy
  | cleared busy | clearedLast busy | cancelled busy | left busy =>
      rw [busy]
      rfl

/-- A construction goes on with the same names to come, or has registered the first of them. -/
theorem turn_building {launch : Launch} {rest : List NodeConfig}
    (turn : Turn network call action shared (.goesOn (.building launch rest))) :
    ∃ before, (network.activity? call = some (.building before rest) ∧
        launch.config = before.config ∧ shared.registry = network.registry) ∨
      ∃ node, network.activity? call = some (.building before (launch.config :: rest)) ∧
        shared.registry = network.registry.insert before.config.name node := by
  cases turn with
  | spawnedBuilding busy => exact ⟨_, .inl ⟨busy, rfl, rfl⟩⟩
  | built busy => exact ⟨_, .inr ⟨_, busy, rfl⟩⟩

theorem settled_building_names (names : NamesSound network) {launch : Launch}
    {rest : List NodeConfig}
    (turn : Turn network call action shared (.goesOn (.building launch rest))) :
    (shared.registry.taken ++ (launch.config :: rest).map NodeConfig.name).Nodup ∧
      ∀ config ∈ launch.config :: rest,
        config.name ≠ "" ∧ isValidNodeName config.name = true := by
  obtain ⟨before, ⟨busy, same, kept⟩ | ⟨node, busy, inserted⟩⟩ := turn_building turn
  · rw [kept, same]
    exact names.building _ _ _ busy
  · obtain ⟨distinct, usable⟩ := names.building _ _ _ busy
    have fresh := (usable_of_building names busy).free
    refine ⟨?_, fun config member => usable config (List.mem_cons_of_mem _ member)⟩
    rw [inserted, Registry.insert_fresh fresh]
    refine (List.Perm.nodup_iff ?_).mpr distinct
    simp only [Registry.taken, List.map_append, List.map_cons, List.map_nil, List.append_assoc]
    apply List.Perm.append_left
    rw [List.singleton_append]
    exact List.perm_middle.symm

theorem names_settle (sound : Sound network) (names : NamesSound network)
    (turn : Turn network call action shared fate) : NamesSound (shared.settle call fate) where
  registry := by
    rw [settle_registry]
    exact turn_registry_names sound names turn
  reserved := by
    intro name
    have counted := turn_reserved sound names turn name
    have total := turn_tally sound turn (Activity.reserves name)
    have before := names.reserved name
    rw [settle_registry]
    omega
  building := by
    intro other launch rest busy
    rw [settle_registry]
    rcases turn_ordinary_or_building sound turn with ordinary | building
    · exact absurd trivial (ordinary_settled sound turn ordinary busy)
    · obtain ⟨_, rfl⟩ := building_settled sound turn building busy
      exact settled_building_names names turn

theorem names_move {next : Network} (sound : Sound network) (names : NamesSound network)
    (move : Move network action next) : NamesSound next := by
  cases move with
  | turn turn => exact names_settle sound names turn
  | aside => exact ⟨names.registry, names.reserved, names.building⟩
  | @shuffled nodes same =>
      refine ⟨names.registry.shuffle same, names.reserved, ?_⟩
      intro call launch rest busy
      obtain ⟨distinct, usable⟩ := names.building call launch rest busy
      refine ⟨(List.Perm.nodup_iff ?_).mpr distinct, usable⟩
      apply List.Perm.append_right
      apply List.Perm.append_right
      exact same.map Prod.fst

theorem names_construct (config : NetworkConfig) : NamesSound (construct config) := by
  have blank (names : NameAllocator) : Registry.NamesSound { names := names } :=
    ⟨fun _ member => (List.not_mem_nil member).elim, List.nodup_nil,
      fun _ member => (List.not_mem_nil member).elim⟩
  generalize same : construct config = network
  have fresh : Fresh config network := same ▸ fresh_construct config
  cases fresh with
  | rejected | empty => exact ⟨blank _, fun _ => rfl, by simp [activity?]⟩
  | begun judged nodes =>
      refine ⟨blank _, fun _ => rfl, ?_⟩
      intro call launch rest busy
      obtain ⟨_, same⟩ := lookup_single busy
      cases same
      obtain ⟨batch, _⟩ := validate_network_ok judged
      obtain ⟨_, distinct, usable⟩ := validate_batch_ok batch
      rw [nodes] at distinct usable
      exact ⟨distinct, fun config member => ⟨(usable config member).named, (usable config member).valid⟩⟩

theorem reachable_names {config : NetworkConfig} (reachable : Reachable config network) :
    NamesSound network :=
  reachable_keeps reachable (fun _ _ _ sound names move => names_move sound names move)
    (names_construct config)

/-- Each reservation belongs to one add in flight, and to no other. -/
theorem unique_add_of_pending (sound : Sound network) (names : NamesSound network)
    (name : String) (pending : name ∈ network.registry.pending) :
    ∃! call, (network.activity? call).bind Activity.reserved? = some name := by
  have counted := List.count_pos_iff.mpr pending
  rw [names.reserved] at counted
  obtain ⟨call, activity, busy, heavy⟩ := exists_of_tally_pos sound.distinct counted
  have reserved : activity.reserved? = some name := by
    unfold Activity.reserves at heavy
    split at heavy
    · assumption
    · exact absurd heavy (Nat.lt_irrefl _)
  refine ⟨call, ?_, ?_⟩
  · change (network.activity? call).bind Activity.reserved? = some name
    rw [busy, Option.bind_some, reserved]
  · intro other same
    obtain ⟨second, otherBusy, otherReserved⟩ := Option.bind_eq_some_iff.mp same
    apply Decidable.byContradiction
    intro different
    have two := two_weights_le_tally sound.distinct different otherBusy busy
      (Activity.reserves name)
    rw [← names.reserved, Activity.reserves, Activity.reserves, if_pos otherReserved,
      if_pos reserved] at two
    have distinct := (List.nodup_append.mp names.registry.distinct).2.1
    have once := List.nodup_iff_count.mp distinct name
    omega

end Network

end LocalNet
