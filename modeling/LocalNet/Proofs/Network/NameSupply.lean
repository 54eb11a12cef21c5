import LocalNet.Proofs.Network.Naming
import LocalNet.Proofs.Validation.Normalization

/-!
# No generated name is handed out twice

A network has one allocator from its construction on, and each locked section that generates a name
moves it further. So the suffixes grow all along a run, whatever becomes of the nodes that bear the
names, and a name that is free again is not generated again.
-/

namespace LocalNet

namespace Numbered

variable {first last : NameAllocator} {generated : List String}

theorem nodup (numbered : Numbered first last generated) : generated.Nodup := by
  obtain ⟨-, suffixes, rfl, grow, -⟩ := numbered
  rw [List.Nodup, List.pairwise_map]
  apply grow.imp
  intro smaller larger less same
  exact Nat.ne_of_lt less (NameAllocator.name_of_injective same)

theorem weaken {middle : NameAllocator} (numbered : Numbered first middle generated)
    (onward : middle.nextSuffix ≤ last.nextSuffix) : Numbered first last generated := by
  have rest : Numbered middle last [] := ⟨onward, [], rfl, .nil, by simp⟩
  simpa using numbered.append rest

end Numbered

/-- The allocator never goes back, not even when the network is turned down. -/
theorem validate_network_onward (config : NetworkConfig) (existing : List String)
    (names : NameAllocator) :
    names.nextSuffix ≤ (validateNetwork config existing names).2.nextSuffix := by
  unfold validateNetwork
  split
  · exact Nat.le_refl _
  · split
    · exact Nat.le_refl _
    · rename_i nodes later batch
      have onward := (validate_batch_generated batch).1.onward
      split <;> exact onward

theorem validate_added_node_generated {config resolved : NodeConfig} {existing : List String}
    {names later : NameAllocator}
    (judged : validateAddedNode config existing names = (.ok resolved, later)) :
    Numbered names later (if config.name = "" then [resolved.name] else []) := by
  unfold validateAddedNode at judged
  split at judged
  · simp at judged
  · rename_i nodes last batch
    have numbered := (validate_batch_generated batch).1
    cases validate_batch_filled_in batch with
    | cons filled none =>
        cases none
        simp only [List.headD_cons, Prod.mk.injEq, Except.ok.injEq] at judged
        obtain ⟨rfl, rfl⟩ := judged
        exact numbered

namespace Network

/-- The name that a step generates: that of the locked section in which an add reserves it. -/
def issued? : Network × Action → Option String
  | (network, .begin (.add config _)) =>
    if config.name = "" then (network.registry.reserve config).1.toOption.map NodeConfig.name
    else none
  | _ => none

def constructionNames (config : NetworkConfig) : List String :=
  match (validateNetwork config [] {}).1 with
  | .ok accepted => generatedNames config.nodes accepted.nodes
  | .error _ => []

/-- All generated names of a run, in the order in which they are handed out. -/
def issuedNames (config : NetworkConfig) (history : List (Network × Action)) : List String :=
  constructionNames config ++ history.filterMap issued?

variable {config : NetworkConfig} {network shared next : Network} {call : CallId}
variable {action : Action} {fate : Fate} {history : List (Network × Action)}

theorem issued_of_refusal {request : Request} {reason : NetworkError}
    (refusal : network.registry.refusal? request = some reason) :
    issued? (network, .begin request) = none := by
  cases request with
  | add config args =>
      simp only [issued?, Registry.reserve_of_refusal refusal]
      split <;> rfl
  | remove | get | names | stop | healthy => rfl

theorem issued_of_answer {request : Request} {outcome : Outcome}
    (answer : network.registry.answer? call request = some outcome) :
    issued? (network, .begin request) = none := by
  cases request with
  | add => cases answer
  | remove | get | names | stop | healthy => rfl

theorem turn_names (turn : Turn network call action shared fate) :
    Numbered network.registry.names shared.registry.names (issued? (network, action)).toList := by
  cases turn with
  | refused running refusal =>
      rw [issued_of_refusal refusal]
      exact .nil _
  | answered running opened answer =>
      rw [issued_of_answer answer]
      exact .nil _
  | @reserved given resolved args names log running opened judged =>
      have numbered := validate_added_node_generated judged
      simp only [issued?, Registry.reserve_of_judged opened judged]
      split at numbered
      case isTrue blank =>
        rw [if_pos blank]
        exact numbered
      case isFalse named =>
        rw [if_neg named]
        exact numbered
  | buildFailed busy fails | buildFailedAlone busy fails | addFailed busy fails =>
      cases fails <;> exact .nil _
  | _ => exact .nil _

theorem move_names (move : Move network action next) :
    Numbered network.registry.names next.registry.names (issued? (network, action)).toList := by
  cases move with
  | turn turn =>
      rw [settle_registry]
      exact turn_names turn
  | aside aside =>
      cases action with
      | cancel | check | dropSignal | pass => exact .nil _
      | _ => exact aside.elim
  | shuffled => exact .nil _

theorem construct_names (config : NetworkConfig) :
    Numbered {} (construct config).registry.names (constructionNames config) := by
  generalize same : construct config = network
  have fresh : Fresh config network := same ▸ fresh_construct config
  cases fresh with
  | rejected judged =>
      have onward := validate_network_onward config [] {}
      rw [judged] at onward
      simp only [constructionNames, judged]
      exact (Numbered.nil {}).weaken onward
  | empty judged | begun judged =>
      simp only [constructionNames, judged]
      exact (validate_batch_generated (validate_network_ok judged).1).1

theorem construct_taken (config : NetworkConfig) : (construct config).registry.taken = [] := by
  have untouched := untouched_construct config
  rw [Registry.taken, untouched.nodes, untouched.pending]
  rfl

/-- All names of a run are handed out one after the other by the allocator that is left. -/
theorem issued_names_numbered (trace : Trace (construct config) history network) :
    Numbered {} network.registry.names (issuedNames config history) := by
  have follows := @trace_follows (construct config) network history
    (fun history network => Numbered {} network.registry.names (issuedNames config history))
    trace (sound_construct config) ?_ ?_
  · exact follows.2
  · intro history network next action _ _ numbered move
    have more := numbered.append (move_names move)
    rw [issuedNames, List.append_assoc] at more
    rw [issuedNames, List.filterMap_append]
    cases handed : issued? (network, action) <;> simpa [handed] using more
  · rw [issuedNames, List.filterMap_nil, List.append_nil]
    exact construct_names config

theorem issued_eq_some {entry : Network × Action} {name : String}
    (issued : issued? entry = some name) :
    ∃ given args resolved names, entry.2 = .begin (.add given args) ∧ given.name = "" ∧
      resolved.name = name ∧
      validateAddedNode given entry.1.registry.taken entry.1.registry.names =
        (.ok resolved, names) := by
  unfold issued? at issued
  split at issued
  · rename_i state given args
    split at issued
    · rename_i blank
      unfold Registry.reserve at issued
      split at issued
      · cases issued
      · split at issued
        · cases issued
        · rename_i resolved names judged
          exact ⟨given, args, resolved, names, rfl, blank, Option.some.inj issued, judged⟩
    · cases issued
  · cases issued

theorem issued_name_free (trace : Trace (construct config) history network)
    {entry : Network × Action} (taken : entry ∈ history) {name : String}
    (issued : issued? entry = some name) :
    name ∉ entry.1.registry.nodes.map Prod.fst ∧ name ∉ entry.1.registry.pending ∧
      ∀ call, (entry.1.activity? call).bind Activity.reserved? ≠ some name := by
  obtain ⟨given, args, resolved, names, -, -, rfl, judged⟩ := issued_eq_some issued
  have reachable := reachable_of_mem trace taken
  have free := (validate_added_node_ok judged).2.free
  refine ⟨fun registered => free (List.mem_append_left _ registered),
    fun pending => free (List.mem_append_right _ pending), ?_⟩
  intro call reserved
  obtain ⟨activity, busy, same⟩ := Option.bind_eq_some_iff.mp reserved
  exact free (List.mem_append_right _
    (pending_of_reserved (reachable_sound reachable) (reachable_names reachable) busy same))

/-- The names that a network generates, at its construction and in the locked sections of its adds, have
growing suffixes in that order, so that none of them is handed out twice. A construction generates none
that is explicit in its config, and nothing is registered or reserved then. An add generates none that a
node has or that an add has reserved; its batch is the one node without a name. -/
theorem generated_names_never_reused (trace : Trace (construct config) history network) :
    (∃ suffixes : List Nat, issuedNames config history = suffixes.map NameAllocator.nameOf ∧
        suffixes.Pairwise (· < ·)) ∧
      (issuedNames config history).Nodup ∧
      (∀ name ∈ constructionNames config, name ∉ explicitNames config.nodes ∧
        name ∉ (construct config).registry.taken) ∧
      ∀ entry ∈ history, ∀ name, issued? entry = some name →
        name ∉ entry.1.registry.nodes.map Prod.fst ∧ name ∉ entry.1.registry.pending ∧
        (∀ call, (entry.1.activity? call).bind Activity.reserved? ≠ some name) ∧
        ∃ given args, entry.2 = .begin (.add given args) ∧ given.name = "" := by
  have numbered := issued_names_numbered trace
  obtain ⟨-, suffixes, numbers, grow, -⟩ := numbered
  refine ⟨⟨suffixes, numbers, grow⟩, (issued_names_numbered trace).nodup, ?_, ?_⟩
  · intro name member
    unfold constructionNames at member
    split at member
    · rename_i accepted judged
      have batch := (validate_network_ok (Prod.ext judged rfl)).1
      refine ⟨((validate_batch_generated batch).2 name member).2, ?_⟩
      rw [construct_taken]
      exact List.not_mem_nil
    · cases member
  · intro entry taken name issued
    obtain ⟨registered, pending, reserved⟩ := issued_name_free trace taken issued
    obtain ⟨given, args, _, _, adds, blank, _⟩ := issued_eq_some issued
    exact ⟨registered, pending, reserved, given, args, adds, blank⟩

/-- A node without a name beside one whose name has the generated form. -/
def halfNamed : NetworkConfig where
  nodes := [nameless, { nameless with name := "node-2" }]

/-- Names of all kinds become free: by removes of both nodes, and by a launch that fails. -/
def freedNames : List Action :=
  [.spawnReturns 0 (.ok ()), .startReturns 0 (.ok ()), .spawnReturns 0 (.ok ()),
    .startReturns 0 (.ok ()), .begin (.remove "node-1"), .stopReturns 1 (.ok ()),
    .begin (.add nameless []), .spawnReturns 2 (.error .alreadyStarted), .commit 2,
    .begin (.remove "node-2"), .begin (.add nameless [])]

theorem freed_names_stay_used :
    ∃ history network, Trace (construct halfNamed) history network ∧
      history.map Prod.snd = freedNames ∧
      issuedNames halfNamed history = ["node-1", "node-3", "node-4"] ∧
      (issuedNames halfNamed history).Nodup ∧ network.registry.pending = ["node-4"] ∧
      network.registry.nodes = [] := by
  have ran : ((construct halfNamed).run? freedNames).map
      (fun last => (last.registry.pending, last.registry.nodes)) = some (["node-4"], []) := by
    decide +kernel
  obtain ⟨network, run, facts⟩ := Option.map_eq_some_iff.mp ran
  simp only [Prod.mk.injEq] at facts
  have trace := trace_along run
  have issued : issuedNames halfNamed ((construct halfNamed).along freedNames) =
      ["node-1", "node-3", "node-4"] := by
    decide +kernel
  exact ⟨_, network, trace, along_actions run, issued,
    (generated_names_never_reused trace).2.1, facts⟩

end Network

end LocalNet
