import Mathlib.Data.List.Forall2
import LocalNet.Validation
import LocalNet.Proofs.Names

/-!
# The names of an accepted batch

A batch is accepted in three passes: every node is judged, the explicit names are reserved, and the
blank ones are filled in. The names that come out are distinct, free, plain and never blank.
-/

namespace LocalNet

def explicitNames (configs : List NodeConfig) : List String :=
  (configs.map NodeConfig.name).filter (· ≠ "")

theorem mem_explicit_names {configs : List NodeConfig} {name : String} :
    name ∈ explicitNames configs ↔ name ≠ "" ∧ ∃ config ∈ configs, config.name = name := by
  simp [explicitNames, and_comm]

theorem explicit_names_cons_blank {config : NodeConfig} (rest : List NodeConfig)
    (blank : config.name = "") : explicitNames (config :: rest) = explicitNames rest := by
  simp [explicitNames, blank]

theorem explicit_names_cons {config : NodeConfig} (rest : List NodeConfig)
    (named : config.name ≠ "") :
    explicitNames (config :: rest) = config.name :: explicitNames rest := by
  simp [explicitNames, named]

theorem validate_node_name {config : NodeConfig} (accepted : validateNode config = .ok ()) :
    isValidNodeName config.name = true := by
  unfold validateNode at accepted
  split at accepted
  case isTrue => cases accepted
  case isFalse valid => simpa using valid

theorem validate_each_node {configs : List NodeConfig} {index : Nat}
    (accepted : validateEach index configs = .ok ()) :
    ∀ config ∈ configs, validateNode config = .ok () := by
  induction configs generalizing index with
  | nil => simp
  | cons config rest ih =>
      unfold validateEach at accepted
      split at accepted
      · cases accepted
      · rename_i judged
        intro other member
        rcases List.mem_cons.mp member with rfl | later
        · exact judged
        · exact ih accepted other later

/-- What is reserved is every explicit name, none of them twice and none that was taken before. -/
theorem reserve_names_ok {configs : List NodeConfig} {index : Nat} {taken all : List String}
    (accepted : reserveNames index configs taken = .ok all) :
    (explicitNames configs).Nodup ∧
      (∀ name ∈ explicitNames configs, name ∉ taken) ∧
      ∀ name, name ∈ all ↔ name ∈ explicitNames configs ∨ name ∈ taken := by
  induction configs generalizing index taken with
  | nil =>
      have same : taken = all := by simpa [reserveNames] using accepted
      subst same
      simp [explicitNames]
  | cons config rest ih =>
      unfold reserveNames at accepted
      split at accepted
      case isTrue blank =>
        rw [explicit_names_cons_blank rest blank]
        exact ih accepted
      case isFalse named =>
        split at accepted
        case isTrue => cases accepted
        case isFalse free =>
          obtain ⟨distinct, disjoint, reserved⟩ := ih accepted
          have untaken : config.name ∉ taken := by simpa using free
          rw [explicit_names_cons rest named]
          refine ⟨List.nodup_cons.mpr ⟨?_, distinct⟩, ?_, ?_⟩
          · intro again
            exact disjoint _ again (List.mem_cons_self ..)
          · intro name member
            rcases List.mem_cons.mp member with rfl | later
            · exact untaken
            · exact fun present => disjoint name later (List.mem_cons_of_mem _ present)
          · intro name
            rw [reserved name, List.mem_cons, List.mem_cons]
            grind

/-- A resolved config is the given one, but for a blank name. -/
def Resolves (config resolved : NodeConfig) : Prop :=
  resolved = { config with name := resolved.name } ∧
    (config.name ≠ "" → resolved.name = config.name)

theorem resolve_names_resolves (configs : List NodeConfig) (taken : List String)
    (names : NameAllocator) :
    List.Forall₂ Resolves configs (resolveNames configs taken names).1 := by
  induction configs generalizing taken names with
  | nil => exact .nil
  | cons config rest ih =>
      unfold resolveNames
      split
      case isTrue blank => exact .cons ⟨rfl, fun named => absurd blank named⟩ (ih _ _)
      case isFalse => exact .cons ⟨rfl, fun _ => rfl⟩ (ih _ _)

theorem resolved_name_explicit_or_fresh {configs : List NodeConfig} (taken : List String)
    (names : NameAllocator) {resolved : NodeConfig}
    (member : resolved ∈ (resolveNames configs taken names).1) :
    resolved.name ∈ explicitNames configs ∨
      resolved.name ∉ taken ∧ ∃ suffix, resolved.name = NameAllocator.nameOf suffix := by
  induction configs generalizing taken names with
  | nil => simp [resolveNames] at member
  | cons config rest ih =>
      unfold resolveNames at member
      split at member
      case isTrue blank =>
        rw [explicit_names_cons_blank rest blank]
        rcases List.mem_cons.mp member with rfl | later
        · exact .inr ⟨names.next_name_fresh taken, _, rfl⟩
        · rcases ih _ _ later with explicit | ⟨fresh, generated⟩
          · exact .inl explicit
          · exact .inr ⟨fun present => fresh (List.mem_cons_of_mem _ present), generated⟩
      case isFalse named =>
        rw [explicit_names_cons rest named]
        rcases List.mem_cons.mp member with rfl | later
        · exact .inl (List.mem_cons_self ..)
        · rcases ih _ _ later with explicit | fresh
          · exact .inl (List.mem_cons_of_mem _ explicit)
          · exact .inr fresh

/-- Explicit names are taken before any name is generated, so that no generated one meets them,
wherever they stand in the batch. -/
theorem resolved_names_nodup {configs : List NodeConfig} {taken : List String}
    (names : NameAllocator) (distinct : (explicitNames configs).Nodup)
    (reserved : ∀ name ∈ explicitNames configs, name ∈ taken) :
    ((resolveNames configs taken names).1.map NodeConfig.name).Nodup := by
  induction configs generalizing taken names with
  | nil => simp [resolveNames]
  | cons config rest ih =>
      unfold resolveNames
      split
      case isTrue blank =>
        rw [explicit_names_cons_blank rest blank] at distinct reserved
        have fresh := names.next_name_fresh taken
        refine List.nodup_cons.mpr ⟨?_, ih _ distinct fun name member =>
          List.mem_cons_of_mem _ (reserved name member)⟩
        intro again
        obtain ⟨other, member, same⟩ := List.mem_map.mp again
        change other.name = (names.nextName taken).1 at same
        rcases resolved_name_explicit_or_fresh _ _ member with explicit | ⟨free, _⟩
        · exact fresh (same ▸ reserved _ explicit)
        · exact free (same ▸ List.mem_cons_self ..)
      case isFalse named =>
        rw [explicit_names_cons rest named] at distinct reserved
        obtain ⟨alone, distinct⟩ := List.nodup_cons.mp distinct
        have present := reserved _ (List.mem_cons_self ..)
        refine List.nodup_cons.mpr ⟨?_, ih _ distinct fun name member =>
          reserved name (List.mem_cons_of_mem _ member)⟩
        intro again
        obtain ⟨other, member, same⟩ := List.mem_map.mp again
        rcases resolved_name_explicit_or_fresh _ _ member with explicit | ⟨free, _⟩
        · exact alone (same ▸ explicit)
        · exact free (same ▸ present)

/-- A name that a node can go by beside those that are taken. -/
structure UsableName (taken : List String) (name : String) : Prop where
  free : name ∉ taken
  named : name ≠ ""
  valid : isValidNodeName name = true

theorem validate_batch_ok {configs nodes : List NodeConfig} {existing : List String}
    {names later : NameAllocator}
    (accepted : validateBatch configs existing names = .ok (nodes, later)) :
    List.Forall₂ Resolves configs nodes ∧ (nodes.map NodeConfig.name).Nodup ∧
      ∀ node ∈ nodes, UsableName existing node.name := by
  unfold validateBatch at accepted
  split at accepted
  · cases accepted
  · rename_i judged
    split at accepted
    · cases accepted
    · rename_i taken reserved
      have resolved : resolveNames configs taken names = (nodes, later) := by
        simpa using accepted
      have result : (resolveNames configs taken names).1 = nodes := by rw [resolved]
      obtain ⟨distinct, disjoint, all⟩ := reserve_names_ok reserved
      refine ⟨result ▸ resolve_names_resolves configs taken names,
        result ▸ resolved_names_nodup names distinct fun name member =>
          (all name).mpr (.inl member), ?_⟩
      intro node member
      rcases resolved_name_explicit_or_fresh taken names (result ▸ member) with
        explicit | ⟨fresh, suffix, generated⟩
      · obtain ⟨named, config, given, same⟩ := mem_explicit_names.mp explicit
        exact ⟨disjoint _ explicit, named,
          same ▸ validate_node_name (validate_each_node judged config given)⟩
      · refine ⟨fun present => fresh ((all _).mpr (.inr present)), ?_, ?_⟩
        · exact generated ▸ NameAllocator.name_of_ne_blank suffix
        · exact generated ▸ NameAllocator.name_of_valid suffix

/-- Whatever comes out of a batch was put into it, and judged by itself before its name was filled
in. -/
theorem validate_batch_judged {configs nodes : List NodeConfig} {existing : List String}
    {names later : NameAllocator}
    (accepted : validateBatch configs existing names = .ok (nodes, later)) :
    (∀ config ∈ configs, validateNode config = .ok ()) ∧
      ∀ node ∈ nodes, ∃ config ∈ configs, Resolves config node := by
  constructor
  · unfold validateBatch at accepted
    split at accepted
    · cases accepted
    · rename_i judged
      exact validate_each_node judged
  · have resolves := (validate_batch_ok accepted).1
    intro node member
    obtain ⟨index, inNodes, rfl⟩ := List.getElem_of_mem member
    have inConfigs : index < configs.length := resolves.length_eq ▸ inNodes
    exact ⟨configs[index], List.getElem_mem inConfigs, resolves.get inConfigs inNodes⟩

theorem validate_network_ok {config accepted : NetworkConfig} {existing : List String}
    {names later : NameAllocator}
    (judged : validateNetwork config existing names = (.ok accepted, later)) :
    validateBatch config.nodes existing names = .ok (accepted.nodes, later) ∧
      accepted = { config with nodes := accepted.nodes } := by
  unfold validateNetwork at judged
  split at judged
  · simp at judged
  · split at judged
    · simp at judged
    · rename_i nodes last batch
      split at judged
      · simp at judged
      · simp only [Prod.mk.injEq, Except.ok.injEq] at judged
        obtain ⟨rfl, rfl⟩ := judged
        exact ⟨batch, rfl⟩

theorem validate_added_node_ok {config resolved : NodeConfig} {existing : List String}
    {names later : NameAllocator}
    (judged : validateAddedNode config existing names = (.ok resolved, later)) :
    Resolves config resolved ∧ UsableName existing resolved.name := by
  unfold validateAddedNode at judged
  split at judged
  · simp at judged
  · rename_i nodes last batch
    obtain ⟨resolves, -, usable⟩ := validate_batch_ok batch
    cases resolves with
    | cons given none =>
        cases none
        simp only [List.headD_cons, Prod.mk.injEq, Except.ok.injEq] at judged
        obtain ⟨rfl, rfl⟩ := judged
        exact ⟨given, usable _ (List.mem_cons_self ..)⟩

theorem validate_added_node_judged {config resolved : NodeConfig} {existing : List String}
    {names later : NameAllocator}
    (judged : validateAddedNode config existing names = (.ok resolved, later)) :
    validateNode config = .ok () := by
  unfold validateAddedNode at judged
  split at judged
  · simp at judged
  · rename_i batch
    exact (validate_batch_judged batch).1 config (List.mem_singleton_self _)

theorem validate_added_node_error {config : NodeConfig} {existing : List String}
    {names later : NameAllocator} {reason : ValidationError}
    (judged : validateAddedNode config existing names = (.error reason, later)) :
    later = names := by
  unfold validateAddedNode at judged
  split at judged <;> simp_all

end LocalNet
