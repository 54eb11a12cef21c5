import LocalNet.Proofs.Validation.Judgement
import LocalNet.Proofs.Validation.Normalization

/-!
# Validations in sequence

Validations follow one another on one allocator. A call that is turned down before any name is filled in
leaves the allocator where it was, so that without it every other call goes as before. Only a network
that lacks a beacon is turned down with its names filled in: its allocator goes as far as if a
beacon had been there.
-/

namespace LocalNet

inductive ValidationCall where
  | nextName (taken : List String)
  | network (config : NetworkConfig) (existing : List String)
  | addedNode (config : NodeConfig) (existing : List String)
  /-- Needs no allocator. -/
  | node (config : NodeConfig)

inductive ValidationResult where
  | name (name : String)
  | network (outcome : Except ValidationError NetworkConfig)
  | addedNode (outcome : Except ValidationError NodeConfig)
  | node (outcome : Except NodeConfigError Unit)
  deriving DecidableEq

namespace ValidationResult

def failed : ValidationResult → Bool
  | .network (.error _) | .addedNode (.error _) | .node (.error _) => true
  | _ => false

def lacksBeacon : ValidationResult → Bool
  | .network (.error .noBeacon) => true
  | _ => false

/-- The call failed by its health settings or by one of its nodes. -/
def dismissed (result : ValidationResult) : Bool :=
  result.failed && !result.lacksBeacon

end ValidationResult

def ValidationCall.perform (names : NameAllocator) :
    ValidationCall → ValidationResult × NameAllocator
  | .nextName taken =>
    let (name, later) := names.nextName taken
    (.name name, later)
  | .network config existing =>
    let (outcome, later) := validateNetwork config existing names
    (.network outcome, later)
  | .addedNode config existing =>
    let (outcome, later) := validateAddedNode config existing names
    (.addedNode outcome, later)
  | .node config => (.node (validateNode config), names)

/-- The calls of a sequence with their results, and the allocator that they leave. -/
def performAll (names : NameAllocator) :
    List ValidationCall → List (ValidationCall × ValidationResult) × NameAllocator
  | [] => ([], names)
  | call :: calls =>
    let (result, later) := call.perform names
    let (results, last) := performAll later calls
    ((call, result) :: results, last)

variable {names later : NameAllocator} {existing : List String}

/-! ## Calls that are dismissed -/

/-- A network that is turned down moves the allocator only if it lacks nothing but a beacon. -/
theorem validate_network_error {config : NetworkConfig} {reason : ValidationError}
    (judged : validateNetwork config existing names = (.error reason, later))
    (other : reason ≠ .noBeacon) : later = names := by
  unfold validateNetwork at judged
  split at judged
  · exact (congrArg Prod.snd judged).symm
  · split at judged
    · exact (congrArg Prod.snd judged).symm
    · split at judged
      · cases judged
        exact absurd rfl other
      · cases judged

theorem perform_dismissed {call : ValidationCall}
    (dismissed : (call.perform names).1.dismissed = true) : (call.perform names).2 = names := by
  cases call with
  | nextName taken => cases dismissed
  | network config existing =>
      rcases judged : validateNetwork config existing names with ⟨outcome, later⟩
      simp only [ValidationCall.perform, judged] at dismissed ⊢
      cases outcome with
      | ok => cases dismissed
      | error reason =>
          apply validate_network_error judged
          rintro rfl
          cases dismissed
  | addedNode config existing =>
      rcases judged : validateAddedNode config existing names with ⟨outcome, later⟩
      simp only [ValidationCall.perform, judged] at dismissed ⊢
      cases outcome with
      | ok => cases dismissed
      | error reason => exact validate_added_node_error judged
  | node config => rfl

/-- Some of the calls that were dismissed are left out, and all others kept. -/
inductive Thinned : (full thin : List (ValidationCall × ValidationResult)) → Prop where
  | nil : Thinned [] []
  | keep {full thin : List (ValidationCall × ValidationResult)}
      (entry : ValidationCall × ValidationResult) (rest : Thinned full thin) :
    Thinned (entry :: full) (entry :: thin)
  | leaveOut {full thin : List (ValidationCall × ValidationResult)}
      {entry : ValidationCall × ValidationResult} (dismissed : entry.2.dismissed = true)
      (rest : Thinned full thin) :
    Thinned (entry :: full) thin

theorem thinned_of_all_dismissed (full : List (ValidationCall × ValidationResult)) :
    Thinned full (full.filter fun entry => !entry.2.dismissed) := by
  induction full with
  | nil => exact .nil
  | cons entry full ih =>
      cases dismissed : entry.2.dismissed with
      | true =>
          rw [List.filter_cons_of_neg (by simp [dismissed])]
          exact .leaveOut dismissed ih
      | false =>
          rw [List.filter_cons_of_pos (by simp [dismissed])]
          exact .keep entry ih

theorem perform_all_cons (call : ValidationCall) (calls : List ValidationCall) :
    performAll names (call :: calls) =
      ((call, (call.perform names).1) :: (performAll (call.perform names).2 calls).1,
        (performAll (call.perform names).2 calls).2) :=
  rfl

/-- Whatever is left of a sequence goes as it went before, since it finds the allocator where it was. -/
theorem perform_all_thinned {calls : List ValidationCall}
    {thin : List (ValidationCall × ValidationResult)}
    (thinned : Thinned (performAll names calls).1 thin) :
    performAll names (thin.map Prod.fst) = (thin, (performAll names calls).2) := by
  induction calls generalizing names thin with
  | nil =>
      cases thinned
      rfl
  | cons call calls ih =>
      rw [perform_all_cons] at thinned ⊢
      cases thinned with
      | keep entry rest => rw [List.map_cons, perform_all_cons, ih rest]
      | leaveOut dismissed rest =>
          -- The calls behind were performed from where this one began.
          have still : (call.perform names).2 = names := perform_dismissed dismissed
          rw [still] at rest ⊢
          exact ih rest

/-! ## Networks that lack a beacon -/

/-- The same node, but for whether it is a beacon. -/
def Relit (node lit : NodeConfig) : Prop :=
  lit = { node with isBeacon := lit.isBeacon }

section Relit

variable {configs others : List NodeConfig}

theorem Relit.judged {node lit : NodeConfig} (relit : Relit node lit) :
    validateNode lit = validateNode node := by
  rw [relit]
  rfl

theorem Relit.name {node lit : NodeConfig} (relit : Relit node lit) : lit.name = node.name := by
  rw [relit]

theorem validate_each_relit (relit : List.Forall₂ Relit configs others) (index : Nat) :
    validateEach index others = validateEach index configs := by
  induction relit generalizing index with
  | nil => rfl
  | cons first _ ih => simp only [validateEach, first.judged, ih]

theorem reserve_names_relit (relit : List.Forall₂ Relit configs others) (index : Nat)
    (taken : List String) : reserveNames index others taken = reserveNames index configs taken := by
  induction relit generalizing index taken with
  | nil => rfl
  | cons first _ ih => simp only [reserveNames, first.name, ih]

theorem resolve_names_relit (relit : List.Forall₂ Relit configs others) (taken : List String)
    (names : NameAllocator) :
    (resolveNames others taken names).2 = (resolveNames configs taken names).2 := by
  induction relit generalizing taken names with
  | nil => rfl
  | @cons config other _ _ first _ ih =>
      by_cases blank : config.name = ""
      · simp only [resolveNames, first.name, if_pos blank, ih]
      · simp only [resolveNames, first.name, if_neg blank, ih]

/-- Which nodes are beacons decides nothing about a batch. -/
theorem validate_batch_relit {nodes : List NodeConfig} (relit : List.Forall₂ Relit configs others)
    (accepted : validateBatch configs existing names = .ok (nodes, later)) :
    ∃ resolved, validateBatch others existing names = .ok (resolved, later) := by
  unfold validateBatch at accepted ⊢
  rw [validate_each_relit relit, reserve_names_relit relit]
  split at accepted
  · cases accepted
  · split at accepted
    · cases accepted
    · rename_i taken _
      have resolved : resolveNames configs taken names = (nodes, later) := by
        simpa using accepted
      have last : (resolveNames others taken names).2 = later := by
        rw [resolve_names_relit relit, resolved]
      exact ⟨(resolveNames others taken names).1, by rw [← last]⟩

end Relit

/-- The same network, but for which of its nodes are beacons. -/
structure SameButBeacons (config lit : NetworkConfig) : Prop where
  nodes : List.Forall₂ Relit config.nodes lit.nodes
  others : lit = { config with nodes := lit.nodes }

theorem no_beacon_batch {config : NetworkConfig}
    (judged : validateNetwork config existing names = (.error .noBeacon, later)) :
    config.health.validate = .ok () ∧
      ∃ nodes, validateBatch config.nodes existing names = .ok (nodes, later) := by
  unfold validateNetwork at judged
  split at judged
  · cases judged
  · rename_i health
    refine ⟨health, ?_⟩
    split at judged
    · rename_i refused
      cases judged
      cases (validate_batch_error_iff config.nodes existing names _).mp refused
    · rename_i nodes last batch
      split at judged
      · cases judged
        exact ⟨nodes, batch⟩
      · cases judged

/-- With a beacon the network would have been accepted, and the allocator would be the same. -/
theorem validate_network_lit {config lit : NetworkConfig}
    (judged : validateNetwork config existing names = (.error .noBeacon, later))
    (same : SameButBeacons config lit) (beacon : ∃ node ∈ lit.nodes, node.isBeacon = true) :
    ∃ accepted, validateNetwork lit existing names = (.ok accepted, later) := by
  obtain ⟨health, nodes, batch⟩ := no_beacon_batch judged
  obtain ⟨resolved, lighted⟩ := validate_batch_relit same.nodes batch
  have settings : lit.health = config.health := by rw [same.others]
  have bright : ¬(!resolved.isEmpty && !resolved.any NodeConfig.isBeacon) = true := by
    rw [unlit_iff lighted]
    rintro ⟨-, none⟩
    obtain ⟨node, listed, isBeacon⟩ := beacon
    simp [none node listed] at isBeacon
  unfold validateNetwork
  rw [settings, health]
  simp only [lighted, if_neg bright]
  exact ⟨_, rfl⟩

/-- A call that fails by its health settings or by a node leaves the allocator where it was, and a network
that lacks a beacon leaves it where it would be left if any of its nodes were beacons. So whichever of
the former are left out of a sequence, be it one or all of them, every other call has the result it had,
and the allocator ends where it ended. -/
theorem dismissed_calls_leave_no_mark (names : NameAllocator) :
    (∀ call : ValidationCall, (call.perform names).1.dismissed = true →
      (call.perform names).2 = names) ∧
    (∀ config existing later, validateNetwork config existing names = (.error .noBeacon, later) →
      ∀ lit, SameButBeacons config lit → (∃ node ∈ lit.nodes, node.isBeacon = true) →
        ∃ accepted, validateNetwork lit existing names = (.ok accepted, later)) ∧
    ∀ calls results last, performAll names calls = (results, last) →
      (∀ thin, Thinned results thin → performAll names (thin.map Prod.fst) = (thin, last)) ∧
      performAll names ((results.filter fun entry => !entry.2.dismissed).map Prod.fst) =
        (results.filter fun entry => !entry.2.dismissed, last) := by
  refine ⟨fun call => perform_dismissed, ?_, ?_⟩
  · intro config existing later judged lit same beacon
    exact validate_network_lit judged same beacon
  · intro calls results last performed
    obtain rfl : (performAll names calls).1 = results := by rw [performed]
    obtain rfl : (performAll names calls).2 = last := by rw [performed]
    exact ⟨fun thin => perform_all_thinned, perform_all_thinned (thinned_of_all_dismissed _)⟩

/-- One node, which has no name yet and is no beacon. -/
def unlitNetwork : NetworkConfig where
  nodes := [{ nameless with isBeacon := false }]

def litNetwork : NetworkConfig where
  nodes := [nameless]

/-- A network that is never polled, a network without a beacon, a node whose name is taken, and a request
for a name: the second call alone uses up a name. -/
def mixedCalls : List ValidationCall :=
  [.network { unlitNetwork with health := { timeoutSecs := 0 } } [], .network unlitNetwork [],
    .addedNode { nameless with name := "node-1" } ["node-1"], .nextName []]

theorem unlit_network_uses_up_name :
    ((ValidationCall.addedNode { nameless with name := "node-1" } ["node-1"]).perform ⟨2⟩).2 =
      ⟨2⟩ ∧
    validateNetwork unlitNetwork [] {} = (.error .noBeacon, ⟨2⟩) ∧
    (∃ accepted, validateNetwork litNetwork [] {} = (.ok accepted, ⟨2⟩)) ∧
    (∃ results, performAll {} mixedCalls = (results, ⟨3⟩) ∧
      results.map (fun entry => entry.2.dismissed) = [true, false, true, false]) ∧
    performAll {} [.network unlitNetwork [], .nextName []] =
      ([(.network unlitNetwork [], .network (.error .noBeacon)), (.nextName [], .name "node-2")],
        ⟨3⟩) := by
  have refused : validateNetwork unlitNetwork [] {} = (.error .noBeacon, ⟨2⟩) := by rfl
  have same : SameButBeacons unlitNetwork litNetwork := ⟨.cons rfl .nil, rfl⟩
  have beacon : ∃ node ∈ litNetwork.nodes, node.isBeacon = true :=
    ⟨nameless, List.mem_singleton_self _, rfl⟩
  obtain ⟨results, performed⟩ : ∃ results, performAll {} mixedCalls = (results, ⟨3⟩) := ⟨_, rfl⟩
  have still := (dismissed_calls_leave_no_mark ⟨2⟩).1
    (.addedNode { nameless with name := "node-1" } ["node-1"]) rfl
  have lit := (dismissed_calls_leave_no_mark {}).2.1 _ _ _ refused _ same beacon
  have left := ((dismissed_calls_leave_no_mark {}).2.2 _ _ _ performed).2
  cases performed
  exact ⟨still, refused, lit, ⟨_, rfl, rfl⟩, left⟩

end LocalNet
