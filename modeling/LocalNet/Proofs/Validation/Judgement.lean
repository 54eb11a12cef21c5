import LocalNet.Proofs.Validation.Batch

/-!
# What validation accepts, and which violation it reports

A batch is at fault where one of its nodes is, or else where a name is used twice. Among several faults
the one is reported that stands first: by index, and for one node in a fixed order. A network is judged
by the settings of its health checks first, and by its beacons last.
-/

namespace LocalNet

namespace NodeConfig

def nameViolations (config : NodeConfig) : List NodeConfigError :=
  if isValidNodeName config.name then [] else [.invalidName config.name]

def implViolations (config : NodeConfig) : List NodeConfigError :=
  match config.implConfig with
  | none => [.missingImplConfig]
  | some value =>
    match LaunchConfig.ofValue value with
    | .error reason => [.invalidImplConfig reason]
    | .ok _ => []

def fileViolations (config : NodeConfig) : List NodeConfigError :=
  (if config.configFile = [] then [.missingConfigFile] else []) ++
    (if config.genesisFile = [] then [.missingGenesisFile] else [])

def stakingViolations (config : NodeConfig) : List NodeConfigError :=
  (if config.stakingKey ≠ [] ∧ config.stakingCert = [] then [.stakingKeyWithoutCert] else []) ++
    (if config.stakingCert ≠ [] ∧ config.stakingKey = [] then [.stakingCertWithoutKey] else []) ++
    (if config.stakingCert ≠ [] ∧ config.stakingKey ≠ [] then
      match StakingMaterial.parse config.stakingCert config.stakingKey with
      | .error reason => [.invalidStaking reason]
      | .ok _ => []
    else [])

/-- All that is wrong with a config by itself, in the order in which it is looked for. Each test stands
for itself, whatever the ones before it have found. -/
def violations (config : NodeConfig) : List NodeConfigError :=
  config.nameViolations ++ config.implViolations ++ config.fileViolations ++
    config.stakingViolations

end NodeConfig

def verdictOf : List NodeConfigError → Except NodeConfigError Unit
  | [] => .ok ()
  | reason :: _ => .error reason

theorem verdict_ok_iff (reasons : List NodeConfigError) :
    verdictOf reasons = .ok () ↔ reasons = [] := by
  cases reasons <;> simp [verdictOf]

theorem validate_staking_eq (config : NodeConfig) :
    validateStaking config = verdictOf config.stakingViolations := by
  unfold validateStaking NodeConfig.stakingViolations
  cases cert : config.stakingCert with
  | nil => cases key : config.stakingKey <;> simp [verdictOf]
  | cons =>
      cases key : config.stakingKey with
      | nil => simp [verdictOf]
      | cons =>
          simp only [List.isEmpty_cons]
          cases StakingMaterial.parse _ _ <;> simp [verdictOf]

theorem validate_node_eq (config : NodeConfig) :
    validateNode config = verdictOf config.violations := by
  unfold validateNode NodeConfig.violations
  by_cases named : isValidNodeName config.name = true
  · have noName : config.nameViolations = [] := by simp [NodeConfig.nameViolations, named]
    rw [noName]
    unfold NodeConfig.implViolations
    cases config.implConfig with
    | none => simp [named, verdictOf]
    | some value =>
        simp only [named, Bool.not_true, Bool.false_eq_true, if_false]
        cases LaunchConfig.ofValue value with
        | error reason => rfl
        | ok =>
            simp only [List.nil_append]
            unfold NodeConfig.fileViolations
            rw [validate_staking_eq]
            cases config.configFile with
            | nil => rfl
            | cons =>
                cases config.genesisFile with
                | nil => rfl
                | cons => simp
  · simp [named, NodeConfig.nameViolations, verdictOf]

theorem validate_node_ok_iff (config : NodeConfig) :
    validateNode config = .ok () ↔ config.violations = [] := by
  rw [validate_node_eq, verdict_ok_iff]

/-- The least index of which something holds. -/
def First (Holds : Nat → Prop) (index : Nat) : Prop :=
  Holds index ∧ ∀ earlier < index, ¬Holds earlier

theorem first_zero {Holds : Nat → Prop} : First Holds 0 ↔ Holds 0 := by
  simp [First]

theorem first_succ {Holds : Nat → Prop} (later : ¬Holds 0) (index : Nat) :
    First Holds (index + 1) ↔ First (fun index => Holds (index + 1)) index := by
  unfold First
  apply and_congr_right
  intro _
  constructor
  · intro none earlier low
    exact none (earlier + 1) (Nat.succ_lt_succ low)
  · intro none earlier low
    cases earlier with
    | zero => exact later
    | succ earlier => exact none earlier (Nat.lt_of_succ_lt_succ low)

theorem First.none {Holds : Nat → Prop} {index : Nat} (first : First Holds (index + 1)) :
    ¬Holds 0 :=
  first.2 0 (Nat.succ_pos _)

def Violating (configs : List NodeConfig) (index : Nat) : Prop :=
  ∃ config, configs[index]? = some config ∧ config.violations ≠ []

/-- The node at this index bears an explicit name that is taken, or that stands earlier. -/
def Clashing (existing : List String) (configs : List NodeConfig) (index : Nat) : Prop :=
  ∃ config, configs[index]? = some config ∧ config.name ≠ "" ∧
    (config.name ∈ existing ∨
      ∃ earlier < index, ∃ other, configs[earlier]? = some other ∧ other.name = config.name)

theorem validate_each_error_iff (configs : List NodeConfig) (start : Nat)
    (reason : ValidationError) :
    validateEach start configs = .error reason ↔
      ∃ index config fault, First (Violating configs) index ∧ configs[index]? = some config ∧
        config.violations.head? = some fault ∧ reason = .node (start + index) fault := by
  induction configs generalizing start with
  | nil => simp [validateEach]
  | cons config rest ih =>
      unfold validateEach
      rw [validate_node_eq]
      cases found : config.violations with
      | nil =>
          have sound : ¬Violating (config :: rest) 0 := by simp [Violating, found]
          simp only [verdictOf, ih]
          constructor
          · rintro ⟨index, faulty, fault, first, entry, head, rfl⟩
            refine ⟨index + 1, faulty, fault, (first_succ sound index).mpr first, ?_, head, ?_⟩
            · simpa using entry
            · rw [Nat.add_assoc, Nat.add_comm 1 index]
          · rintro ⟨index, faulty, fault, first, entry, head, rfl⟩
            cases index with
            | zero => exact absurd first.1 sound
            | succ index =>
                refine ⟨index, faulty, fault, (first_succ sound index).mp first, ?_, head, ?_⟩
                · simpa using entry
                · rw [Nat.add_assoc, Nat.add_comm 1 index]
      | cons fault others =>
          have faulty : Violating (config :: rest) 0 := by simp [Violating, found]
          simp only [verdictOf]
          constructor
          · intro same
            cases same
            exact ⟨0, config, fault, first_zero.mpr faulty, rfl, by rw [found]; rfl, rfl⟩
          · rintro ⟨index, other, reported, first, entry, head, rfl⟩
            cases index with
            | zero =>
                obtain rfl : config = other := by simpa using entry
                obtain rfl : fault = reported := by simpa [found] using head
                rfl
            | succ index => exact absurd faulty first.none

theorem validate_each_ok_iff (configs : List NodeConfig) (start : Nat) :
    validateEach start configs = .ok () ↔ ∀ config ∈ configs, validateNode config = .ok () := by
  induction configs generalizing start with
  | nil => simp [validateEach]
  | cons config rest ih =>
      unfold validateEach
      cases judged : validateNode config <;> simp [ih, judged]

theorem clashing_succ (existing : List String) (config : NodeConfig) (rest : List NodeConfig)
    (index : Nat) :
    Clashing existing (config :: rest) (index + 1) ↔
      Clashing (config.name :: existing) rest index := by
  unfold Clashing
  simp only [List.getElem?_cons_succ]
  apply exists_congr
  intro other
  apply and_congr_right
  intro _
  apply and_congr_right
  intro _
  constructor
  · rintro (taken | ⟨earlier, low, first, entry, same⟩)
    · exact .inl (List.mem_cons_of_mem _ taken)
    · cases earlier with
      | zero =>
          obtain rfl : config = first := by simpa using entry
          exact .inl (same ▸ List.mem_cons_self ..)
      | succ earlier =>
          exact .inr ⟨earlier, Nat.lt_of_succ_lt_succ low, first, by simpa using entry, same⟩
  · rintro (taken | ⟨earlier, low, first, entry, same⟩)
    · rcases List.mem_cons.mp taken with same | taken
      · exact .inr ⟨0, Nat.succ_pos _, config, rfl, same.symm⟩
      · exact .inl taken
    · exact .inr ⟨earlier + 1, Nat.succ_lt_succ low, first, by simpa using entry, same⟩

/-- A blank name is nobody's. -/
theorem clashing_blank (existing : List String) (configs : List NodeConfig) (index : Nat) :
    Clashing ("" :: existing) configs index ↔ Clashing existing configs index := by
  unfold Clashing
  apply exists_congr
  intro config
  apply and_congr_right
  intro _
  apply and_congr_right
  intro named
  rw [List.mem_cons, or_iff_right named]

theorem clashing_zero (existing : List String) (config : NodeConfig) (rest : List NodeConfig) :
    Clashing existing (config :: rest) 0 ↔ config.name ≠ "" ∧ config.name ∈ existing := by
  simp [Clashing]

theorem reserve_names_error_iff (configs : List NodeConfig) (start : Nat) (taken : List String)
    (reason : ValidationError) :
    reserveNames start configs taken = .error reason ↔
      ∃ index config, First (Clashing taken configs) index ∧ configs[index]? = some config ∧
        reason = .node (start + index) (.duplicateName config.name) := by
  induction configs generalizing start taken with
  | nil => simp [reserveNames]
  | cons config rest ih =>
      -- What goes on after a name that does not clash is the same for blank and explicit ones.
      have onward (free : ¬Clashing taken (config :: rest) 0) :
          (∃ index other, First (Clashing (config.name :: taken) rest) index ∧
              rest[index]? = some other ∧
              reason = .node (start + 1 + index) (.duplicateName other.name)) ↔
            ∃ index other, First (Clashing taken (config :: rest)) index ∧
              (config :: rest)[index]? = some other ∧
              reason = .node (start + index) (.duplicateName other.name) := by
        have shifted (index : Nat) : First (Clashing taken (config :: rest)) (index + 1) ↔
            First (Clashing (config.name :: taken) rest) index := by
          rw [first_succ free]
          simp only [First, clashing_succ]
        constructor
        · rintro ⟨index, other, first, entry, rfl⟩
          refine ⟨index + 1, other, (shifted index).mpr first, by simpa using entry, ?_⟩
          rw [Nat.add_assoc, Nat.add_comm 1 index]
        · rintro ⟨index, other, first, entry, rfl⟩
          cases index with
          | zero => exact absurd first.1 free
          | succ index =>
              refine ⟨index, other, (shifted index).mp first, by simpa using entry, ?_⟩
              rw [Nat.add_assoc, Nat.add_comm 1 index]
      unfold reserveNames
      by_cases blank : config.name = ""
      · rw [if_pos blank, ih, ← onward (by simp [clashing_zero, blank]), blank]
        simp only [First, clashing_blank]
      · rw [if_neg blank]
        by_cases present : config.name ∈ taken
        · have clash : Clashing taken (config :: rest) 0 :=
            (clashing_zero ..).mpr ⟨blank, present⟩
          rw [if_pos (by simpa using present)]
          constructor
          · intro same
            cases same
            exact ⟨0, config, first_zero.mpr clash, rfl, rfl⟩
          · rintro ⟨index, other, first, entry, rfl⟩
            cases index with
            | zero =>
                obtain rfl : config = other := by simpa using entry
                rfl
            | succ index => exact absurd clash first.none
        · rw [if_neg (by simpa using present), ih]
          exact onward (by simp [clashing_zero, present])

theorem reserve_names_ok_iff (configs : List NodeConfig) (start : Nat) (taken : List String) :
    (∃ all, reserveNames start configs taken = .ok all) ↔
      (explicitNames configs).Nodup ∧ ∀ name ∈ explicitNames configs, name ∉ taken := by
  constructor
  · rintro ⟨all, reserved⟩
    obtain ⟨distinct, free, -⟩ := reserve_names_ok reserved
    exact ⟨distinct, free⟩
  · induction configs generalizing start taken with
    | nil => exact fun _ => ⟨taken, rfl⟩
    | cons config rest ih =>
        rintro ⟨distinct, free⟩
        unfold reserveNames
        by_cases blank : config.name = ""
        · rw [explicit_names_cons_blank rest blank] at distinct free
          rw [if_pos blank]
          exact ih _ _ ⟨distinct, free⟩
        · rw [explicit_names_cons rest blank] at distinct free
          obtain ⟨alone, distinct⟩ := List.nodup_cons.mp distinct
          have untaken := free _ (List.mem_cons_self ..)
          rw [if_neg blank, if_neg (by simpa using untaken)]
          apply ih
          refine ⟨distinct, ?_⟩
          intro name member again
          rcases List.mem_cons.mp again with rfl | present
          · exact alone member
          · exact free name (List.mem_cons_of_mem _ member) present

/-- A batch in which every node is sound and no explicit name is used twice. -/
structure BatchValid (existing : List String) (configs : List NodeConfig) : Prop where
  nodes : ∀ config ∈ configs, validateNode config = .ok ()
  distinct : (explicitNames configs).Nodup
  free : ∀ name ∈ explicitNames configs, name ∉ existing

/-- What is reported of a batch: the least node that is at fault by itself, with the first of its
violations, or else the least one whose name clashes. -/
inductive BatchFault (existing : List String) (configs : List NodeConfig) :
    ValidationError → Prop where
  | violation {index : Nat} {config : NodeConfig} {reason : NodeConfigError}
      (first : First (Violating configs) index) (entry : configs[index]? = some config)
      (worst : config.violations.head? = some reason) :
    BatchFault existing configs (.node index reason)
  | clash {index : Nat} {config : NodeConfig}
      (nodes : ∀ config ∈ configs, validateNode config = .ok ())
      (first : First (Clashing existing configs) index)
      (entry : configs[index]? = some config) :
    BatchFault existing configs (.node index (.duplicateName config.name))

theorem validate_batch_ok_iff (configs : List NodeConfig) (existing : List String)
    (names : NameAllocator) :
    (∃ result, validateBatch configs existing names = .ok result) ↔
      BatchValid existing configs := by
  unfold validateBatch
  constructor
  · rintro ⟨result, accepted⟩
    split at accepted
    · cases accepted
    · rename_i judged
      split at accepted
      · cases accepted
      · rename_i all reserved
        obtain ⟨distinct, free⟩ := (reserve_names_ok_iff configs 0 existing).mp ⟨all, reserved⟩
        exact ⟨(validate_each_ok_iff configs 0).mp judged, distinct, free⟩
  · intro valid
    obtain ⟨all, reserved⟩ :=
      (reserve_names_ok_iff configs 0 existing).mpr ⟨valid.distinct, valid.free⟩
    rw [(validate_each_ok_iff configs 0).mpr valid.nodes, reserved]
    exact ⟨_, rfl⟩

theorem validate_batch_error_iff (configs : List NodeConfig) (existing : List String)
    (names : NameAllocator) (reason : ValidationError) :
    validateBatch configs existing names = .error reason ↔
      BatchFault existing configs reason := by
  unfold validateBatch
  cases judged : validateEach 0 configs with
  | error fault =>
      have violated := (validate_each_error_iff configs 0 fault).mp judged
      obtain ⟨index, config, worst, first, entry, head, rfl⟩ := violated
      constructor
      · intro same
        cases same
        rw [Nat.zero_add]
        exact .violation first entry head
      · intro faulty
        cases faulty with
        | violation again found other =>
            have reported := (validate_each_error_iff configs 0 _).mpr
              ⟨_, _, _, again, found, other, rfl⟩
            rw [Nat.zero_add] at reported
            cases judged.symm.trans reported
            rfl
        | clash nodes =>
            cases judged.symm.trans ((validate_each_ok_iff configs 0).mpr nodes)
  | ok =>
      have nodes := (validate_each_ok_iff configs 0).mp judged
      have reported := reserve_names_error_iff configs 0 existing reason
      constructor
      · intro refused
        have clash : reserveNames 0 configs existing = .error reason := by
          revert refused
          cases reserveNames 0 configs existing <;> simp
        obtain ⟨index, config, first, entry, rfl⟩ := reported.mp clash
        rw [Nat.zero_add]
        exact .clash nodes first entry
      · intro faulty
        cases faulty with
        | violation first entry worst =>
            have refused := (validate_each_error_iff configs 0 _).mpr
              ⟨_, _, _, first, entry, worst, rfl⟩
            cases judged.symm.trans refused
        | @clash index config _ first entry =>
            have clash := reported.mpr ⟨index, config, first, entry, by rw [Nat.zero_add]⟩
            rw [clash]

theorem resolved_beacons {configs resolved : List NodeConfig}
    (same : List.Forall₂ Resolves configs resolved) :
    (resolved = [] ↔ configs = []) ∧
      ((∃ node ∈ resolved, node.isBeacon = true) ↔ ∃ node ∈ configs, node.isBeacon = true) := by
  induction same with
  | nil => simp
  | cons first _ ih =>
      have beacon := congrArg NodeConfig.isBeacon first.1
      simp only at beacon
      simp [ih.2, beacon]

structure NetworkValid (existing : List String) (config : NetworkConfig) : Prop where
  pollInterval : 0 < config.health.pollIntervalMillis
  timeout : 0 < config.health.timeoutSecs
  batch : BatchValid existing config.nodes
  beacon : config.nodes = [] ∨ ∃ node ∈ config.nodes, node.isBeacon = true

/-- What is reported of a network, each fault only where none before it applies. -/
inductive NetworkFault (existing : List String) (config : NetworkConfig) :
    ValidationError → Prop where
  | pollInterval (zero : config.health.pollIntervalMillis = 0) :
    NetworkFault existing config (.healthConfig .noPollInterval)
  | timeout (interval : 0 < config.health.pollIntervalMillis)
      (zero : config.health.timeoutSecs = 0) :
    NetworkFault existing config (.healthConfig .noTimeout)
  | batch {reason : ValidationError} (interval : 0 < config.health.pollIntervalMillis)
      (timeout : 0 < config.health.timeoutSecs)
      (fault : BatchFault existing config.nodes reason) :
    NetworkFault existing config reason
  | beacon (interval : 0 < config.health.pollIntervalMillis)
      (timeout : 0 < config.health.timeoutSecs) (valid : BatchValid existing config.nodes)
      (nodes : config.nodes ≠ []) (none : ∀ node ∈ config.nodes, node.isBeacon = false) :
    NetworkFault existing config .noBeacon

theorem health_ok_iff (config : HealthConfig) :
    config.validate = .ok () ↔ 0 < config.pollIntervalMillis ∧ 0 < config.timeoutSecs := by
  unfold HealthConfig.validate
  by_cases interval : config.pollIntervalMillis = 0
  · simp [interval]
  · by_cases timeout : config.timeoutSecs = 0
    · simp [interval, timeout]
    · simp [interval, timeout, UInt64.pos_iff_ne_zero]

theorem health_error_iff (config : HealthConfig) (reason : HealthConfig.Error) :
    config.validate = .error reason ↔
      config.pollIntervalMillis = 0 ∧ reason = .noPollInterval ∨
        0 < config.pollIntervalMillis ∧ config.timeoutSecs = 0 ∧ reason = .noTimeout := by
  unfold HealthConfig.validate
  by_cases interval : config.pollIntervalMillis = 0
  · simp [interval, eq_comm]
  · by_cases timeout : config.timeoutSecs = 0
    · simp [interval, timeout, UInt64.pos_iff_ne_zero, eq_comm]
    · simp [interval, timeout, UInt64.pos_iff_ne_zero]

theorem unlit_iff {configs : List NodeConfig} {existing : List String}
    {names later : NameAllocator} {nodes : List NodeConfig}
    (accepted : validateBatch configs existing names = .ok (nodes, later)) :
    (!nodes.isEmpty && !nodes.any NodeConfig.isBeacon) = true ↔
      configs ≠ [] ∧ ∀ node ∈ configs, node.isBeacon = false := by
  obtain ⟨empty, beacon⟩ := resolved_beacons (validate_batch_ok accepted).1
  have dark : (nodes.any NodeConfig.isBeacon = false) ↔ ∀ node ∈ configs, node.isBeacon = false := by
    have flipped := not_congr beacon
    simpa using flipped
  rw [Bool.and_eq_true, Bool.not_eq_true', Bool.not_eq_true', dark, List.isEmpty_eq_false_iff,
    ne_eq, ne_eq, empty]

theorem validate_network_ok_iff (config : NetworkConfig) (existing : List String)
    (names : NameAllocator) :
    (∃ accepted, (validateNetwork config existing names).1 = .ok accepted) ↔
      NetworkValid existing config := by
  unfold validateNetwork
  constructor
  · rintro ⟨accepted, judged⟩
    split at judged
    · cases judged
    · rename_i health
      obtain ⟨interval, timeout⟩ := (health_ok_iff config.health).mp health
      split at judged
      · cases judged
      · rename_i nodes later batch
        have valid := (validate_batch_ok_iff config.nodes existing names).mp ⟨_, batch⟩
        split at judged
        · cases judged
        · rename_i lit
          rw [unlit_iff batch, not_and_or, not_not] at lit
          refine ⟨interval, timeout, valid, lit.imp id ?_⟩
          intro some
          simpa using some
  · intro valid
    have health := (health_ok_iff config.health).mpr ⟨valid.pollInterval, valid.timeout⟩
    obtain ⟨⟨nodes, later⟩, batch⟩ := (validate_batch_ok_iff _ existing names).mpr valid.batch
    have lit : ¬(!nodes.isEmpty && !nodes.any NodeConfig.isBeacon) = true := by
      rw [unlit_iff batch, not_and_or, not_not]
      apply valid.beacon.imp id
      intro some
      simpa using some
    simp only [health, batch, if_neg lit]
    exact ⟨_, rfl⟩

theorem validate_network_error_iff (config : NetworkConfig) (existing : List String)
    (names : NameAllocator) (reason : ValidationError) :
    (validateNetwork config existing names).1 = .error reason ↔
      NetworkFault existing config reason := by
  unfold validateNetwork
  cases health : config.health.validate with
  | error fault =>
      have told := (health_error_iff config.health fault).mp health
      constructor
      · intro same
        cases same
        rcases told with ⟨zero, rfl⟩ | ⟨interval, zero, rfl⟩
        · exact .pollInterval zero
        · exact .timeout interval zero
      · intro faulty
        cases faulty with
        | pollInterval zero =>
            rcases told with ⟨_, rfl⟩ | ⟨interval, _⟩
            · rfl
            · simp [zero] at interval
        | timeout interval zero =>
            rcases told with ⟨none, _⟩ | ⟨_, _, rfl⟩
            · simp [none] at interval
            · rfl
        | batch interval timeout | beacon interval timeout =>
            cases health.symm.trans ((health_ok_iff config.health).mpr ⟨interval, timeout⟩)
  | ok =>
      obtain ⟨interval, timeout⟩ := (health_ok_iff config.health).mp health
      cases batch : validateBatch config.nodes existing names with
      | error fault =>
          have told := (validate_batch_error_iff config.nodes existing names fault).mp batch
          constructor
          · intro same
            cases same
            exact .batch interval timeout told
          · intro faulty
            cases faulty with
            | pollInterval zero => simp [zero] at interval
            | timeout _ zero => simp [zero] at timeout
            | batch _ _ other =>
                have same := (validate_batch_error_iff _ existing names _).mpr other
                cases batch.symm.trans same
                rfl
            | beacon _ _ valid =>
                obtain ⟨result, accepted⟩ := (validate_batch_ok_iff _ existing names).mpr valid
                cases batch.symm.trans accepted
      | ok result =>
          obtain ⟨nodes, later⟩ := result
          have valid := (validate_batch_ok_iff config.nodes existing names).mp ⟨_, batch⟩
          have unlit := unlit_iff batch
          simp only
          constructor
          · intro refused
            split at refused
            · rename_i dark
              cases refused
              obtain ⟨some, none⟩ := unlit.mp dark
              exact .beacon interval timeout valid some none
            · cases refused
          · intro faulty
            cases faulty with
            | pollInterval zero => simp [zero] at interval
            | timeout _ zero => simp [zero] at timeout
            | batch _ _ other =>
                have refused := (validate_batch_error_iff _ existing names _).mpr other
                cases batch.symm.trans refused
            | beacon _ _ _ some none => rw [if_pos (unlit.mpr ⟨some, none⟩)]

theorem validate_added_node_ok_iff (config : NodeConfig) (existing : List String)
    (names : NameAllocator) :
    (∃ accepted, (validateAddedNode config existing names).1 = .ok accepted) ↔
      BatchValid existing [config] := by
  rw [← validate_batch_ok_iff [config] existing names]
  unfold validateAddedNode
  cases validateBatch [config] existing names <;> simp

theorem validate_added_node_error_iff (config : NodeConfig) (existing : List String)
    (names : NameAllocator) (reason : ValidationError) :
    (validateAddedNode config existing names).1 = .error reason ↔
      BatchFault existing [config] reason := by
  rw [← validate_batch_error_iff [config] existing names]
  unfold validateAddedNode
  cases validateBatch [config] existing names <;> simp

/-- A network is accepted exactly if its health checks can run, each of its nodes is sound by itself, no
explicit name is used twice, and there is a beacon unless there is no node. Otherwise the fault that
stands first is reported: of the health checks, then of the least unsound node its first violation, then
the least name that clashes, then the missing beacon. A node that joins is judged as a batch of one. A
node is sound by itself if nothing is wrong with it. -/
theorem validation_reports_first_fault (existing : List String) (names : NameAllocator) :
    (∀ config,
      ((∃ accepted, (validateNetwork config existing names).1 = .ok accepted) ↔
        NetworkValid existing config) ∧
      ∀ reason, (validateNetwork config existing names).1 = .error reason ↔
        NetworkFault existing config reason) ∧
    (∀ config,
      ((∃ accepted, (validateAddedNode config existing names).1 = .ok accepted) ↔
        BatchValid existing [config]) ∧
      ∀ reason, (validateAddedNode config existing names).1 = .error reason ↔
        BatchFault existing [config] reason) ∧
    ∀ config, validateNode config = .ok () ↔ config.violations = [] := by
  refine ⟨?_, ?_, validate_node_ok_iff⟩
  · intro config
    exact ⟨validate_network_ok_iff config existing names,
      validate_network_error_iff config existing names⟩
  · intro config
    exact ⟨validate_added_node_ok_iff config existing names,
      validate_added_node_error_iff config existing names⟩

end LocalNet
