import LocalNet.Proofs.Validation.Batch

/-!
# How a single node is judged

A node that joins is judged by itself first. Its own name must be free, a blank one is filled in, and of
the names that are taken nothing else matters.
-/

namespace LocalNet

variable {config resolved : NodeConfig} {existing others : List String}
variable {names later : NameAllocator}

theorem validate_added_node_eq (config : NodeConfig) (existing : List String)
    (names : NameAllocator) :
    validateAddedNode config existing names =
      match validateNode config with
      | .error reason => (.error (.node 0 reason), names)
      | .ok () =>
        if config.name = "" then
          (.ok { config with name := (names.nextName existing).1 }, (names.nextName existing).2)
        else if config.name ∈ existing then
          (.error (.node 0 (.duplicateName config.name)), names)
        else (.ok config, names) := by
  unfold validateAddedNode validateBatch
  simp only [validateEach]
  cases validateNode config with
  | error reason => rfl
  | ok =>
      by_cases blank : config.name = ""
      · simp [reserveNames, resolveNames, blank]
      · by_cases taken : config.name ∈ existing <;>
          simp [reserveNames, resolveNames, blank, taken]

theorem validate_node_no_clash (config : NodeConfig) (name : String) :
    validateNode config ≠ .error (.duplicateName name) := by
  intro clash
  unfold validateNode validateStaking at clash
  repeat' split at clash
  all_goals cases clash

theorem taken_of_clash {index : Nat} {name : String}
    (clash : (validateAddedNode config existing names).1 =
      .error (.node index (.duplicateName name))) : config.name ∈ existing := by
  rw [validate_added_node_eq] at clash
  cases judged : validateNode config with
  | error reason =>
      simp only [judged, Except.error.injEq, ValidationError.node.injEq] at clash
      exact absurd (clash.2 ▸ judged) (validate_node_no_clash config name)
  | ok =>
      simp only [judged] at clash
      split at clash
      · cases clash
      · split at clash
        · assumption
        · cases clash

/-- Other names than its own do not turn a node down. -/
theorem validate_added_node_error_congr (same : config.name ∈ existing ↔ config.name ∈ others)
    (reason : ValidationError) :
    (validateAddedNode config existing names).1 = .error reason ↔
      (validateAddedNode config others later).1 = .error reason := by
  rw [validate_added_node_eq, validate_added_node_eq]
  cases validateNode config with
  | error fault => rfl
  | ok =>
      simp only [same]
      by_cases blank : config.name = ""
      · simp [blank]
      · by_cases taken : config.name ∈ others <;> simp [blank, taken]

theorem validate_added_node_names
    (judged : validateAddedNode config existing names = (.ok resolved, later)) :
    later = names ∨ config.name = "" ∧ ∃ suffix, names.nextSuffix ≤ suffix ∧
      resolved.name = NameAllocator.nameOf suffix ∧ later = ⟨suffix + 1⟩ := by
  rw [validate_added_node_eq] at judged
  cases own : validateNode config with
  | error reason => simp [own] at judged
  | ok =>
      simp only [own] at judged
      split at judged
      · rename_i blank
        cases judged
        exact .inr ⟨blank, _, NameAllocator.le_free_suffix _ _ _, rfl, rfl⟩
      · split at judged
        · simp at judged
        · cases judged
          exact .inl rfl

end LocalNet
