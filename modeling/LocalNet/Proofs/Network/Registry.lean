import LocalNet.Network.Manager
import LocalNet.Proofs.Tables
import LocalNet.Proofs.Validation.Batch

/-!
# What the locked sections of a registry do

A request is turned down for one reason, which is read off the registry alone. Where it is not turned
down, its locked section has exactly the effect stated here.
-/

namespace LocalNet

namespace Registry

/-- How the first locked section of a request turns the request down. -/
def refusal? (registry : Registry) (request : Request) : Option NetworkError :=
  if registry.stopped then some .stopped
  else
    match request with
    | .add config _ =>
      match (validateAddedNode config registry.taken registry.names).1 with
      | .error reason => some (.validation reason)
      | .ok _ => none
    | .remove name =>
      if (registry.find? name).isSome then none else some (.nodeNotFound name)
    | .get name =>
      if (registry.find? name).isSome then none else some (.nodeNotFound name)
    | _ => none

/-- What a request that only reads the registry comes to. -/
def answer? (registry : Registry) (call : CallId) : Request → Option Outcome
  | .get name => (registry.find? name).map .node
  | .names => some (.names (registry.nodes.map Prod.fst))
  | .healthy _ => some (.watching call)
  | _ => none

theorem refusal_of_stopped {registry : Registry} (stopped : registry.stopped = true)
    (request : Request) : registry.refusal? request = some .stopped := by
  simp [refusal?, stopped]

theorem opened_of_refusal_none {registry : Registry} {request : Request}
    (welcome : registry.refusal? request = none) : registry.stopped = false := by
  cases stopped : registry.stopped with
  | false => rfl
  | true => simp [refusal?, stopped] at welcome

theorem reserve_of_refusal {registry : Registry} {config : NodeConfig} {args : List String}
    {reason : NetworkError} (refusal : registry.refusal? (.add config args) = some reason) :
    registry.reserve config = (.error reason, registry) := by
  unfold refusal? at refusal
  unfold reserve
  split
  · rename_i stopped
    simpa [stopped] using refusal
  · rename_i opened
    rw [if_neg opened] at refusal
    cases judged : validateAddedNode config registry.taken registry.names with
    | mk verdict names =>
        cases verdict with
        | error fault =>
            have kept := validate_added_node_error judged
            subst kept
            have same : NetworkError.validation fault = reason := by simpa [judged] using refusal
            rw [← same]
        | ok resolved => simp [judged] at refusal

theorem reserve_of_judged {registry : Registry} {config resolved : NodeConfig}
    {names : NameAllocator} (opened : registry.stopped = false)
    (judged : validateAddedNode config registry.taken registry.names = (.ok resolved, names)) :
    registry.reserve config =
      (.ok resolved,
        { registry with names := names, pending := resolved.name :: registry.pending }) := by
  unfold reserve
  rw [if_neg (by simp [opened]), judged]

theorem take_of_refusal {registry : Registry} {name : String} {reason : NetworkError}
    (refusal : registry.refusal? (.remove name) = some reason) :
    registry.take name = (.error reason, registry) := by
  unfold refusal? at refusal
  unfold take
  split
  · rename_i stopped
    simpa [stopped] using refusal
  · rename_i opened
    rw [if_neg opened] at refusal
    cases found : registry.find? name with
    | none => simpa [found] using refusal
    | some node => simp [found] at refusal

theorem take_of_found {registry : Registry} {name : String} {node : Node}
    (opened : registry.stopped = false) (found : registry.find? name = some node) :
    registry.take name =
      (.ok node, { registry with nodes := registry.nodes.filter (·.1 ≠ name) }) := by
  unfold take
  rw [if_neg (by simp [opened]), found]

theorem get_of_refusal {registry : Registry} {name : String} {reason : NetworkError}
    (refusal : registry.refusal? (.get name) = some reason) :
    registry.get name = .error reason := by
  unfold refusal? at refusal
  unfold get
  split
  · rename_i stopped
    simpa [stopped] using refusal
  · rename_i opened
    rw [if_neg opened] at refusal
    cases found : registry.find? name with
    | none => simpa [found] using refusal
    | some node => simp [found] at refusal

theorem get_of_found {registry : Registry} {name : String} {node : Node}
    (opened : registry.stopped = false) (found : registry.find? name = some node) :
    registry.get name = .ok node := by
  unfold get
  rw [if_neg (by simp [opened]), found]

theorem commit_of_opened {registry : Registry} {name : String} {node : Node}
    (opened : registry.stopped = false) :
    registry.commit name (.ok node) =
      (.registered, (registry.giveBack name).insert name node) := by
  simp [commit, giveBack, opened]

theorem commit_of_stopped {registry : Registry} {name : String} {node : Node}
    (stopped : registry.stopped = true) :
    registry.commit name (.ok node) = (.tooLate, registry.giveBack name) := by
  simp [commit, giveBack, stopped]

theorem drain_of_opened {registry : Registry} (opened : registry.stopped = false) :
    registry.drain =
      (.ok (registry.nodes.map Prod.snd), { registry with nodes := [], stopped := true }) := by
  unfold drain
  rw [if_neg (by simp [opened])]

end Registry

end LocalNet
