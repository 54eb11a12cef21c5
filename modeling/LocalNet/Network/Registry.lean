import LocalNet.Network.Node

/-!
The registry of a network: its nodes, the names of nodes that are still starting, and whether it was
stopped. Each operation here is one locked section, so it takes effect at once.
-/

namespace LocalNet

structure Registry where
  nodes : List (String × Node) := []
  /-- Names reserved by nodes whose process is still starting. -/
  pending : List String := []
  stopped : Bool := false
  names : NameAllocator := {}
  deriving DecidableEq, Repr

namespace Registry

def taken (registry : Registry) : List String :=
  registry.nodes.map Prod.fst ++ registry.pending

def insert (registry : Registry) (name : String) (node : Node) : Registry :=
  { registry with nodes := registry.nodes.filter (·.1 ≠ name) ++ [(name, node)] }

def find? (registry : Registry) (name : String) : Option Node :=
  registry.nodes.lookup name

/-- Judges a node against the ones there are, and reserves its name. -/
def reserve (registry : Registry) (config : NodeConfig) :
    Except NetworkError NodeConfig × Registry :=
  if registry.stopped then (.error .stopped, registry)
  else
    match validateAddedNode config registry.taken registry.names with
    | (.error reason, names) => (.error (.validation reason), { registry with names := names })
    | (.ok resolved, names) =>
      (.ok resolved, { registry with names := names, pending := resolved.name :: registry.pending })

def giveBack (registry : Registry) (name : String) : Registry :=
  { registry with pending := registry.pending.erase name }

/-- What becomes of a launch once its node is up or has failed. -/
inductive Commit where
  | registered
  | failed (reason : NetworkError)
  /-- The network was stopped meanwhile, and the node has to go too. -/
  | tooLate
  deriving DecidableEq, Repr

/-- Ends a reservation: the node enters the registry if the network still runs. -/
def commit (registry : Registry) (name : String) (launched : Except NetworkError Node) :
    Commit × Registry :=
  let freed := registry.giveBack name
  match launched with
  | .error reason => (.failed reason, freed)
  | .ok node =>
    if freed.stopped then (.tooLate, freed) else (.registered, freed.insert name node)

def take (registry : Registry) (name : String) : Except NetworkError Node × Registry :=
  if registry.stopped then (.error .stopped, registry)
  else
    match registry.find? name with
    | none => (.error (.nodeNotFound name), registry)
    | some node =>
      (.ok node, { registry with nodes := registry.nodes.filter (·.1 ≠ name) })

def get (registry : Registry) (name : String) : Except NetworkError Node :=
  if registry.stopped then .error .stopped
  else
    match registry.find? name with
    | none => .error (.nodeNotFound name)
    | some node => .ok node

def nodeNames (registry : Registry) : Except NetworkError (List String) :=
  if registry.stopped then .error .stopped else .ok (registry.nodes.map Prod.fst)

def snapshot (registry : Registry) : Except NetworkError (List Node) :=
  if registry.stopped then .error .stopped else .ok (registry.nodes.map Prod.snd)

/-- The nodes have no order of their own: whoever goes through them may find them in another one. -/
def shuffle? (registry : Registry) (nodes : List (String × Node)) : Option Registry :=
  if nodes.isPerm registry.nodes then some { registry with nodes := nodes } else none

/-- Hands all nodes over to whoever stops the network, which stays stopped. -/
def drain (registry : Registry) : Except NetworkError (List Node) × Registry :=
  if registry.stopped then (.error .stopped, registry)
  else (.ok (registry.nodes.map Prod.snd), { registry with nodes := [], stopped := true })

end Registry

end LocalNet
