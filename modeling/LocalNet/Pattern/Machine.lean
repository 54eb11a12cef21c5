import LocalNet.Pattern.Expression

/-!
A machine for a regular expression. It looks for the expression from every place of a text, and
stands in several nodes at once, in the order of preference. Once it has found the expression it
follows only what it would have preferred to that, and begins nowhere anew. A text is accepted if
the machine has just found the expression when the text is over.
-/

namespace LocalNet.Pattern

inductive Node where
  | takes (set : CharSet) (next : Nat)
  | asks (what : Look) (next : Nat)
  | forks (first second : Nat)
  | found
  deriving DecidableEq, Repr

structure Machine where
  nodes : Array Node
  start : Nat
  deriving Repr

namespace Machine

def fork (greedy : Bool) (onward past : Nat) : Node :=
  if greedy then .forks onward past else .forks past onward

/-- Adds the nodes of an expression in front of the node `next`; gives the node to begin at. A loop
whose body may take nothing is left as soon as a turn of it has taken nothing. -/
def build : Expression → (next : Nat) → Array Node → Nat × Array Node
  | .empty, next, nodes => (next, nodes)
  | .one set, next, nodes => (nodes.size, nodes.push (.takes set next))
  | .look what, next, nodes => (nodes.size, nodes.push (.asks what next))
  | .seq first second, next, nodes =>
    let (middle, nodes) := build second next nodes
    build first middle nodes
  | .either first second, next, nodes =>
    let (left, nodes) := build first next nodes
    let (right, nodes) := build second next nodes
    (nodes.size, nodes.push (.forks left right))
  | .optional greedy body, next, nodes =>
    let (entry, nodes) := build body next nodes
    (nodes.size, nodes.push (fork greedy entry next))
  | .star greedy body, next, nodes =>
    let turn := nodes.size
    let (entry, nodes) := build body turn (nodes.push .found)
    let nodes := nodes.setIfInBounds turn (fork greedy entry next)
    if body.consumes then (turn, nodes)
    else (nodes.size, nodes.push (fork greedy entry next))
  | .plus greedy body, next, nodes =>
    let turn := nodes.size
    let (entry, nodes) := build body turn (nodes.push .found)
    (entry, nodes.setIfInBounds turn (fork greedy entry next))

/-- Before the expression, any number of characters may pass, the fewer the better. -/
def ofExpression (expression : Expression) : Machine :=
  let anything : Expression := .star false (.one (.complement .none))
  let (entry, nodes) := build expression 0 #[.found]
  let (start, nodes) := build anything entry nodes
  { nodes := nodes, start := start }

/-- The nodes that can be come to without taking a character, in the order of preference, the last
of them first; `fuel` bounds the number of nodes looked at. -/
def spread (nodes : Array Node) (place : Place) :
    (fuel : Nat) → (waiting seen : List Nat) → List Nat
  | 0, _, seen => seen
  | _, [], seen => seen
  | fuel + 1, id :: waiting, seen =>
    if seen.contains id then spread nodes place fuel waiting seen
    else
      match nodes[id]? with
      | some (.asks what next) =>
        spread nodes place fuel (if what.holds place then next :: waiting else waiting) (id :: seen)
      | some (.forks first second) =>
        spread nodes place fuel (first :: second :: waiting) (id :: seen)
      | _ => spread nodes place fuel waiting (id :: seen)

/-- The nodes the machine stands in. Every node is looked into once, and leads to two at most. -/
def standing (machine : Machine) (place : Place) (threads : List Nat) : List Node :=
  let fuel := 2 * machine.nodes.size + threads.length + 1
  (spread machine.nodes place fuel threads []).reverse.filterMap fun id => machine.nodes[id]?

def afterTaking (char : Char) : Node → Option Nat
  | .takes set next => if set.has char.toNat then some next else none
  | _ => none

def run (machine : Machine) (threads : List Nat) (before : Option Char) : List Char → Bool
  | [] => (machine.standing ⟨before, none⟩ threads).contains .found
  | char :: rest =>
    let live := (machine.standing ⟨before, some char⟩ threads).takeWhile (· ≠ .found)
    machine.run (live.filterMap (afterTaking char)) (some char) rest

def accepts (machine : Machine) (text : List Char) : Bool :=
  machine.run [machine.start] none text

end Machine

def Expression.endsIn (expression : Expression) (text : List Char) : Bool :=
  (Machine.ofExpression expression).accepts text

end LocalNet.Pattern
