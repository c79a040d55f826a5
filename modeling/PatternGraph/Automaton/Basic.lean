/-
This file defines the automaton as an arena: tree nodes and glue states side by side, each known by
its position. States are only ever added at the end, and the one thing that changes in a state
already there is the continuation of a tree node (and the group of a back-reference), so a handle
once given keeps its meaning.

The questions answered here read the arena without following any link but that from glue to its
owner. A glue state without a continuation of its own answers with that of its owner, and an unset
one is then reported of the owner, because the owner is what was left unlinked. A handle does not
say what it names, so the owner may be asked in turn to name its own, and owners may name each other
in a circle; `ask` follows them for as long as the arena has states and then gives up.
-/

import PatternGraph.Automaton.Fault
import PatternGraph.Automaton.State

namespace PatternGraph

/-- What a state says to a question: the answer, or its owner, who is to be asked instead. -/
inductive Reply (α : Type)
  | answer (answer : α)
  | owner (owner : StateId)

/-- Asks a state, and after it one owner after the other, but not more than `count` of them. There
is no result if the last one names yet another owner. -/
def follow {α : Type} (reply : StateId → Except Fault (Reply α)) :
    Nat → StateId → Option (Except Fault α)
  | 0, _ => none
  | count + 1, id =>
    match reply id with
    | .error fault => some (.error fault)
    | .ok (.answer answer) => some (.ok answer)
    | .ok (.owner owner) => follow reply count owner

namespace State

/-- What the state with the handle says about what follows it. Nothing follows the final state. -/
def continuationReply (id : StateId) : State → Except Fault (Reply (Option StateId))
  | .tree treeNode =>
    match treeNode.continuation with
    | some next => .ok (.answer (some next))
    | none => .error (.notLinked id)
  | .endOfRepetition _ next => .ok (.answer (some next))
  | .negation _ content | .startOfLookBehind _ content => .ok (.answer (some content))
  | .start root _ => .ok (.answer (some root))
  | .final _ => .ok (.answer none)
  | .branch owner _ | .endOfCapturingGroup owner | .endOfLookaround owner |
    .endOfConditional owner => .ok (.owner owner)

/-- What a state says about the flags in effect at it. The start and the final state have their own,
other glue has those of its owner. -/
def flagsReply : State → Reply FlagSet
  | .tree treeNode => .answer treeNode.flags
  | .start _ flags | .final flags => .answer flags
  | .branch owner _ | .endOfRepetition owner _ | .endOfCapturingGroup owner |
    .endOfLookaround owner | .negation owner _ | .startOfLookBehind owner _ |
    .endOfConditional owner => .owner owner

end State

/-- The states built from a pattern. -/
structure Automaton where
  source : Source
  states : Array State

namespace Automaton

/-- The automaton of a pattern of which nothing has been built yet. -/
def ofSource (source : Source) : Automaton := ⟨source, #[]⟩

def size (automaton : Automaton) : Nat := automaton.states.size

/-- The handles of all states, ascending. -/
def ids (automaton : Automaton) : List StateId := (List.range automaton.size).map StateId.mk

/-- The handle that the next added state will have. -/
def nextId (automaton : Automaton) : StateId := ⟨automaton.size⟩

/-- Adds a state at the end, where its handle is the former `nextId`. -/
def push (automaton : Automaton) (state : State) : Automaton :=
  { automaton with states := automaton.states.push state }

def state? (automaton : Automaton) (id : StateId) : Option State := automaton.states[id.index]?

def tree? (automaton : Automaton) (id : StateId) : Option TreeNode :=
  (automaton.state? id).bind State.tree?

/-- The state with a handle, which has to exist. -/
def state (automaton : Automaton) (id : StateId) : Except Fault State :=
  match automaton.state? id with
  | some state => .ok state
  | none => .error .noState

/-- The tree node with a handle, which has to name one. -/
def tree (automaton : Automaton) (id : StateId) : Except Fault TreeNode :=
  match automaton.tree? id with
  | some tree => .ok tree
  | none => .error (.notTree id)

/-- The text that a tree node was written as; there is none for glue. -/
def text (automaton : Automaton) (id : StateId) : String :=
  match automaton.tree? id with
  | some tree => automaton.source.textAt tree.range
  | none => ""

/-- The answer of a state, or of the owner that answers for it. All states are enough on the way to
it, and one handle that names none. -/
def ask {α : Type} (automaton : Automaton) (reply : StateId → Except Fault (Reply α))
    (id : StateId) : Except Fault α :=
  (follow reply (automaton.size + 1) id).getD (.error (.cyclic id))

/-- What the state with a handle says about what follows it, if there is one. -/
def continuationReply (automaton : Automaton) (id : StateId) :
    Except Fault (Reply (Option StateId)) :=
  match automaton.state? id with
  | some state => state.continuationReply id
  | none => .error (.notTree id)

/-- What follows a state. -/
def continuation (automaton : Automaton) (id : StateId) : Except Fault (Option StateId) :=
  automaton.ask automaton.continuationReply id

/-- How the automaton moves into a state. -/
def transition (automaton : Automaton) (id : StateId) : Except Fault Transition :=
  (automaton.state id).map State.transition

/-- The flags in effect at a state. -/
def flags (automaton : Automaton) (id : StateId) : Except Fault FlagSet :=
  automaton.ask (fun asked => (automaton.state asked).map State.flagsReply) id

/-- Whether a state is a tree node of a kind. -/
def isOfKind (automaton : Automaton) (kind : Kind) (id : StateId) : Except Fault Bool :=
  (automaton.state id).map fun state =>
    match state.tree? with
    | some tree => tree.node.kind == kind
    | none => false

/-- The boundary that a state asserts. -/
def boundary? (automaton : Automaton) (id : StateId) : Option Boundary :=
  match (automaton.tree? id).map TreeNode.node with
  | some (.leaf (.boundary boundary)) => some boundary
  | _ => none

end Automaton

end PatternGraph
