/-
This file links the tree nodes of an automaton, that is, it settles what follows each of them.

A link gives a node its continuation and brings about links for some of its children. The last item
of a sequence, every alternative of a disjunction and the element of a plain or atomic group are
followed by what follows their parent. The element of a repetition is followed by the end of the
repetition if it runs at most once, by the repetition itself if it may be skipped, and otherwise by
a branch between another round and the end. The condition of a conditional is followed by a branch
between its two patterns, the second being what follows the conditional if it has only one. The
other nodes have nothing inside that is still open, because their construction linked it already.

`linkAll` works through a list of links in order and does the links that one brings about before the
next one. A node can be linked once, so each step reduces the number of unlinked nodes by one; that
number is the measure by which the work ends on every automaton, even where nodes are their own
descendants. The first link whose node is no tree, or already linked, ends the work, and all that
was done before stays.
-/

import PatternGraph.Automaton.Outcome

namespace PatternGraph

/-- The request that `node` be followed by `next`. -/
structure Link where
  node : StateId
  next : StateId
  deriving DecidableEq

/-- What linking a node does beyond storing its continuation. -/
inductive LinkRule
  | store
  | forward
  | fanOut
  | repetition
  | conditional
  deriving DecidableEq

def LinkRule.name : LinkRule → String
  | store => "store"
  | forward => "forward"
  | fanOut => "fan-out"
  | repetition => "repetition"
  | conditional => "conditional"

def Node.linkRule : Node → LinkRule
  | .sequence (_ :: _) | .nonCapturingGroup (some _) .. | .atomicGroup _ => .forward
  | .disjunction .. => .fanOut
  | .repetition .. => .repetition
  | .conditional .. => .conditional
  | _ => .store

/-- The children that are followed by whatever follows the node. -/
def Node.heirs : Node → List StateId
  | .sequence items => items.getLast?.toList
  | .disjunction alternatives _ => alternatives
  | .nonCapturingGroup (some body) .. | .atomicGroup body => [body.element]
  | _ => []

/-- The same state with a continuation stored, if it is a tree node. -/
def State.followedBy (next : StateId) : State → State
  | .tree treeNode => .tree { treeNode with continuation := some next }
  | glue => glue

/-- Whether the state is a tree node that was not linked yet. -/
def State.isUnlinked : State → Bool
  | .tree treeNode => !treeNode.isLinked
  | _ => false

namespace Automaton

/-- Stores the continuation of a tree node. -/
def store (automaton : Automaton) (link : Link) : Automaton :=
  { automaton with
    states := automaton.states.modify link.node.index (State.followedBy link.next) }

/-- The tree node with a handle, which has to be one that was not linked yet. -/
def linkable (automaton : Automaton) (id : StateId) : Except Fault TreeNode :=
  match automaton.tree? id with
  | none => .error (.notTree id)
  | some treeNode => if treeNode.isLinked then .error (.alreadyLinked id) else .ok treeNode

/-- Links a single node: stores its continuation, adds the glue that its kind needs and gives the
links that this brings about for its children. -/
def linkNode (automaton : Automaton) (link : Link) (node : Node) : Automaton × List Link :=
  match node with
  | .repetition element quantifier =>
    let close := automaton.nextId
    let closed := (automaton.push (.endOfRepetition link.node link.next)).store ⟨link.node, close⟩
    if quantifier.maximum = some 1 then (closed, [⟨element, close⟩])
    else if 1 ≤ quantifier.minimum then
      let choices := if quantifier.isReluctant then [close, link.node] else [link.node, close]
      (closed.push (.branch link.node choices), [⟨element, closed.nextId⟩])
    else (closed, [⟨element, link.node⟩])
  | .conditional condition yes _ no =>
    let stored := automaton.store link
    (stored.push (.branch link.node [yes, no.getD link.next]), [⟨condition, stored.nextId⟩])
  | _ => (automaton.store link, node.heirs.map fun child => ⟨child, link.next⟩)

/-- The trace of a link. -/
def linkRecord (link : Link) (node : Node) : LogRecord where
  level := .trace
  message := "link " ++ link.node.render ++ " (" ++ node.typeName ++ ") -> " ++ link.next.render ++
    " [" ++ node.linkRule.name ++ "]"

/-- The number of tree nodes that were not linked yet. -/
def unlinkedCount (automaton : Automaton) : Nat := automaton.states.countP State.isUnlinked

/-! ### Each link reduces the number of unlinked nodes -/

theorem unlinkedCount_push_of_linked (automaton : Automaton) (state : State)
    (linked : state.isUnlinked = false) :
    (automaton.push state).unlinkedCount = automaton.unlinkedCount := by
  simp [unlinkedCount, push, linked]

theorem state?_eq_of_linkable {automaton : Automaton} {id : StateId} {treeNode : TreeNode}
    (linkable : automaton.linkable id = .ok treeNode) :
    automaton.state? id = some (.tree treeNode) ∧ treeNode.isLinked = false := by
  unfold Automaton.linkable at linkable
  split at linkable
  · cases linkable
  · rename_i found isTree
    split at linkable
    · cases linkable
    · rename_i unlinked
      cases linkable
      refine ⟨?_, by simpa using unlinked⟩
      unfold tree? at isTree
      cases stored : automaton.state? id with
      | none => simp [stored] at isTree
      | some state =>
        cases state <;> simp_all [State.tree?]

theorem unlinkedCount_store {automaton : Automaton} {id : StateId} {treeNode : TreeNode}
    (present : automaton.state? id = some (.tree treeNode)) (unlinked : treeNode.isLinked = false)
    (next : StateId) :
    (automaton.store ⟨id, next⟩).unlinkedCount + 1 = automaton.unlinkedCount := by
  obtain ⟨inBounds, stored⟩ := Array.getElem?_eq_some_iff.mp present
  have modified : automaton.states.modify id.index (State.followedBy next) =
      automaton.states.set id.index (State.followedBy next (.tree treeNode)) inBounds := by
    apply Array.ext_getElem?
    intro index
    rw [Array.getElem?_modify, Array.getElem?_set]
    split
    · rename_i same
      subst same
      rw [Array.getElem?_eq_getElem inBounds, stored]
      rfl
    · rfl
  have positive : 0 < automaton.states.countP State.isUnlinked :=
    Array.countP_pos_iff.mpr ⟨_, Array.getElem_mem inBounds, by
      simp [stored, State.isUnlinked, unlinked]⟩
  simp only [unlinkedCount, store, modified, Array.countP_set, stored]
  simp [State.isUnlinked, State.followedBy, TreeNode.isLinked] at unlinked ⊢
  simp [unlinked]
  omega

/-- Linking a node that can be linked leaves one unlinked node less: the glue it adds is no tree
node, and the continuation it stores is that of a node without one. -/
theorem unlinkedCount_linkNode {automaton : Automaton} {link : Link} {treeNode : TreeNode}
    (linkable : automaton.linkable link.node = .ok treeNode) (node : Node) :
    (automaton.linkNode link node).1.unlinkedCount + 1 = automaton.unlinkedCount := by
  obtain ⟨present, unlinked⟩ := state?_eq_of_linkable linkable
  have stays (state : State) :
      (automaton.push state).state? link.node = some (.tree treeNode) := by
    have inBounds := (Array.getElem?_eq_some_iff.mp present).1
    rw [state?, push, Array.getElem?_push, if_neg (Nat.ne_of_lt inBounds)]
    exact present
  unfold linkNode
  split
  · have close := unlinkedCount_store (stays (.endOfRepetition link.node link.next)) unlinked
      automaton.nextId
    rw [unlinkedCount_push_of_linked _ _ rfl] at close
    dsimp only
    split
    · exact close
    · split
      · rw [unlinkedCount_push_of_linked _ _ rfl]
        exact close
      · exact close
  · rw [unlinkedCount_push_of_linked _ _ rfl]
    exact unlinkedCount_store present unlinked link.next
  · exact unlinkedCount_store present unlinked link.next

/-- Does the given links in order, the ones that a link brings about directly after it. -/
def linkAll (automaton : Automaton) (links : List Link) : Outcome Unit :=
  match links with
  | [] => .success automaton ()
  | link :: pending =>
    match _linkable : automaton.linkable link.node with
    | .error fault => .failure automaton fault
    | .ok treeNode =>
      let linked := automaton.linkNode link treeNode.node
      (linkAll linked.1 (linked.2 ++ pending)).preceded (linkRecord link treeNode.node)
termination_by automaton.unlinkedCount
decreasing_by
  have smaller := unlinkedCount_linkNode _linkable treeNode.node
  omega

/-- Gives a tree node its continuation, and its descendants theirs. -/
def setContinuation (automaton : Automaton) (id next : StateId) : Outcome Unit :=
  automaton.linkAll [⟨id, next⟩]

end Automaton

end PatternGraph
