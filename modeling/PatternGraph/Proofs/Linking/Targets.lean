/-
This file says where a node and its glue lead to. All of it can be said without handles: every state
that follows a child, and every continuation and successor of the node or of its glue, is what
follows the node, the node itself, the child at some position, or glue of some kind. Which of them
it is depends on the payload of the node and on the number of its children only.

A `Target` is such a way of naming a state, and `Names` says which state a node means by it. For
each question there is a target or a list of them, and one lemma that says that the graph answers
with just the states that these name, in their order. The order matters for the branch of a
repetition. The branch is told by its kind and its owner, so the inventory is needed to see that it
is the one that linking the repetition has added.
-/

import PatternGraph.Proofs.Linking.Inventory
import PatternGraph.Proofs.Moves

namespace PatternGraph

/-- The ways in which a parent can name a state. -/
inductive Target
  | next
  | parent
  | child (index : Nat)
  | glue (kind : GlueKind)

namespace Node

/-- What the child at a position is followed by, where the parent has as many children as given. -/
def afterChild (node : Node) (count index : Nat) : Target :=
  match node with
  | .sequence _ => if index + 1 < count then .child (index + 1) else .next
  | .capturingGroup .. => .glue .endOfCapturingGroup
  | .lookAround .. => .glue .endOfLookaround
  | .repetition _ quantifier =>
    if quantifier.maximum = some 1 then .glue .endOfRepetition
    else if 1 ≤ quantifier.minimum then .glue .branch
    else .parent
  | .conditional .. => if index = 0 then .glue .branch else .glue .endOfConditional
  | _ => .next

/-- What the node stores as its continuation. -/
def afterSelf : Node → Target
  | .repetition .. => .glue .endOfRepetition
  | _ => .next

/-- What glue of the node continues to. -/
def afterGlue (node : Node) : GlueKind → Target
  | .endOfRepetition => .next
  | .negation => .child 0
  | .startOfLookBehind =>
    match node with
    | .lookAround _ polarity _ _ => if polarity = .negative then .glue .negation else .child 0
    | _ => .child 0
  | _ => node.afterSelf

/-- The way into the element of a lookaround. -/
def entered : Polarity → Direction → Target
  | .positive, .ahead => .child 0
  | .negative, .ahead => .glue .negation
  | _, .behind => .glue .startOfLookBehind

/-- The successors of the node. -/
def offers (node : Node) (count : Nat) : List Target :=
  match node with
  | .sequence _ | .nonCapturingGroup .. => if 0 < count then [.child 0] else [.next]
  | .disjunction .. => (List.range count).map .child
  | .capturingGroup .. | .atomicGroup _ => [.child 0]
  | .lookAround _ polarity direction _ => [entered polarity direction, .next]
  | .repetition _ quantifier =>
    if 0 < quantifier.minimum then [.child 0]
    else if quantifier.maximum = some 0 then [.glue .endOfRepetition]
    else if quantifier.isReluctant then [.glue .endOfRepetition, .child 0]
    else [.child 0, .glue .endOfRepetition]
  | .leaf _ | .conditional .. => [.next]

/-- The successors of glue of the node. A branch has its choices, other glue its continuation. -/
def glueOffers (node : Node) (count : Nat) : GlueKind → List Target
  | .branch =>
    match node with
    | .repetition _ quantifier =>
      if quantifier.isReluctant then [.glue .endOfRepetition, .parent]
      else [.parent, .glue .endOfRepetition]
    | _ => [.child 1, if 2 < count then .child 2 else .next]
  | kind => [node.afterGlue kind]

end Node

namespace Automaton

/-- The state that a parent, of which it is known what follows it, means by a target. -/
def Names (automaton : Automaton) (id next : StateId) (treeNode : TreeNode) :
    Target → StateId → Prop
  | .next, state => state = next
  | .parent, state => state = id
  | .child index, state => treeNode.node.children[index]? = some state
  | .glue kind, state => automaton.Lists kind (some id) state

section

variable {automaton : Automaton} {id next : StateId} {treeNode : TreeNode}

/-! ### What follows a child -/

/-- The items of a sequence are followed by the next item, and the last by what follows the
sequence. -/
theorem names_item {items : List StateId} (content : treeNode.node = .sequence items)
    (chained : ∀ link ∈ Link.chain items, automaton.FollowedBy link.node link.next)
    (ended : ∀ last ∈ items.getLast?, automaton.FollowedBy last next) {index : Nat}
    {child after : StateId} (member : items[index]? = some child)
    (followed : automaton.FollowedBy child after) :
    automaton.Names id next treeNode (treeNode.node.afterChild items.length index) after := by
  obtain ⟨inBounds, rfl⟩ := List.getElem?_eq_some_iff.mp member
  rw [content, Node.afterChild]
  by_cases more : index + 1 < items.length
  · rw [if_pos more]
    show treeNode.node.children[index + 1]? = some after
    have inChain : Link.mk items[index] items[index + 1] ∈ Link.chain items := by
      refine List.mem_of_getElem? (i := index) ?_
      simp [Link.chain, List.getElem?_zipWith, List.getElem?_eq_getElem inBounds,
        List.getElem?_eq_getElem more]
    rw [followed.unique (chained _ inChain), content]
    exact List.getElem?_eq_getElem more
  · rw [if_neg more]
    have isLast : items.getLast? = some items[index] := by
      have here : items.length - 1 = index := by omega
      rw [List.getLast?_eq_getElem?, here, List.getElem?_eq_getElem inBounds]
    exact followed.unique (ended _ isLast)

/-- A child is followed by the state that its parent names for it. -/
theorem Jointed.names_child (jointed : automaton.Jointed [])
    (isTree : automaton.tree? id = some treeNode)
    (continues : automaton.Continues id treeNode next) {index : Nat} {child after : StateId}
    (member : treeNode.node.children[index]? = some child)
    (followed : automaton.FollowedBy child after) :
    automaton.Names id next treeNode
      (treeNode.node.afterChild treeNode.node.children.length index) after := by
  have sealedJoints := (jointed.sealedAt isTree).mono (.refl _) Promised.followedBy
  have openJoints := (jointed.openAt isTree continues).mono (.refl _) Promised.followedBy
  cases content : treeNode.node with
  | leaf leaf =>
    rw [content] at member
    cases member
  | sequence items =>
    rw [content] at sealedJoints member
    rw [OpenJoints, content] at openJoints
    have named : automaton.Names id next treeNode (treeNode.node.afterChild items.length index)
        after := names_item content sealedJoints openJoints member followed
    rwa [content] at named
  | disjunction alternatives bars =>
    rw [content] at member
    rw [OpenJoints, content] at openJoints
    exact followed.unique (openJoints child (List.mem_of_getElem? member))
  | capturingGroup body name number =>
    rw [content] at sealedJoints member
    obtain rfl := List.mem_singleton.mp (List.mem_of_getElem? member)
    obtain ⟨close, followedToo, held⟩ := sealedJoints
    rw [followed.unique followedToo]
    exact ⟨_, held, rfl⟩
  | nonCapturingGroup body enabled disabled =>
    rw [content] at member
    rw [OpenJoints, content] at openJoints
    obtain ⟨inner, inBody, rfl⟩ :=
      Option.mem_map.mp (Option.mem_toList.mp (List.mem_of_getElem? member))
    exact followed.unique (openJoints inner inBody)
  | atomicGroup body =>
    rw [content] at member
    rw [OpenJoints, content] at openJoints
    obtain rfl := List.mem_singleton.mp (List.mem_of_getElem? member)
    exact followed.unique openJoints
  | lookAround body polarity direction entry =>
    rw [content] at sealedJoints member
    obtain rfl := List.mem_singleton.mp (List.mem_of_getElem? member)
    obtain ⟨close, followedToo, held⟩ := sealedJoints
    rw [followed.unique followedToo]
    exact ⟨_, held, rfl⟩
  | repetition element quantifier =>
    rw [content] at member
    rw [OpenJoints, content] at openJoints
    obtain rfl := List.mem_singleton.mp (List.mem_of_getElem? member)
    obtain ⟨close, -, held, joint⟩ := openJoints
    unfold RepetitionJoint at joint
    dsimp only [Node.afterChild]
    split at joint
    · rw [if_pos ‹_›, followed.unique joint]
      exact ⟨_, held, rfl⟩
    · rw [if_neg ‹_›]
      split at joint
      · obtain ⟨branch, followedToo, branchHeld⟩ := joint
        rw [if_pos ‹_›, followed.unique followedToo]
        exact ⟨_, branchHeld, rfl⟩
      · rw [if_neg ‹_›]
        exact followed.unique joint
  | conditional condition yes bar no =>
    rw [content] at sealedJoints member
    rw [OpenJoints, content] at openJoints
    obtain ⟨close, yesFollowed, noFollowed, held⟩ := sealedJoints
    obtain ⟨branch, followedToo, branchHeld⟩ := openJoints
    dsimp only [Node.afterChild]
    rcases index with _ | _ | index
    · cases member
      rw [if_pos rfl, followed.unique followedToo]
      exact ⟨_, branchHeld, rfl⟩
    · cases member
      rw [if_neg (by omega), followed.unique yesFollowed]
      exact ⟨_, held, rfl⟩
    · have isNo : child ∈ no := Option.mem_toList.mp (List.mem_of_getElem? member)
      rw [if_neg (by omega), followed.unique (noFollowed child isNo)]
      exact ⟨_, held, rfl⟩

/-! ### Where a node leads to -/

/-- The continuation that a node stores is what follows it, or the end of a repetition. -/
theorem Continues.stored (continues : automaton.Continues id treeNode next) {stored : StateId}
    (held : treeNode.continuation = some stored) :
    automaton.Names id next treeNode treeNode.node.afterSelf stored := by
  unfold Continues at continues
  cases content : treeNode.node with
  | repetition element quantifier =>
    simp only [content] at continues
    obtain ⟨close, heldToo, closeHeld⟩ := continues
    cases held.symm.trans heldToo
    exact ⟨_, closeHeld, rfl⟩
  | _ =>
    simp only [content] at continues
    exact Option.some.inj (held.symm.trans continues)

/-- The children are named by their positions. -/
theorem names_children :
    List.Forall₂ (automaton.Names id next treeNode)
      ((List.range treeNode.node.children.length).map .child) treeNode.node.children := by
  refine List.forall₂_map_left_iff.mpr (List.forall₂_iff_get.mpr ⟨by simp, ?_⟩)
  intro index inRange inBounds
  have here : (List.range treeNode.node.children.length).get ⟨index, inRange⟩ = index := by simp
  rw [here]
  exact List.getElem?_eq_getElem inBounds

/-- A lookaround is entered as its node says. -/
theorem names_entry {body : GroupBody} {polarity : Polarity} {direction : Direction}
    {entry : StateId} (content : treeNode.node = .lookAround body polarity direction entry)
    (entered : automaton.EntersElement id entry body.element polarity direction) :
    automaton.Names id next treeNode (Node.entered polarity direction) entry := by
  cases direction with
  | ahead =>
    cases polarity with
    | positive =>
      show treeNode.node.children[0]? = some entry
      rw [content, show entry = body.element from entered]
      rfl
    | negative => exact ⟨_, entered, rfl⟩
  | behind =>
    cases polarity with
    | positive => exact ⟨_, entered, rfl⟩
    | negative =>
      obtain ⟨inner, held, -⟩ := entered
      exact ⟨_, held, rfl⟩

/-- What a state leads to in terms of the node that it is or belongs to: its continuation, and its
successors in their order. -/
structure Directs (automaton : Automaton) (id next : StateId) (treeNode : TreeNode)
    (state : StateId) (after : Target) (offers : List Target) : Prop where
  continuation : ∃ named, automaton.continuation state = .ok (some named) ∧
    automaton.Names id next treeNode after named
  successors : ∃ nexts, automaton.successors state = .ok nexts ∧
    List.Forall₂ (automaton.Names id next treeNode) offers nexts

/-- A linked node leads to where its payload says. -/
theorem directs_node (isTree : automaton.tree? id = some treeNode)
    (continues : automaton.Continues id treeNode next)
    (entered : automaton.Entered id treeNode.node) :
    automaton.Directs id next treeNode id treeNode.node.afterSelf
      (treeNode.node.offers treeNode.node.children.length) := by
  obtain ⟨stored, held⟩ := Option.isSome_iff_exists.mp continues.isLinked
  have names := continues.stored held
  refine ⟨⟨stored, continuation_of_stored isTree held, names⟩, ?_⟩
  rw [successors_of_tree? isTree]
  have exits : treeNode.exit = .ok stored := by rw [TreeNode.exit, held]
  have named : List.Forall₂ (automaton.Names id next treeNode) _ treeNode.node.children :=
    names_children
  rw [TreeNode.successors]
  cases content : treeNode.node with
  | leaf leaf =>
    rw [content] at names
    exact ⟨[stored], by rw [exits]; rfl, .cons names .nil⟩
  | sequence items =>
    rw [content] at names named
    cases items with
    | nil => exact ⟨[stored], by rw [exits]; rfl, .cons names .nil⟩
    | cons first rest =>
      have inner : automaton.Names id next treeNode (.child 0) first := by rw [Names, content]; rfl
      exact ⟨[first], rfl, .cons inner .nil⟩
  | disjunction alternatives bars =>
    rw [content] at named
    exact ⟨alternatives, rfl, named⟩
  | capturingGroup body name number =>
    rw [content] at named
    exact ⟨[body.element], rfl, named⟩
  | nonCapturingGroup body enabled disabled =>
    rw [content] at names named
    cases body with
    | none => exact ⟨[stored], by rw [exits]; rfl, .cons names .nil⟩
    | some body => exact ⟨[body.element], rfl, named⟩
  | atomicGroup body =>
    rw [content] at named
    exact ⟨[body.element], rfl, named⟩
  | lookAround body polarity direction entry =>
    rw [content] at names entered
    exact ⟨[entry, stored], by rw [exits]; rfl,
      .cons (names_entry content entered) (.cons names .nil)⟩
  | repetition element quantifier =>
    rw [content] at names
    have inner : automaton.Names id next treeNode (.child 0) element := by rw [Names, content]; rfl
    dsimp only [Node.offers]
    rw [exits]
    by_cases required : 0 < quantifier.minimum
    · rw [if_pos required, if_pos required]
      exact ⟨[element], rfl, .cons inner .nil⟩
    · rw [if_neg required, if_neg required]
      refine ⟨_, rfl, ?_⟩
      split_ifs
      · exact .cons names .nil
      · exact .cons names (.cons inner .nil)
      · exact .cons inner (.cons names .nil)
  | conditional condition yes bar no =>
    rw [content] at names
    exact ⟨[stored], by rw [exits]; rfl, .cons names .nil⟩

/-! ### Where glue leads to -/

/-- The branch of a node chooses between the states that the node says. -/
theorem names_choices {unowned : List GlueKind} (stocked : automaton.Stocked unowned)
    (once : unowned.Nodup) (owned : automaton.GlueOwned) (jointed : automaton.Jointed [])
    (isTree : automaton.tree? id = some treeNode)
    (continues : automaton.Continues id treeNode next) {glueId : StateId}
    {choices : List StateId} (found : automaton.state? glueId = some (.branch id choices)) :
    List.Forall₂ (automaton.Names id next treeNode)
      (treeNode.node.glueOffers treeNode.node.children.length .branch) choices := by
  have lists : automaton.Lists .branch (some id) glueId := ⟨_, found, rfl⟩
  obtain ⟨same, isTreeToo, stored, held, chooses⟩ := owned found id rfl
  cases isTree.symm.trans isTreeToo
  have names := continues.stored held
  cases content : treeNode.node with
  | repetition element quantifier =>
    rw [content] at names
    -- Joining its owner leaves the order of the choices open. But a branch is in stock only if the
    -- element may run more than once and has to run, and then the element is followed by it.
    have isDue := stocked.mem_glue.mp (mem_glue.mpr ⟨glueId, lists⟩)
    have looping : 1 ≤ quantifier.minimum ∧ quantifier.maximum ≠ some 1 := by
      rw [due, isTree, Option.map_some, Option.getD_some, TreeNode.glue, content,
        if_pos continues.isLinked] at isDue
      simpa [Node.builtGlue, Node.linkedGlue] using isDue
    have joints := (jointed.openAt isTree continues).mono (.refl _) Promised.followedBy
    rw [OpenJoints, content] at joints
    obtain ⟨close, heldToo, -, joint⟩ := joints
    cases held.symm.trans heldToo
    rw [RepetitionJoint, if_neg looping.2, if_pos looping.1] at joint
    obtain ⟨branch, -, branchHeld⟩ := joint
    obtain rfl := stocked.unique once lists ⟨_, branchHeld, rfl⟩
    cases found.symm.trans branchHeld
    dsimp only [Node.glueOffers]
    split_ifs
    · exact .cons names (.cons rfl .nil)
    · exact .cons rfl (.cons names .nil)
  | conditional condition yes bar no =>
    rw [content] at names chooses
    obtain rfl : choices = [yes, no.getD stored] := chooses
    have afterYes : automaton.Names id next treeNode (.child 1) yes := by rw [Names, content]; rfl
    refine .cons afterYes (.cons ?_ .nil)
    cases no with
    | none => exact names
    | some no =>
      show treeNode.node.children[2]? = some no
      rw [content]
      rfl
  | _ =>
    rw [content] at chooses
    exact chooses.elim

/-- Glue of a linked node continues to the state that the node says: some glue has been built with
it, and the rest borrows the continuation of the node. -/
theorem names_afterGlue (owned : automaton.GlueOwned) (jointed : automaton.Jointed [])
    (isTree : automaton.tree? id = some treeNode)
    (continues : automaton.Continues id treeNode next) {kind : GlueKind} {glueId : StateId}
    (listed : automaton.Lists kind (some id) glueId) :
    ∃ named, automaton.continuation glueId = .ok (some named) ∧
      automaton.Names id next treeNode (treeNode.node.afterGlue kind) named := by
  obtain ⟨stored, held⟩ := Option.isSome_iff_exists.mp continues.isLinked
  have names := continues.stored held
  obtain ⟨state, found, isKind, ownedBy⟩ := listed.exists_state
  obtain ⟨same, isTreeToo, joins⟩ := owned found id ownedBy
  cases isTree.symm.trans isTreeToo
  have borrowed (borrows : state.borrowsContinuation) :
      automaton.continuation glueId = .ok (some stored) :=
    (continuation_of_borrows found ownedBy borrows isTree).trans
      (continuation_of_stored isTree held)
  cases state with
  | tree treeNode | start root flags | final flags => cases ownedBy
  | branch owner choices =>
    cases isKind
    exact ⟨stored, borrowed rfl, names⟩
  | endOfCapturingGroup owner | endOfLookaround owner | endOfConditional owner =>
    cases isKind
    exact ⟨stored, borrowed rfl, names⟩
  | endOfRepetition owner after =>
    cases isKind
    cases ownedBy
    obtain ⟨closes, isRepetition⟩ := joins
    cases held.symm.trans closes
    refine ⟨after, continuation_of_own found rfl, ?_⟩
    unfold Continues at continues
    cases content : treeNode.node with
    | repetition element quantifier =>
      simp only [content] at continues
      obtain ⟨close, heldToo, closeHeld⟩ := continues
      cases held.symm.trans heldToo
      cases found.symm.trans closeHeld
      rfl
    | leaf leaf =>
      rw [content] at isRepetition
      cases leaf <;> cases isRepetition
    | _ =>
      rw [content] at isRepetition
      cases isRepetition
  | negation owner inner =>
    cases isKind
    cases ownedBy
    obtain ⟨body, direction, entry, content, rfl⟩ := joins
    refine ⟨body.element, continuation_of_own found rfl, ?_⟩
    show treeNode.node.children[0]? = some body.element
    rw [content]
    rfl
  | startOfLookBehind owner inner =>
    cases isKind
    cases ownedBy
    obtain ⟨body, polarity, content⟩ := joins
    refine ⟨inner, continuation_of_own found rfl, ?_⟩
    have entered := jointed.enteredAt isTree
    rw [content] at entered
    cases polarity with
    | positive =>
      cases found.symm.trans entered
      rw [content]
      show treeNode.node.children[0]? = some body.element
      rw [content]
      rfl
    | negative =>
      obtain ⟨negation, held, inside⟩ := entered
      cases found.symm.trans held
      rw [content]
      exact ⟨_, inside, rfl⟩

/-- The glue of a linked node leads to where the payload of the node says. -/
theorem directs_glue {unowned : List GlueKind} (stocked : automaton.Stocked unowned)
    (once : unowned.Nodup) (owned : automaton.GlueOwned) (jointed : automaton.Jointed [])
    (isTree : automaton.tree? id = some treeNode)
    (continues : automaton.Continues id treeNode next) {kind : GlueKind} {glueId : StateId}
    (listed : automaton.Lists kind (some id) glueId) :
    automaton.Directs id next treeNode glueId (treeNode.node.afterGlue kind)
      (treeNode.node.glueOffers treeNode.node.children.length kind) := by
  obtain ⟨named, answers, names⟩ := names_afterGlue owned jointed isTree continues listed
  obtain ⟨state, found, isKind, ownedBy⟩ := listed.exists_state
  refine ⟨⟨named, answers, names⟩, ?_⟩
  cases state with
  | tree treeNode | start root flags | final flags => cases ownedBy
  | branch owner choices =>
    cases isKind
    cases ownedBy
    exact ⟨choices, successors_branch found,
      names_choices stocked once owned jointed isTree continues found⟩
  | _ =>
    cases isKind
    refine ⟨[named], ?_, .cons names .nil⟩
    rw [successors_glue found rfl (by simp), answers]
    rfl

end

end Automaton

end PatternGraph
