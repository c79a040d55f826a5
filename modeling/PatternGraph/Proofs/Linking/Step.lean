/-
This file says what linking a single node does, once for all that is proved about linking.

After the step the node is followed by what the link asked for; a repetition is followed by its end,
and it is the end that keeps what follows the repetition. No other state changes, and the states
that are added are glue of the node. What the step leaves to be done is a list of links, one for
each open child of the node: these are the children whose continuation is settled only together with
that of their parent. The other children are sealed, that is, they were linked when their parent
was built. `SealedJoints` and `OpenJoints` state the rules by which the children of a node are
linked, each relative to a relation that says what a child is followed by.

Linking as a whole repeats the step on a list of pending links. `linkAll_keeps` is the rule for what
it keeps wherever it stops, `linkAll_induction` the invariant rule for linking that comes to its
end, and `linkAll_answer` tells when it does.
-/

import PatternGraph.Construction
import PatternGraph.Proofs.Arena

namespace PatternGraph

/-! ### Children by the time at which they are linked -/

namespace Node

/-- The children that are linked when the node is built. -/
@[simp]
def sealedChildren : Node → List StateId
  | .sequence items => items.dropLast
  | .capturingGroup body .. | .lookAround body .. => [body.element]
  | .conditional _ yes _ no => yes :: no.toList
  | _ => []

/-- The children that are linked together with the node. -/
@[simp]
def openChildren : Node → List StateId
  | .sequence items => items.getLast?.toList
  | .disjunction alternatives _ => alternatives
  | .nonCapturingGroup body .. => (body.map GroupBody.element).toList
  | .atomicGroup body => [body.element]
  | .repetition element _ => [element]
  | .conditional condition .. => [condition]
  | _ => []

/-- A child is either sealed or open. -/
theorem sealedChildren_append_openChildren (node : Node) :
    (node.sealedChildren ++ node.openChildren).Perm node.children := by
  cases node with
  | sequence items =>
    rcases List.eq_nil_or_concat items with rfl | ⟨front, last, rfl⟩
    · exact .refl _
    · simp
  | conditional condition yes bar no =>
    exact List.perm_append_comm
  | _ => simp

end Node

namespace Automaton

/-! ### What follows a node -/

/-- The node was linked to be followed by `next`. The continuation of a repetition is its end,
which keeps what follows the repetition. -/
def Continues (automaton : Automaton) (id : StateId) (treeNode : TreeNode)
    (next : StateId) : Prop :=
  match treeNode.node with
  | .repetition .. => ∃ close, treeNode.continuation = some close ∧
      automaton.state? close = some (.endOfRepetition id next)
  | _ => treeNode.continuation = some next

/-- There is a tree node with the handle, and it was linked to be followed by `next`. -/
def FollowedBy (automaton : Automaton) (id next : StateId) : Prop :=
  ∃ treeNode, automaton.tree? id = some treeNode ∧ automaton.Continues id treeNode next

/-- A tree node that was linked. -/
def IsLinked (automaton : Automaton) (id : StateId) : Prop :=
  ∃ treeNode, automaton.tree? id = some treeNode ∧ treeNode.isLinked

theorem Continues.isLinked {automaton : Automaton} {id next : StateId} {treeNode : TreeNode}
    (continues : automaton.Continues id treeNode next) : treeNode.isLinked := by
  unfold Continues at continues
  split at continues
  · obtain ⟨close, stored, -⟩ := continues
    simp [TreeNode.isLinked, stored]
  · simp [TreeNode.isLinked, continues]

theorem Continues.unique {automaton : Automaton} {id first second : StateId} {treeNode : TreeNode}
    (continues : automaton.Continues id treeNode first)
    (alsoContinues : automaton.Continues id treeNode second) : first = second := by
  unfold Continues at continues alsoContinues
  cases content : treeNode.node with
  | repetition element quantifier =>
    simp only [content] at continues alsoContinues
    obtain ⟨close, stored, held⟩ := continues
    obtain ⟨other, storedToo, heldToo⟩ := alsoContinues
    cases stored.symm.trans storedToo
    cases held.symm.trans heldToo
    rfl
  | _ =>
    simp only [content] at continues alsoContinues
    exact Option.some.inj (continues.symm.trans alsoContinues)

theorem FollowedBy.unique {automaton : Automaton} {id first second : StateId}
    (followed : automaton.FollowedBy id first) (alsoFollowed : automaton.FollowedBy id second) :
    first = second := by
  obtain ⟨treeNode, isTree, continues⟩ := followed
  obtain ⟨same, isTreeToo, alsoContinues⟩ := alsoFollowed
  cases isTree.symm.trans isTreeToo
  exact continues.unique alsoContinues

/-! ### The rules by which children are linked -/

section

variable (automaton : Automaton) (follows : StateId → StateId → Prop)

/-- How the children that are linked when their parent is built follow each other: the items of a
sequence in a row, an element up to the end of its capturing group or lookaround, and the patterns
of a conditional up to one shared end. -/
def SealedJoints (id : StateId) : Node → Prop
  | .sequence items => ∀ link ∈ Link.chain items, follows link.node link.next
  | .capturingGroup body .. => ∃ close, follows body.element close ∧
      automaton.state? close = some (.endOfCapturingGroup id)
  | .lookAround body .. => ∃ close, follows body.element close ∧
      automaton.state? close = some (.endOfLookaround id)
  | .conditional _ yes _ no => ∃ close, follows yes close ∧
      (∀ pattern ∈ no, follows pattern close) ∧
      automaton.state? close = some (.endOfConditional id)
  | _ => True

/-- What the element of a repetition is followed by: the end if the element runs at most once, the
repetition if it may be skipped, and otherwise a branch between the two. -/
def RepetitionJoint (id close element : StateId) (quantifier : Quantifier) : Prop :=
  if quantifier.maximum = some 1 then follows element close
  else if 1 ≤ quantifier.minimum then ∃ branch, follows element branch ∧
    automaton.state? branch =
      some (.branch id (if quantifier.isReluctant then [close, id] else [id, close]))
  else follows element id

/-- How the children that are linked together with their parent are linked, given what follows the
parent. -/
def OpenJoints (id next : StateId) (treeNode : TreeNode) : Prop :=
  match treeNode.node with
  | .sequence items => ∀ last ∈ items.getLast?, follows last next
  | .disjunction alternatives _ => ∀ alternative ∈ alternatives, follows alternative next
  | .nonCapturingGroup body .. => ∀ inner ∈ body, follows inner.element next
  | .atomicGroup body => follows body.element next
  | .repetition element quantifier => ∃ close, treeNode.continuation = some close ∧
      automaton.state? close = some (.endOfRepetition id next) ∧
      automaton.RepetitionJoint follows id close element quantifier
  | .conditional condition yes _ no => ∃ branch, follows condition branch ∧
      automaton.state? branch = some (.branch id [yes, no.getD next])
  | _ => True

end

/-! ### One link -/

/-- What linking `treeNode` changes in the arena: the node receives a continuation, every other
state stays as it is, and whatever is added is glue of the node. -/
structure LinkFrame (before : Automaton) (link : Link) (treeNode : TreeNode) (after : Automaton) :
    Prop where
  kept {id : StateId} {state : State} : before.state? id = some state → id ≠ link.node →
    after.state? id = some state
  stored : ∃ continuation, after.state? link.node =
    some (.tree { treeNode with continuation := some continuation })
  added {id : StateId} {state : State} : after.state? id = some state →
    before.state? id = none →
      (∃ choices, state = .branch link.node choices) ∨ state = .endOfRepetition link.node link.next

/-- What the step from `before` to `after` does that links `treeNode` and leaves the links
`brought` to be done. -/
structure LinkStep (before : Automaton) (link : Link) (treeNode : TreeNode) (after : Automaton)
    (brought : List Link) : Prop extends LinkFrame before link treeNode after where
  followed : after.FollowedBy link.node link.next
  joints {linked : TreeNode} : after.tree? link.node = some linked →
    after.OpenJoints (fun child next => ⟨child, next⟩ ∈ brought) link.node link.next linked
  names : brought.map Link.node = treeNode.node.openChildren

/-- A branch of the node may be added afterwards. -/
theorem LinkFrame.push_branch {before after : Automaton} {link : Link} {treeNode : TreeNode}
    (frame : LinkFrame before link treeNode after) (choices : List StateId) :
    LinkFrame before link treeNode (after.push (.branch link.node choices)) := by
  obtain ⟨continuation, stored⟩ := frame.stored
  refine ⟨fun found other => state?_push_of_some (frame.kept found other) _,
    ⟨continuation, state?_push_of_some stored _⟩, fun found absent => ?_⟩
  rw [state?_push] at found
  split at found
  · exact Or.inl ⟨choices, (Option.some.inj found).symm⟩
  · exact frame.added found absent

section

variable {automaton : Automaton} {link : Link} {treeNode : TreeNode}
  (present : automaton.state? link.node = some (.tree treeNode))

include present

theorem linkFrame_store : LinkFrame automaton link treeNode (automaton.store link) := by
  refine ⟨fun found other => ?_, ⟨link.next, state?_store_node present _⟩, fun found absent => ?_⟩
  · rwa [state?_store_of_ne automaton other]
  · rw [state?_store, absent, Option.map_none, ite_self] at found
    cases found

/-- Storing the continuation is the whole step for a node whose open children inherit it. -/
theorem linkStep_store
    (notRepetition : ∀ element quantifier, treeNode.node ≠ .repetition element quantifier)
    (notConditional : ∀ condition yes bar no,
      treeNode.node ≠ .conditional condition yes bar no) :
    LinkStep automaton link treeNode (automaton.store link)
      (treeNode.node.heirs.map fun child => ⟨child, link.next⟩) := by
  have now := state?_store_node present link.next
  refine ⟨linkFrame_store present, ?followed, ?joints, ?names⟩
  case followed =>
    refine ⟨_, tree?_eq_some_iff.mpr now, ?_⟩
    cases content : treeNode.node <;> simp_all [Continues]
  case joints =>
    intro linked isTree
    cases (tree?_eq_some_iff.mp isTree).symm.trans now
    cases content : treeNode.node with
    | repetition element quantifier => exact absurd content (notRepetition _ _)
    | conditional condition yes bar no => exact absurd content (notConditional _ _ _ _)
    | nonCapturingGroup body enabled disabled =>
      cases body <;> simp [OpenJoints, Node.heirs]
    | _ => simp [OpenJoints, Node.heirs]
  case names =>
    cases content : treeNode.node with
    | repetition element quantifier => exact absurd content (notRepetition _ _)
    | conditional condition yes bar no => exact absurd content (notConditional _ _ _ _)
    | nonCapturingGroup body enabled disabled =>
      cases body <;> simp [Node.heirs]
    | _ => simp [Node.heirs, Function.comp_def]

/-- A conditional stores its continuation, and its condition is followed by a branch. -/
theorem linkStep_conditional {condition yes : StateId} {bar : Option SourceCharacter}
    {no : Option StateId} (content : treeNode.node = .conditional condition yes bar no) :
    LinkStep automaton link treeNode
      (automaton.linkNode link (.conditional condition yes bar no)).1
      (automaton.linkNode link (.conditional condition yes bar no)).2 := by
  have now := state?_push_of_some (state?_store_node present link.next)
    (.branch link.node [yes, no.getD link.next])
  refine ⟨(linkFrame_store present).push_branch _, ?followed, ?joints, ?names⟩
  case followed =>
    refine ⟨_, tree?_eq_some_iff.mpr now, ?_⟩
    simp [Continues, content]
  case joints =>
    intro linked isTree
    cases (tree?_eq_some_iff.mp isTree).symm.trans now
    simp only [OpenJoints, content]
    exact ⟨_, List.mem_singleton_self _, state?_push_nextId _ _⟩
  case names => simp [linkNode, content]

end

/-! ### Linking a repetition -/

/-- The end of a repetition is added and stored as its continuation. -/
def closeRepetition (automaton : Automaton) (link : Link) : Automaton :=
  (automaton.push (.endOfRepetition link.node link.next)).store ⟨link.node, automaton.nextId⟩

theorem linkNode_repetition (automaton : Automaton) (link : Link) (element : StateId)
    (quantifier : Quantifier) :
    automaton.linkNode link (.repetition element quantifier) =
      let close := automaton.nextId
      let closed := automaton.closeRepetition link
      if quantifier.maximum = some 1 then (closed, [⟨element, close⟩])
      else if 1 ≤ quantifier.minimum then
        let choices := if quantifier.isReluctant then [close, link.node] else [link.node, close]
        (closed.push (.branch link.node choices), [⟨element, closed.nextId⟩])
      else (closed, [⟨element, link.node⟩]) := rfl

/-- Whatever the node, a continuation is stored, behind the end of a repetition if there is one, and
at most a branch is added to that. -/
theorem automaton_linkNode (automaton : Automaton) (link : Link) (node : Node) :
    ∃ stored, (stored = automaton.store link ∨ stored = automaton.closeRepetition link) ∧
      ((automaton.linkNode link node).1 = stored ∨
        ∃ choices, (automaton.linkNode link node).1 = stored.push (.branch link.node choices)) := by
  cases node with
  | repetition element quantifier =>
    refine ⟨automaton.closeRepetition link, Or.inr rfl, ?_⟩
    rw [linkNode_repetition]
    dsimp only
    by_cases once : quantifier.maximum = some 1
    · rw [if_pos once]
      exact Or.inl rfl
    · rw [if_neg once]
      by_cases required : 1 ≤ quantifier.minimum
      · rw [if_pos required]
        exact Or.inr ⟨_, rfl⟩
      · rw [if_neg required]
        exact Or.inl rfl
  | conditional condition yes bar no =>
    exact ⟨automaton.store link, Or.inl rfl, Or.inr ⟨_, rfl⟩⟩
  | _ => exact ⟨automaton.store link, Or.inl rfl, Or.inl rfl⟩

section

variable {automaton : Automaton} {link : Link} {treeNode : TreeNode}
  (present : automaton.state? link.node = some (.tree treeNode))

include present

theorem state?_closeRepetition_node :
    (automaton.closeRepetition link).state? link.node =
      some (.tree { treeNode with continuation := some automaton.nextId }) :=
  state?_store_node (state?_push_of_some present _) automaton.nextId

theorem state?_closeRepetition_close :
    (automaton.closeRepetition link).state? automaton.nextId =
      some (.endOfRepetition link.node link.next) := by
  unfold closeRepetition
  rw [state?_store_of_ne _ (ne_nextId_of_state? present).symm, state?_push_nextId]

theorem linkFrame_closeRepetition :
    LinkFrame automaton link treeNode (automaton.closeRepetition link) := by
  refine ⟨fun found other => ?_, ⟨_, state?_closeRepetition_node present⟩, fun found absent => ?_⟩
  · unfold closeRepetition
    rw [state?_store_of_ne _ other, state?_push_of_some found]
  · rename_i id state
    have other : id ≠ link.node := by
      rintro rfl
      rw [absent] at present
      cases present
    unfold closeRepetition at found
    rw [state?_store_of_ne _ other, state?_push] at found
    split at found
    · exact Or.inr (Option.some.inj found).symm
    · rw [absent] at found
      cases found

/-- A repetition is followed by its end, which keeps what the link asked for. -/
theorem linkStep_closeRepetition {element : StateId} {quantifier : Quantifier}
    (content : treeNode.node = .repetition element quantifier) {after : Automaton}
    (frame : LinkFrame automaton link treeNode after)
    (keeps : ∀ {id state}, (automaton.closeRepetition link).state? id = some state →
      after.state? id = some state)
    {goal : StateId}
    (joint : after.RepetitionJoint (fun child next => child = element ∧ next = goal) link.node
      automaton.nextId element quantifier) :
    LinkStep automaton link treeNode after [⟨element, goal⟩] := by
  have now := keeps (state?_closeRepetition_node present)
  have close := keeps (state?_closeRepetition_close present)
  refine ⟨frame, ?followed, ?joints, ?names⟩
  case followed =>
    refine ⟨_, tree?_eq_some_iff.mpr now, ?_⟩
    simp only [Continues, content]
    exact ⟨_, rfl, close⟩
  case joints =>
    intro linked isTree
    cases (tree?_eq_some_iff.mp isTree).symm.trans now
    simp only [OpenJoints, content]
    refine ⟨_, rfl, close, ?_⟩
    simpa only [List.mem_singleton, Link.mk.injEq] using joint
  case names => simp [content]

/-- A repetition stores its end as continuation, and adds a branch if its element has to be matched
and may be matched again. -/
theorem linkStep_repetition {element : StateId} {quantifier : Quantifier}
    (content : treeNode.node = .repetition element quantifier) :
    LinkStep automaton link treeNode
      (automaton.linkNode link (.repetition element quantifier)).1
      (automaton.linkNode link (.repetition element quantifier)).2 := by
  have frame := linkFrame_closeRepetition present
  rw [linkNode_repetition]
  dsimp only
  by_cases once : quantifier.maximum = some 1
  · rw [if_pos once]
    exact linkStep_closeRepetition present content frame id
      (by simp [RepetitionJoint, once])
  · rw [if_neg once]
    by_cases required : 1 ≤ quantifier.minimum
    · rw [if_pos required]
      exact linkStep_closeRepetition present content (frame.push_branch _)
        (fun found => state?_push_of_some found _)
        (by
          rw [RepetitionJoint, if_neg once, if_pos required]
          exact ⟨_, ⟨rfl, rfl⟩, state?_push_nextId _ _⟩)
    · rw [if_neg required]
      exact linkStep_closeRepetition present content frame id
        (by simp [RepetitionJoint, once, required])

/-- Linking a node is such a step, whatever its kind. -/
theorem linkStep_linkNode :
    LinkStep automaton link treeNode (automaton.linkNode link treeNode.node).1
      (automaton.linkNode link treeNode.node).2 := by
  cases content : treeNode.node with
  | repetition element quantifier => exact linkStep_repetition present content
  | conditional condition yes bar no => exact linkStep_conditional present content
  | _ =>
    have step := linkStep_store present (by simp [content]) (by simp [content])
    rw [content] at step
    exact step

end

/-! ### Linking as a whole -/

theorem linkAll_cons_ok {automaton : Automaton} {link : Link} {treeNode : TreeNode}
    (linkable : automaton.linkable link.node = .ok treeNode) (pending : List Link) :
    automaton.linkAll (link :: pending) =
      ((automaton.linkNode link treeNode.node).1.linkAll
        ((automaton.linkNode link treeNode.node).2 ++ pending)).preceded
          (linkRecord link treeNode.node) := by
  rw [linkAll]
  split
  · rename_i fault refused
    rw [linkable] at refused
    cases refused
  · rename_i found same
    cases linkable.symm.trans same
    rfl

theorem linkAll_cons_error {automaton : Automaton} {link : Link} {fault : Fault}
    (refused : automaton.linkable link.node = .error fault) (pending : List Link) :
    automaton.linkAll (link :: pending) = .failure automaton fault := by
  rw [linkAll]
  split
  · rename_i other same
    cases refused.symm.trans same
    rfl
  · rename_i found linkable
    rw [refused] at linkable
    cases linkable

/-- What holds of the work on a row of links: the next node cannot be linked, or it is linked, and
the links for its children come next. -/
@[elab_as_elim]
theorem row_induction {motive : Automaton → List Link → Prop}
    (nil : ∀ automaton, motive automaton [])
    (refused : ∀ automaton link pending fault, automaton.linkable link.node = .error fault →
      motive automaton (link :: pending))
    (linked : ∀ automaton link pending treeNode, automaton.linkable link.node = .ok treeNode →
      motive (automaton.linkNode link treeNode.node).1
        ((automaton.linkNode link treeNode.node).2 ++ pending) →
      motive automaton (link :: pending))
    (automaton : Automaton) (links : List Link) : motive automaton links :=
  linkAll.induct motive nil refused linked automaton links

/-- What linking keeps wherever it stops: whatever relates an automaton to itself, and to each
automaton to which it relates what one more link makes of it. -/
theorem linkAll_keeps {motive : Automaton → Automaton → Prop}
    (refl : ∀ automaton, motive automaton automaton)
    (step : ∀ {automaton link treeNode after}, automaton.linkable link.node = .ok treeNode →
      motive (automaton.linkNode link treeNode.node).1 after → motive automaton after)
    (automaton : Automaton) (links : List Link) :
    motive automaton (automaton.linkAll links).automaton := by
  induction automaton, links using row_induction with
  | nil automaton =>
    rw [linkAll]
    exact refl automaton
  | refused automaton link pending fault refused =>
    rw [linkAll_cons_error refused]
    exact refl automaton
  | linked automaton link pending treeNode linkable inductionHypothesis =>
    rw [linkAll_cons_ok linkable]
    exact step linkable inductionHypothesis

/-- The invariant rule of linking that comes to its end. -/
theorem linkAll_induction {motive : Automaton → List Link → Prop}
    (step : ∀ before link treeNode after brought pending,
      before.linkable link.node = .ok treeNode →
      before.linkNode link treeNode.node = (after, brought) →
      motive before (link :: pending) → motive after (brought ++ pending))
    {automaton : Automaton} {links : List Link} (holds : motive automaton links)
    (linked : (automaton.linkAll links).answer = .ok ()) :
    motive (automaton.linkAll links).automaton [] := by
  induction automaton, links using row_induction with
  | nil automaton => rwa [linkAll]
  | refused automaton link pending fault refused =>
    rw [linkAll_cons_error refused] at linked
    cases linked
  | linked automaton link pending treeNode linkable inductionHypothesis =>
    rw [linkAll_cons_ok linkable] at linked ⊢
    exact inductionHypothesis (step _ _ _ _ _ _ linkable rfl holds) linked

/-- Linking comes to its end if an invariant makes sure that the next node can be linked. -/
theorem linkAll_answer {motive : Automaton → List Link → Prop}
    (step : ∀ before link treeNode after brought pending,
      before.linkable link.node = .ok treeNode →
      before.linkNode link treeNode.node = (after, brought) →
      motive before (link :: pending) → motive after (brought ++ pending))
    (progress : ∀ automaton link pending, motive automaton (link :: pending) →
      ∃ treeNode, automaton.linkable link.node = .ok treeNode)
    {automaton : Automaton} {links : List Link} (holds : motive automaton links) :
    (automaton.linkAll links).answer = .ok () := by
  induction automaton, links using row_induction with
  | nil automaton => rw [linkAll]; rfl
  | refused automaton link pending fault refused =>
    obtain ⟨treeNode, linkable⟩ := progress _ _ _ holds
    rw [refused] at linkable
    cases linkable
  | linked automaton link pending treeNode linkable inductionHypothesis =>
    rw [linkAll_cons_ok linkable]
    exact inductionHypothesis (step _ _ _ _ _ _ linkable rfl holds)

end Automaton

end PatternGraph
