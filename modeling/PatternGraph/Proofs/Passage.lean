/-
This file proves that a continuation is what follows. The graph has a `Passage` from a state to
another if the second can be reached from the first and no path from the first to the final state
gets around it. By induction on the tree there is a passage from every node to its continuation: the
paths into a node leave it by way of its continuation only, since the last states inside lead there.

Passages compose along what follows what. A loop is taken by the length of the paths: where each
choice of a state has a passage either to the goal or back to the state itself, what is left of a
path after a turn is shorter, so every path to the final state comes to the goal in the end.

Without alternatives a disjunction leads nowhere, and what follows it may be out of reach. That is
the one assumption besides that the pattern is finished.
-/

import PatternGraph.Proofs.Language.Refinement
import PatternGraph.Proofs.Linking.Glue
import PatternGraph.Proofs.Walk

namespace PatternGraph

namespace Automaton

/-! ### Passages -/

/-- The state `next` can be reached, and every path to the final state passes through it. -/
structure Passage (automaton : Automaton) (final id next : StateId) : Prop where
  reaches : automaton.Reaches id next
  passes {visited : List StateId} : automaton.Walk id visited final → next ∈ visited

namespace Passage

variable {automaton : Automaton} {final id middle next : StateId}

theorem refl (automaton : Automaton) (final id : StateId) : automaton.Passage final id id :=
  ⟨.refl, Walk.mem_start⟩

theorem trans (first : automaton.Passage final id middle)
    (second : automaton.Passage final middle next) : automaton.Passage final id next := by
  refine ⟨first.reaches.trans second.reaches, fun walk => ?_⟩
  obtain ⟨rest, onward, suffix⟩ := walk.exists_from (first.passes walk)
  exact suffix.subset (second.passes onward)

/-- Where every choice leads on or back, what can be reached is passed. -/
theorem of_turns {nexts : List StateId} (apart : id ≠ final)
    (offered : automaton.successors id = .ok nexts) (reaches : automaton.Reaches id next)
    (turns : ∀ choice ∈ nexts,
      automaton.Passage final choice next ∨ automaton.Passage final choice id) :
    automaton.Passage final id next := by
  refine ⟨reaches, fun {visited} walk => ?_⟩
  -- What is left of a path after a turn is shorter than the path.
  induction length : visited.length using Nat.strong_induction_on generalizing visited with
  | _ bound inductionHypothesis =>
    cases walk with
    | stop => exact absurd rfl apart
    | @step _ choice _ visited moves rest =>
      obtain ⟨found, offeredToo, member⟩ := moves
      cases offered.symm.trans offeredToo
      rcases turns choice member with leads | returns
      · exact List.mem_cons_of_mem _ (leads.passes rest)
      · obtain ⟨left, again, suffix⟩ := rest.exists_from (returns.passes rest)
        have shorter : left.length < bound := by
          have := suffix.length_le
          rw [List.length_cons] at length
          omega
        exact List.mem_cons_of_mem _
          (suffix.subset (inductionHypothesis left.length shorter again rfl))

/-- Where there is a choice and every choice leads on, there is a passage. -/
theorem of_choices {nexts : List StateId} (apart : id ≠ final)
    (offered : automaton.successors id = .ok nexts) (some_choice : nexts ≠ [])
    (leads : ∀ choice ∈ nexts, automaton.Passage final choice next) :
    automaton.Passage final id next := by
  obtain ⟨choice, member⟩ := List.exists_mem_of_ne_nil nexts some_choice
  exact of_turns apart offered (.head ⟨nexts, offered, member⟩ (leads choice member).reaches)
    fun other memberToo => Or.inl (leads other memberToo)

theorem step (apart : id ≠ final) (moves : automaton.successors id = .ok [middle])
    (passage : automaton.Passage final middle next) : automaton.Passage final id next :=
  of_choices apart moves (List.cons_ne_nil _ _) fun _ member =>
    List.mem_singleton.mp member ▸ passage

end Passage

/-! ### Passages through the nodes -/

/-- Every disjunction below the root has an alternative. -/
def OffersAlternatives (automaton : Automaton) (root : StateId) : Prop :=
  ∀ ⦃id : StateId⦄ ⦃treeNode : TreeNode⦄ ⦃alternatives : List StateId⦄
    ⦃bars : List SourceCharacter⦄, automaton.Below root id → automaton.tree? id = some treeNode →
      treeNode.node = .disjunction alternatives bars → alternatives ≠ []

/-- Whether every disjunction has an alternative. -/
def allDisjunctionsOffer (automaton : Automaton) : Bool :=
  automaton.ids.all fun id =>
    match (automaton.tree? id).map TreeNode.node with
    | some (.disjunction [] _) => false
    | _ => true

theorem offersAlternatives_of_allDisjunctionsOffer {automaton : Automaton}
    (offer : automaton.allDisjunctionsOffer) (root : StateId) :
    automaton.OffersAlternatives root := by
  rintro id treeNode alternatives bars - isTree content rfl
  have member : id ∈ automaton.ids :=
    mem_ids_of_state (show automaton.state id = .ok (.tree treeNode) by
      rw [state, tree?_eq_some_iff.mp isTree])
  have checked := List.all_eq_true.mp offer id member
  simp [isTree, content] at checked

section

variable {automaton : Automaton} {final : StateId} {flags : FlagSet}
  (finalHeld : automaton.state? final = some (.final flags))

include finalHeld

/-- A state that can only be left in one way leads to where that is. -/
theorem passage_of_moves {id next : StateId} (moves : automaton.successors id = .ok [next]) :
    automaton.Passage final id next :=
  (Passage.refl automaton final next).step (ne_final_of_moves finalHeld moves) moves

/-- A passage to the continuation of a linked node is one to what follows the node. -/
theorem passage_of_followedBy {id next : StateId} (followed : automaton.FollowedBy id next)
    (passage : ∀ {treeNode stored}, automaton.tree? id = some treeNode →
      treeNode.continuation = some stored → automaton.Passage final id stored) :
    automaton.Passage final id next := by
  obtain ⟨treeNode, isTree, continues⟩ := followed
  unfold Continues at continues
  split at continues
  · obtain ⟨close, stored, held⟩ := continues
    exact (passage isTree stored).trans (passage_of_moves finalHeld (successors_of_own held rfl))
  · exact passage isTree continues

/-- The glue before the element of a lookaround leads to the element. -/
theorem passage_entry {id entry element : StateId} {polarity : Polarity} {direction : Direction}
    (enters : automaton.EntersElement id entry element polarity direction) :
    automaton.Passage final entry element := by
  have negated {glue content : StateId}
      (held : automaton.state? glue = some (.negation id content)) :
      automaton.Passage final glue content :=
    passage_of_moves finalHeld (successors_of_own held rfl)
  have backwards {glue content : StateId}
      (held : automaton.state? glue = some (.startOfLookBehind id content)) :
      automaton.Passage final glue content :=
    passage_of_moves finalHeld (successors_of_own held rfl)
  cases polarity with
  | positive =>
    cases direction with
    | ahead => exact enters ▸ .refl automaton final entry
    | behind => exact backwards enters
  | negative =>
    cases direction with
    | ahead => exact negated enters
    | behind =>
      obtain ⟨inner, outside, inside⟩ := enters
      exact (backwards outside).trans (negated inside)

section

variable {id next : StateId} {treeNode : TreeNode}
  (isTree : automaton.tree? id = some treeNode) (stored : treeNode.continuation = some next)

include isTree stored

/-- A node without anything to move into leads to its continuation. -/
theorem passage_skipped (leaves : treeNode.successors = treeNode.exit.map fun after => [after]) :
    automaton.Passage final id next :=
  (Passage.refl automaton final next).step (ne_final_of_tree? finalHeld isTree)
    (successors_of_exit isTree stored leaves)

/-- The end of the node leads to what follows the node. -/
theorem passage_end {close : StateId} {state : State}
    (found : automaton.state? close = some state)
    (ends : state = .endOfCapturingGroup id ∨ state = .endOfLookaround id ∨
      state = .endOfConditional id) : automaton.Passage final close next :=
  passage_of_moves finalHeld (successors_endOf found ends isTree stored)

theorem passage_sequence {items : List StateId} (content : treeNode.node = .sequence items)
    (passage : automaton.Passage final (items.headD next) next) :
    automaton.Passage final id next := by
  exact passage.step (ne_final_of_tree? finalHeld isTree)
    (successors_sequence isTree content stored)

theorem passage_capturingGroup {body : GroupBody} {name : Option String} {number : Nat}
    (content : treeNode.node = .capturingGroup body name number)
    (joints : automaton.SealedJoints automaton.FollowedBy id treeNode.node)
    (passage : ∀ after, automaton.FollowedBy body.element after →
      automaton.Passage final body.element after) : automaton.Passage final id next := by
  rw [content] at joints
  obtain ⟨close, followed, held⟩ := joints
  have whole := (passage close followed).trans
    (passage_end finalHeld isTree stored held (Or.inl rfl))
  refine whole.step (ne_final_of_tree? finalHeld isTree) ?_
  rw [successors_of_tree? isTree, TreeNode.successors, content]

/-- A lookaround is followed by the same state whether it is entered or passed over. -/
theorem passage_lookAround {body : GroupBody} {polarity : Polarity} {direction : Direction}
    {entry : StateId} (content : treeNode.node = .lookAround body polarity direction entry)
    (joints : automaton.SealedJoints automaton.FollowedBy id treeNode.node)
    (entered : automaton.Entered id treeNode.node)
    (passage : ∀ after, automaton.FollowedBy body.element after →
      automaton.Passage final body.element after) : automaton.Passage final id next := by
  rw [content] at joints entered
  obtain ⟨close, followed, held⟩ := joints
  have inside : automaton.Passage final entry next :=
    ((passage_entry finalHeld entered).trans (passage close followed)).trans
      (passage_end finalHeld isTree stored held (Or.inr (Or.inl rfl)))
  refine Passage.of_choices (ne_final_of_tree? finalHeld isTree)
    (successors_lookAround isTree content stored) (List.cons_ne_nil _ _) ?_
  simpa using ⟨inside, Passage.refl automaton final next⟩

omit stored in
/-- A group without an end of its own leads into its element. -/
theorem passage_group {element : StateId} (enters : treeNode.successors = .ok [element])
    (passage : automaton.Passage final element next) : automaton.Passage final id next :=
  passage.step (ne_final_of_tree? finalHeld isTree) ((successors_of_tree? isTree).trans enters)

omit stored in
theorem passage_disjunction {alternatives : List StateId} {bars : List SourceCharacter}
    (content : treeNode.node = .disjunction alternatives bars) (offers : alternatives ≠ [])
    (passage : ∀ alternative ∈ alternatives, automaton.Passage final alternative next) :
    automaton.Passage final id next := by
  refine Passage.of_choices (ne_final_of_tree? finalHeld isTree) ?_ offers passage
  rw [successors_of_tree? isTree, TreeNode.successors, content]

section

variable {element : StateId} {quantifier : Quantifier}
  (content : treeNode.node = .repetition element quantifier)
  (passage : ∀ after, automaton.FollowedBy element after →
    automaton.Passage final element after)

include content passage

/-- An element that has to be matched leads to the end, or to the branch between the end and another
round. -/
theorem passage_required (required : 0 < quantifier.minimum)
    (joint : automaton.RepetitionJoint automaton.FollowedBy id next element quantifier) :
    automaton.Passage final id next := by
  have apart := ne_final_of_tree? finalHeld isTree
  have moves := successors_repetition isTree content stored
  rw [if_pos required] at moves
  unfold RepetitionJoint at joint
  by_cases once : quantifier.maximum = some 1
  · rw [if_pos once] at joint
    exact (passage next joint).step apart moves
  · rw [if_neg once, if_pos (by omega)] at joint
    obtain ⟨branch, followed, held⟩ := joint
    have turn : automaton.Passage final id branch := (passage branch followed).step apart moves
    refine turn.trans ?_
    have here := Passage.refl automaton final next
    have branchApart := ne_final_of_branch finalHeld held
    have offered := successors_branch held
    cases reluctant : quantifier.isReluctant <;>
      · rw [reluctant] at offered
        exact Passage.of_turns branchApart offered (.single ⟨_, offered, by simp⟩)
          (by simp [here, turn])

/-- An element that may be skipped leads to the end or back to the repetition. -/
theorem passage_optional (optional : ¬ 0 < quantifier.minimum)
    (joint : automaton.RepetitionJoint automaton.FollowedBy id next element quantifier) :
    automaton.Passage final id next := by
  have apart := ne_final_of_tree? finalHeld isTree
  have here := Passage.refl automaton final next
  have moves := successors_repetition isTree content stored
  rw [if_neg optional] at moves
  unfold RepetitionJoint at joint
  by_cases never : quantifier.maximum = some 0
  · rw [if_pos never] at moves
    exact here.step apart moves
  · rw [if_neg never] at moves
    have inside : automaton.Passage final element next ∨ automaton.Passage final element id := by
      by_cases once : quantifier.maximum = some 1
      · rw [if_pos once] at joint
        exact Or.inl (passage next joint)
      · rw [if_neg once, if_neg (by omega)] at joint
        exact Or.inr (passage id joint)
    cases reluctant : quantifier.isReluctant <;>
      · rw [reluctant] at moves
        exact Passage.of_turns apart moves (.single ⟨_, moves, by simp⟩) (by simp [here, inside])

/-- Either way a repetition is left by way of its end only. -/
theorem passage_repetition {after : StateId}
    (joints : automaton.OpenJoints automaton.FollowedBy id after treeNode) :
    automaton.Passage final id next := by
  simp only [OpenJoints, content] at joints
  obtain ⟨close, storedToo, -, joint⟩ := joints
  cases stored.symm.trans storedToo
  by_cases required : 0 < quantifier.minimum
  · exact passage_required finalHeld isTree stored content passage required joint
  · exact passage_optional finalHeld isTree stored content passage required joint

end

end

/-- There is a passage from every node of a tree to the continuation of the node. -/
theorem passage_tree (jointed : automaton.Jointed []) {root rootNext : StateId}
    (rootFollowed : automaton.FollowedBy root rootNext)
    (offers : automaton.OffersAlternatives root) {tree : SyntaxTree}
    (described : automaton.Describes tree) :
    automaton.Below root tree.id → ∀ {treeNode stored}, automaton.tree? tree.id = some treeNode →
      treeNode.continuation = some stored → automaton.Passage final tree.id stored := by
  induction described with
  | @node id treeNode trees isTree named described inductionHypothesis =>
    intro below found next isTreeToo stored
    cases isTree.symm.trans isTreeToo
    show automaton.Passage final id next
    have passage (tree : SyntaxTree) (member : tree ∈ trees) (after : StateId)
        (followed : automaton.FollowedBy tree.id after) :
        automaton.Passage final tree.id after := by
      have child : automaton.Child id tree.id :=
        ⟨treeNode, isTree, named ▸ List.mem_map_of_mem member⟩
      exact passage_of_followedBy finalHeld followed
        (inductionHypothesis tree member (below.tail child))
    have only {element : StateId} (child : trees.map SyntaxTree.id = [element]) (after : StateId)
        (followed : automaton.FollowedBy element after) :
        automaton.Passage final element after := by
      obtain ⟨tree, rfl, rfl⟩ := List.map_eq_singleton_iff.mp child
      exact passage tree (List.mem_singleton_self _) after followed
    obtain ⟨after, same, isTreeToo, continues⟩ := jointed.followedBy_below rootFollowed below
    cases isTree.symm.trans isTreeToo
    have sealedJoints := (jointed.sealedAt isTree).mono (.refl _) Promised.followedBy
    have openJoints := (jointed.openAt isTree continues).mono (.refl _) Promised.followedBy
    cases content : treeNode.node with
    | leaf leaf =>
      exact passage_skipped finalHeld isTree stored (by rw [TreeNode.successors, content])
    | sequence items =>
      rw [Continues, content] at continues
      cases stored.symm.trans continues
      rw [content, SealedJoints] at sealedJoints
      rw [OpenJoints, content] at openJoints
      rw [content, Node.children] at named
      subst named
      exact passage_sequence finalHeld isTree stored content
        ((inRow_of_joints sealedJoints openJoints).related (Passage.refl automaton final)
          Passage.trans passage)
    | disjunction alternatives bars =>
      rw [Continues, content] at continues
      cases stored.symm.trans continues
      rw [OpenJoints, content] at openJoints
      refine passage_disjunction finalHeld isTree content (offers below isTree content)
        fun alternative member => ?_
      rw [content, Node.children] at named
      obtain ⟨tree, inTrees, rfl⟩ := List.mem_map.mp (named ▸ member)
      exact passage tree inTrees next (openJoints _ member)
    | capturingGroup body name number =>
      rw [content, Node.children] at named
      exact passage_capturingGroup finalHeld isTree stored content sealedJoints (only named)
    | nonCapturingGroup body enabled disabled =>
      rw [Continues, content] at continues
      cases stored.symm.trans continues
      rw [content, Node.children] at named
      rw [OpenJoints, content] at openJoints
      cases body with
      | none =>
        exact passage_skipped finalHeld isTree stored (by rw [TreeNode.successors, content])
      | some inner =>
        exact passage_group finalHeld isTree (by rw [TreeNode.successors, content])
          (only named next (openJoints inner rfl))
    | atomicGroup body =>
      rw [Continues, content] at continues
      cases stored.symm.trans continues
      rw [content, Node.children] at named
      rw [OpenJoints, content] at openJoints
      exact passage_group finalHeld isTree (by rw [TreeNode.successors, content])
        (only named next openJoints)
    | lookAround body polarity direction entry =>
      rw [content, Node.children] at named
      exact passage_lookAround finalHeld isTree stored content sealedJoints
        (jointed.enteredAt isTree) (only named)
    | repetition element quantifier =>
      rw [content, Node.children] at named
      exact passage_repetition finalHeld isTree stored content (only named) openJoints
    | conditional condition yes bar no =>
      exact passage_skipped finalHeld isTree stored (by rw [TreeNode.successors, content])

end

end Automaton

/-! ### Finished patterns -/

namespace Pattern

/-- The start state, the nodes below the root and the glue of these nodes. -/
inductive Inner (pattern : Pattern) : StateId → Prop
  | start : Inner pattern pattern.start
  | node {id : StateId} (below : pattern.automaton.Below pattern.root id) : Inner pattern id
  | glue {id owner : StateId} {state : State} (found : pattern.automaton.state? id = some state)
    (owned : state.owner? = some owner)
    (below : pattern.automaton.Below pattern.root owner) : Inner pattern id

section

variable {pattern : Pattern} (finished : pattern.Finished)

include finished

/-- A branch has a choice. Each is the continuation of its owner, the owner itself, or a pattern of
a conditional, which is followed by the end of the conditional. -/
theorem choices_of_branch {id owner next : StateId} {choices : List StateId} {treeNode : TreeNode}
    (found : pattern.automaton.state? id = some (.branch owner choices))
    (isTree : pattern.automaton.tree? owner = some treeNode)
    (stored : treeNode.continuation = some next) :
    choices ≠ [] ∧ ∀ choice ∈ choices, choice = next ∨ choice = owner ∨
      ∃ close, pattern.automaton.Child owner choice ∧
        pattern.automaton.FollowedBy choice close ∧
        pattern.automaton.state? close = some (.endOfConditional owner) := by
  obtain ⟨same, isTreeToo, continuation, storedToo, chooses⟩ := finished.glueOwned found owner rfl
  cases isTree.symm.trans isTreeToo
  cases stored.symm.trans storedToo
  unfold Node.Chooses at chooses
  cases content : treeNode.node with
  | repetition element quantifier =>
    simp only [content] at chooses
    rcases chooses with rfl | rfl <;> simp
  | conditional condition yes bar no =>
    simp only [content] at chooses
    subst chooses
    have joints := (finished.sound.jointed.sealedAt isTree).mono (.refl _)
      Automaton.Promised.followedBy
    rw [content] at joints
    obtain ⟨close, yesFollowed, noFollowed, held⟩ := joints
    have isPattern {child : StateId} (named : child = yes ∨ child ∈ no) :
        pattern.automaton.Child owner child :=
      ⟨treeNode, isTree, by rcases named with rfl | member <;> simp_all⟩
    have inside : ∃ close, pattern.automaton.Child owner yes ∧
        pattern.automaton.FollowedBy yes close ∧
        pattern.automaton.state? close = some (.endOfConditional owner) :=
      ⟨close, isPattern (Or.inl rfl), yesFollowed, held⟩
    refine ⟨List.cons_ne_nil _ _, List.forall_mem_cons.mpr ⟨Or.inr (Or.inr inside), ?_⟩⟩
    refine List.forall_mem_singleton.mpr ?_
    cases no with
    | none => exact Or.inl rfl
    | some other =>
      exact Or.inr (Or.inr ⟨close, isPattern (Or.inr rfl), noFollowed other rfl, held⟩)
  | _ =>
    simp only [content] at chooses

/-- Every inner state has a continuation. It is a node that stores it, a branch of a node that
stores it, or glue that moves to it and nowhere else. -/
theorem Inner.exists_continuation {id : StateId} (inner : pattern.Inner id) :
    ∃ next, pattern.automaton.continuation id = .ok (some next) ∧
      (pattern.automaton.successors id = .ok [next] ∨
        ∃ owner treeNode, pattern.automaton.Below pattern.root owner ∧
          pattern.automaton.tree? owner = some treeNode ∧ treeNode.continuation = some next ∧
          (id = owner ∨ ∃ choices, pattern.automaton.state? id = some (.branch owner choices))) := by
  have sound := finished.sound
  have stores {owner : StateId} (below : pattern.automaton.Below pattern.root owner) :
      ∃ treeNode next, pattern.automaton.tree? owner = some treeNode ∧
        treeNode.continuation = some next := by
    obtain ⟨after, treeNode, isTree, continues⟩ := sound.followedBy_below below
    obtain ⟨next, stored⟩ := Option.isSome_iff_exists.mp continues.isLinked
    exact ⟨treeNode, next, isTree, stored⟩
  cases inner with
  | start =>
    obtain ⟨startFlags, startHeld⟩ := sound.startHeld
    exact ⟨pattern.root, Automaton.continuation_of_own startHeld rfl,
      Or.inl (Automaton.successors_of_own startHeld rfl)⟩
  | node below =>
    obtain ⟨treeNode, next, isTree, stored⟩ := stores below
    exact ⟨next, Automaton.continuation_of_stored isTree stored,
      Or.inr ⟨id, treeNode, below, isTree, stored, Or.inl rfl⟩⟩
  | @glue _ owner state found owned below =>
    obtain ⟨treeNode, next, isTree, stored⟩ := stores below
    cases state with
    | tree _ | start _ _ | final _ => cases owned
    | branch named choices =>
      cases owned
      refine ⟨next, ?_, Or.inr ⟨owner, treeNode, below, isTree, stored, Or.inr ⟨choices, found⟩⟩⟩
      rw [Automaton.continuation_of_borrows found rfl rfl isTree,
        Automaton.continuation_of_stored isTree stored]
    | endOfRepetition named after | negation named after | startOfLookBehind named after =>
      exact ⟨after, Automaton.continuation_of_own found rfl,
        Or.inl (Automaton.successors_of_own found rfl)⟩
    | endOfCapturingGroup named | endOfLookaround named | endOfConditional named =>
      cases owned
      exact ⟨next, Automaton.continuation_endOf found (by simp) isTree stored,
        Or.inl (Automaton.successors_endOf found (by simp) isTree stored)⟩

variable (offers : pattern.automaton.OffersAlternatives pattern.root)

include offers

/-- There is a passage from every node below the root to the continuation that it stores. -/
theorem passage_stored {id next : StateId} {treeNode : TreeNode}
    (below : pattern.automaton.Below pattern.root id)
    (isTree : pattern.automaton.tree? id = some treeNode)
    (stored : treeNode.continuation = some next) :
    pattern.automaton.Passage pattern.final id next := by
  have sound := finished.sound
  obtain ⟨flags, finalHeld⟩ := sound.finalHeld
  obtain ⟨tree, -, same, described⟩ := sound.isTree.unfolds
  obtain ⟨part, describedPart, rfl⟩ := described.exists_of_below (same ▸ below)
  exact Automaton.passage_tree finalHeld sound.jointed sound.followed offers describedPart below
    isTree stored

theorem passage_of_below {id next : StateId}
    (below : pattern.automaton.Below pattern.root id)
    (followed : pattern.automaton.FollowedBy id next) :
    pattern.automaton.Passage pattern.final id next := by
  obtain ⟨flags, finalHeld⟩ := finished.sound.finalHeld
  exact Automaton.passage_of_followedBy finalHeld followed (passage_stored finished offers below)

/-- Whatever a branch chooses leads to the continuation of its owner. -/
theorem passage_branch {id owner next : StateId} {choices : List StateId} {treeNode : TreeNode}
    (found : pattern.automaton.state? id = some (.branch owner choices))
    (below : pattern.automaton.Below pattern.root owner)
    (isTree : pattern.automaton.tree? owner = some treeNode)
    (stored : treeNode.continuation = some next) :
    pattern.automaton.Passage pattern.final id next := by
  obtain ⟨flags, finalHeld⟩ := finished.sound.finalHeld
  obtain ⟨some_choice, each⟩ := choices_of_branch finished found isTree stored
  refine .of_choices (Automaton.ne_final_of_branch finalHeld found)
    (Automaton.successors_branch found) some_choice fun choice member => ?_
  rcases each choice member with rfl | rfl | ⟨close, named, followed, held⟩
  · exact .refl pattern.automaton pattern.final choice
  · exact passage_stored finished offers below isTree stored
  · have leaves : pattern.automaton.Passage pattern.final close next :=
      Automaton.passage_end finalHeld isTree stored held (Or.inr (Or.inr rfl))
    exact (passage_of_below finished offers (below.tail named) followed).trans leaves

/-- Every inner state has a continuation, and there is a passage to it. -/
theorem Inner.exists_passage {id : StateId} (inner : pattern.Inner id) :
    ∃ next, pattern.automaton.continuation id = .ok (some next) ∧
      pattern.automaton.Passage pattern.final id next := by
  obtain ⟨flags, finalHeld⟩ := finished.sound.finalHeld
  obtain ⟨next, continues, ways⟩ := inner.exists_continuation finished
  refine ⟨next, continues, ?_⟩
  rcases ways with moves | ⟨owner, treeNode, below, isTree, stored, rfl | ⟨choices, found⟩⟩
  · exact (Automaton.Passage.refl pattern.automaton pattern.final next).step
      (Automaton.ne_final_of_moves finalHeld moves) moves
  · exact passage_stored finished offers below isTree stored
  · exact passage_branch finished offers found below isTree stored

end

end Pattern

/-- The continuation of an inner state can be reached from it, and every path from the state to the
final one passes through it. -/
theorem continuation_is_passed {pattern : Pattern} (finished : pattern.Finished)
    (offers : pattern.automaton.OffersAlternatives pattern.root) {id : StateId}
    (inner : pattern.Inner id) :
    ∃ next, pattern.automaton.continuation id = .ok (some next) ∧
      pattern.automaton.Reaches id next ∧
      ∀ visited, pattern.automaton.Walk id visited pattern.final → next ∈ visited := by
  obtain ⟨next, continues, passage⟩ := inner.exists_passage finished offers
  exact ⟨next, continues, passage.reaches, fun _ walk => passage.passes walk⟩

/-- The end of the group in `a(b|c)*d` leads back to the repetition, although the group is in the
middle of a loop. -/
theorem loop_continuation_is_passed :
    ∃ pattern, loopPattern? = some pattern ∧ pattern.Inner ⟨5⟩ ∧
      ∃ next, pattern.automaton.continuation ⟨5⟩ = .ok (some next) ∧
        pattern.automaton.Reaches ⟨5⟩ next ∧
        ∀ visited, pattern.automaton.Walk ⟨5⟩ visited pattern.final → next ∈ visited := by
  have computed : (loopPattern?.map fun pattern =>
      (pattern.automaton.allDisjunctionsOffer,
        (pattern.automaton.state? ⟨5⟩).map State.owner?)) = some (true, some (some ⟨4⟩)) := by
    decide +kernel
  have children : (loopPattern?.map fun pattern =>
      [pattern.root, ⟨6⟩].map fun id =>
        (pattern.automaton.tree? id).map fun treeNode => treeNode.node.children) =
      some [some [⟨0⟩, ⟨6⟩, ⟨7⟩], some [⟨4⟩]] := by decide +kernel
  obtain ⟨pattern, built, facts⟩ := Option.map_eq_some_iff.mp computed
  obtain ⟨offer, owner⟩ := Prod.mk.inj facts
  rw [built, Option.map_some, Option.some.injEq] at children
  obtain ⟨inSequence, others⟩ := List.cons.inj children
  obtain ⟨inRepetition, -⟩ := List.cons.inj others
  have child {parent named : StateId} {children : List StateId}
      (found : (pattern.automaton.tree? parent).map (fun treeNode => treeNode.node.children) =
        some children) (member : named ∈ children) : pattern.automaton.Child parent named := by
    obtain ⟨treeNode, isTree, rfl⟩ := Option.map_eq_some_iff.mp found
    exact ⟨treeNode, isTree, member⟩
  obtain ⟨state, found, owned⟩ := Option.map_eq_some_iff.mp owner
  have below : pattern.automaton.Below pattern.root ⟨4⟩ :=
    .tail (.single (child inSequence (by decide))) (child inRepetition (by decide))
  have inner : pattern.Inner ⟨5⟩ := .glue found owned below
  exact ⟨pattern, built, inner, continuation_is_passed (finished_of_finishedPattern? built)
    (Automaton.offersAlternatives_of_allDisjunctionsOffer offer pattern.root) inner⟩

end PatternGraph
