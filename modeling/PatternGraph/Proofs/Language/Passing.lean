/-
This file says when a pattern can be passed on states of some kind only, such as those that are
entered without consuming input, or those that are no end boundary. The answer can be read off the
syntax tree. A leaf is passed if it is of the kind, a sequence if all its items are passed, and a
disjunction if one alternative is; a lookaround is passed over, and so is whatever may be repeated
zero times.

`Opens` collects what the kind has to be like. A state of the kind is called open. All glue entered
by an empty step is open, and so is every node that is no leaf; the way into a lookbehind need not
be, since it can be avoided.

If the tree says yes, there is an open path, which is put together from those through the children.
If there is an open path from the start to the final state, the word that it reads is made of open
letters. By the language of the tree it begins with a word of every part that has to be passed, so
every such part can be passed.
-/

import PatternGraph.Proofs.Language.Refinement
import PatternGraph.Proofs.Reach.Search

namespace PatternGraph

open Relation

/-! ### Values of a syntax tree -/

namespace SyntaxTree

mutual

/-- The value of a tree by a rule for nodes, which is given the values of the children. -/
def evaluate {α : Type} (rule : Node → List α → α) : SyntaxTree → α
  | .node _ content children => rule content.node (evaluateAll rule children)

/-- The values of a row of trees. -/
def evaluateAll {α : Type} (rule : Node → List α → α) : List SyntaxTree → List α
  | [] => []
  | tree :: rest => evaluate rule tree :: evaluateAll rule rest

end

theorem evaluateAll_eq_map {α : Type} (rule : Node → List α → α) (trees : List SyntaxTree) :
    evaluateAll rule trees = trees.map (evaluate rule) := by
  induction trees with
  | nil => rfl
  | cons tree rest inductionHypothesis =>
    rw [evaluateAll, inductionHypothesis, List.map_cons]

theorem evaluate_node {α : Type} (rule : Node → List α → α) (id : StateId) (content : TreeNode)
    (children : List SyntaxTree) :
    (SyntaxTree.node id content children).evaluate rule =
      rule content.node (children.map (evaluate rule)) := by
  rw [evaluate, evaluateAll_eq_map]

mutual

/-- If values can be translated at each node, they can be translated as a whole. -/
theorem translate_evaluate {α β : Type} {rule : Node → List α → α} {other : Node → List β → β}
    {translate : α → β}
    (agrees : ∀ node values, translate (rule node values) = other node (values.map translate)) :
    (tree : SyntaxTree) → translate (tree.evaluate rule) = tree.evaluate other
  | .node id content children => by
    rw [evaluate, evaluate, agrees, translate_evaluateAll agrees children]

theorem translate_evaluateAll {α β : Type} {rule : Node → List α → α}
    {other : Node → List β → β} {translate : α → β}
    (agrees : ∀ node values, translate (rule node values) = other node (values.map translate)) :
    (trees : List SyntaxTree) → (evaluateAll rule trees).map translate = evaluateAll other trees
  | [] => rfl
  | tree :: rest => by
    rw [evaluateAll, evaluateAll, List.map_cons, translate_evaluate agrees tree,
      translate_evaluateAll agrees rest]

end

end SyntaxTree

/-- Whether a node can be passed, given which leaves can be and whether the children can be. A group
has at most one child, and without one it is passed. -/
def Node.passes (leaf : Leaf → Bool) (node : Node) (children : List Bool) : Bool :=
  match node with
  | .leaf content => leaf content
  | .sequence _ | .capturingGroup .. | .nonCapturingGroup .. | .atomicGroup _ => children.and
  | .disjunction .. => children.or
  | .lookAround .. | .conditional .. => true
  | .repetition _ quantifier => quantifier.minimum == 0 || children.and

/-- What is repeated at least once reads a word of its own at the beginning. -/
theorem Quantifier.exists_prefix_of_mem_language {quantifier : Quantifier}
    {element : Language StateId} {word : List StateId} (required : quantifier.minimum ≠ 0)
    (member : word ∈ quantifier.language element) : ∃ front ∈ element, front <+: word := by
  rw [Quantifier.language, if_neg required] at member
  split at member
  · exact ⟨word, member, List.prefix_rfl⟩
  · obtain ⟨front, inElement, back, -, rfl⟩ := Language.mem_mul.mp member
    exact ⟨front, inElement, List.prefix_append front back⟩

namespace SyntaxTree

/-- Whether a tree can be passed. -/
def passes (leaf : Leaf → Bool) : SyntaxTree → Bool := evaluate (Node.passes leaf)

theorem passes_node (leaf : Leaf → Bool) (id : StateId) (content : TreeNode)
    (children : List SyntaxTree) :
    (SyntaxTree.node id content children).passes leaf =
      content.node.passes leaf (children.map (passes leaf)) :=
  evaluate_node (Node.passes leaf) id content children

theorem and_passes_iff {leaf : Leaf → Bool} {trees : List SyntaxTree} :
    (trees.map (passes leaf)).and = true ↔ ∀ tree ∈ trees, tree.passes leaf = true := by
  simp [List.and]

theorem or_passes_iff {leaf : Leaf → Bool} {trees : List SyntaxTree} :
    (trees.map (passes leaf)).or = true ↔ ∃ tree ∈ trees, tree.passes leaf = true := by
  simp [List.or]

end SyntaxTree

namespace Automaton

/-! ### Open states -/

/-- A kind of states that is known of the leaves and includes all other nodes and all glue that is
entered by an empty step. A leaf that is no letter is of the kind. -/
structure Opens (automaton : Automaton) (leaf : Leaf → Bool) (isOpen : StateId → Prop) : Prop where
  leaf_iff {id : StateId} {treeNode : TreeNode} {content : Leaf} :
    automaton.tree? id = some treeNode → treeNode.node = .leaf content →
      (isOpen id ↔ leaf content = true)
  inner {id : StateId} {treeNode : TreeNode} : automaton.tree? id = some treeNode →
    (∀ content, treeNode.node ≠ .leaf content) → isOpen id
  glue {id : StateId} {state : State} : automaton.state? id = some state → state.tree? = none →
    state.transition = .epsilon → isOpen id
  silent {content : Leaf} : content.isLetter = false → leaf content = true

section

variable {automaton : Automaton} {leaf : Leaf → Bool} {isOpen : StateId → Prop}

/-- An open path reads a word of open letters. -/
theorem OpenPath.exists_reads {id goal : StateId} (path : automaton.OpenPath isOpen id goal) :
    ∃ length word, automaton.Reads length id word goal ∧ ∀ letter ∈ word, isOpen letter := by
  induction path using ReflTransGen.head_induction_on with
  | refl => exact ⟨0, [], .here goal, by simp⟩
  | @head id next step _ inductionHypothesis =>
    obtain ⟨isOpenHere, moves⟩ := step
    obtain ⟨length, word, reads, eachOpen⟩ := inductionHypothesis
    refine ⟨length + 1, _, .move moves reads, fun letter member => ?_⟩
    rcases List.mem_append.mp member with here | later
    · obtain ⟨inList, -⟩ := List.mem_filter.mp here
      exact List.mem_singleton.mp inList ▸ isOpenHere
    · exact eachOpen letter later

/-- An open path may begin with a move from an open state. -/
theorem OpenPath.step {id middle next : StateId} (isOpenHere : isOpen id)
    {nexts : List StateId} (offered : automaton.successors id = .ok nexts)
    (member : middle ∈ nexts) (path : automaton.OpenPath isOpen middle next) :
    automaton.OpenPath isOpen id next :=
  .head ⟨isOpenHere, nexts, offered, member⟩ path

/-! ### From the tree to a path -/

section

variable {id next : StateId} {treeNode : TreeNode}
  (isTree : automaton.tree? id = some treeNode)

include isTree

/-- An open node without anything to move into leads to its continuation. -/
theorem openPath_skipped (stored : treeNode.continuation = some next) (isOpenHere : isOpen id)
    (leaves : treeNode.successors = treeNode.exit.map fun after => [after]) :
    automaton.OpenPath isOpen id next :=
  .step isOpenHere (successors_of_exit isTree stored leaves) (List.mem_singleton_self _) .refl

/-- An open node that moves into one other state leads on from there. -/
theorem openPath_group {element : StateId} (isOpenHere : isOpen id)
    (enters : treeNode.successors = .ok [element])
    (through : automaton.OpenPath isOpen element next) : automaton.OpenPath isOpen id next :=
  .step isOpenHere ((successors_of_tree? isTree).trans enters) (List.mem_singleton_self _) through

end

variable (opens : automaton.Opens leaf isOpen)

include opens

section

variable {id next : StateId} {treeNode : TreeNode}
  (isTree : automaton.tree? id = some treeNode)

include isTree

/-- One alternative that can be passed is enough. -/
theorem openPath_disjunction {alternatives : List StateId} {bars : List SourceCharacter}
    (content : treeNode.node = .disjunction alternatives bars) {alternative : StateId}
    (member : alternative ∈ alternatives)
    (through : automaton.OpenPath isOpen alternative next) :
    automaton.OpenPath isOpen id next := by
  refine .step (opens.inner isTree (by simp [content])) ?_ member through
  rw [successors_of_tree? isTree, TreeNode.successors, content]

variable (stored : treeNode.continuation = some next)

include stored

/-- The end of a node leads to what follows the node. -/
theorem openPath_end {close : StateId} {state : State}
    (found : automaton.state? close = some state)
    (ends : state = .endOfCapturingGroup id ∨ state = .endOfLookaround id ∨
      state = .endOfConditional id) : automaton.OpenPath isOpen close next := by
  have isOpenHere : isOpen close := by
    rcases ends with rfl | rfl | rfl <;> exact opens.glue found rfl rfl
  exact .step isOpenHere (successors_endOf found ends isTree stored)
    (List.mem_singleton_self _) .refl

theorem openPath_sequence {items : List StateId} (content : treeNode.node = .sequence items)
    (through : automaton.OpenPath isOpen (items.headD next) next) :
    automaton.OpenPath isOpen id next :=
  .step (opens.inner isTree (by simp [content])) (successors_sequence isTree content stored)
    (List.mem_singleton_self _) through

theorem openPath_capturingGroup {body : GroupBody} {name : Option String} {number : Nat}
    (content : treeNode.node = .capturingGroup body name number)
    (joints : automaton.SealedJoints automaton.FollowedBy id treeNode.node)
    (through : ∀ after, automaton.FollowedBy body.element after →
      automaton.OpenPath isOpen body.element after) : automaton.OpenPath isOpen id next := by
  rw [content] at joints
  obtain ⟨close, followed, held⟩ := joints
  refine openPath_group isTree (opens.inner isTree (by simp [content]))
    (by rw [TreeNode.successors, content]) ?_
  exact (through close followed).trans (openPath_end opens isTree stored held (Or.inl rfl))

/-- The way into a lookaround need not be open, but the way past it is. -/
theorem openPath_lookAround {body : GroupBody} {polarity : Polarity} {direction : Direction}
    {entry : StateId} (content : treeNode.node = .lookAround body polarity direction entry) :
    automaton.OpenPath isOpen id next :=
  .step (opens.inner isTree (by simp [content])) (successors_lookAround isTree content stored)
    (List.mem_cons_of_mem _ (List.mem_singleton_self _)) .refl

end

/-- A repetition leads to its end if its element may be skipped or can be passed. -/
theorem openPath_repetition {id element next : StateId} {treeNode : TreeNode}
    {quantifier : Quantifier} (isTree : automaton.tree? id = some treeNode)
    (content : treeNode.node = .repetition element quantifier)
    (joints : automaton.OpenJoints automaton.FollowedBy id next treeNode)
    (through : quantifier.minimum = 0 ∨ ∀ after, automaton.FollowedBy element after →
      automaton.OpenPath isOpen element after) :
    automaton.OpenPath isOpen id next := by
  simp only [OpenJoints, content] at joints
  obtain ⟨close, stored, held, joint⟩ := joints
  have isOpenHere : isOpen id := opens.inner isTree (by simp [content])
  have moves := successors_repetition isTree content stored
  have leaves : automaton.OpenPath isOpen close next :=
    .step (opens.glue held rfl rfl) (successors_of_own held rfl)
      (List.mem_singleton_self _) .refl
  by_cases optional : quantifier.minimum = 0
  · refine .step isOpenHere moves ?_ leaves
    rw [if_neg (by omega)]
    split_ifs <;> simp
  · have passes := through.resolve_left optional
    rw [if_pos (by omega)] at moves
    refine .step isOpenHere moves (List.mem_singleton_self _) ?_
    unfold RepetitionJoint at joint
    split at joint
    · exact (passes close joint).trans leaves
    · rw [if_pos (by omega)] at joint
      obtain ⟨branch, followed, choices⟩ := joint
      refine (passes branch followed).trans ?_
      refine OpenPath.step (opens.glue choices rfl rfl) (successors_branch choices) ?_ leaves
      cases quantifier.isReluctant <;> simp

/-- If a tree can be passed, an open path leads from it to what follows it. -/
theorem openPath_of_passes (jointed : automaton.Jointed []) {tree : SyntaxTree}
    (described : automaton.Describes tree) :
    ∀ next, automaton.FollowedBy tree.id next → tree.passes leaf = true →
      automaton.OpenPath isOpen tree.id next := by
  induction described with
  | @node id treeNode trees isTree named described inductionHypothesis =>
    intro next followed passes
    obtain ⟨same, isTreeToo, continues⟩ := followed
    cases isTree.symm.trans isTreeToo
    have sealedJoints := (jointed.sealedAt isTree).mono (.refl _) Promised.followedBy
    have openJoints := (jointed.openAt isTree continues).mono (.refl _) Promised.followedBy
    rw [SyntaxTree.passes_node] at passes
    show automaton.OpenPath isOpen id next
    have through (all : (trees.map (SyntaxTree.passes leaf)).and = true) (tree : SyntaxTree)
        (member : tree ∈ trees) (after : StateId)
        (followed : automaton.FollowedBy tree.id after) :
        automaton.OpenPath isOpen tree.id after :=
      inductionHypothesis tree member after followed
        (SyntaxTree.and_passes_iff.mp all tree member)
    have only (all : (trees.map (SyntaxTree.passes leaf)).and = true) {element : StateId}
        (child : trees.map SyntaxTree.id = [element]) (after : StateId)
        (followed : automaton.FollowedBy element after) :
        automaton.OpenPath isOpen element after := by
      obtain ⟨tree, rfl, rfl⟩ := List.map_eq_singleton_iff.mp child
      exact through all tree (List.mem_singleton_self tree) after followed
    cases content : treeNode.node with
    | leaf leafContent =>
      rw [Continues, content] at continues
      rw [content, Node.passes] at passes
      exact openPath_skipped isTree continues ((opens.leaf_iff isTree content).mpr passes)
        (by rw [TreeNode.successors, content])
    | sequence items =>
      rw [Continues, content] at continues
      rw [content, SealedJoints] at sealedJoints
      rw [OpenJoints, content] at openJoints
      rw [content, Node.children] at named
      rw [content, Node.passes] at passes
      subst named
      exact openPath_sequence opens isTree continues content
        ((inRow_of_joints sealedJoints openJoints).related (fun _ => .refl) ReflTransGen.trans
          (through passes))
    | disjunction alternatives bars =>
      rw [OpenJoints, content] at openJoints
      rw [content, Node.children] at named
      rw [content, Node.passes] at passes
      subst named
      obtain ⟨tree, member, passesTree⟩ := SyntaxTree.or_passes_iff.mp passes
      have isAlternative : tree.id ∈ trees.map SyntaxTree.id := List.mem_map_of_mem member
      exact openPath_disjunction opens isTree content isAlternative
        (inductionHypothesis tree member next (openJoints _ isAlternative) passesTree)
    | capturingGroup body name number =>
      rw [Continues, content] at continues
      rw [content, Node.children] at named
      rw [content, Node.passes] at passes
      exact openPath_capturingGroup opens isTree continues content sealedJoints
        (only passes named)
    | nonCapturingGroup body enabled disabled =>
      rw [Continues, content] at continues
      rw [content, Node.children] at named
      rw [OpenJoints, content] at openJoints
      rw [content, Node.passes] at passes
      have isOpenHere : isOpen id := opens.inner isTree (by simp [content])
      cases body with
      | none =>
        exact openPath_skipped isTree continues isOpenHere (by rw [TreeNode.successors, content])
      | some body =>
        exact openPath_group isTree isOpenHere (by rw [TreeNode.successors, content])
          (only passes named next (openJoints body rfl))
    | atomicGroup body =>
      rw [content, Node.children] at named
      rw [OpenJoints, content] at openJoints
      rw [content, Node.passes] at passes
      exact openPath_group isTree (opens.inner isTree (by simp [content]))
        (by rw [TreeNode.successors, content]) (only passes named next openJoints)
    | lookAround body polarity direction entry =>
      rw [Continues, content] at continues
      exact openPath_lookAround opens isTree continues content
    | repetition element quantifier =>
      rw [content, Node.children] at named
      rw [content, Node.passes, Bool.or_eq_true, beq_iff_eq] at passes
      exact openPath_repetition opens isTree content openJoints
        (passes.imp_right fun all => only all named)
    | conditional condition yes bar no =>
      rw [Continues, content] at continues
      exact openPath_skipped isTree continues (opens.inner isTree (by simp [content]))
        (by rw [TreeNode.successors, content])

/-! ### From a word to the tree -/

omit opens in
/-- A word of open letters that is read in a row of trees is read in each of them. -/
theorem forall_of_mem_prod {trees : List SyntaxTree} {passed : SyntaxTree → Prop}
    (read : ∀ tree ∈ trees, ∀ word ∈ tree.language, (∀ letter ∈ word, isOpen letter) → passed tree)
    {word : List StateId} (member : word ∈ (trees.map SyntaxTree.language).prod)
    (eachOpen : ∀ letter ∈ word, isOpen letter) : ∀ tree ∈ trees, passed tree := by
  induction trees generalizing word with
  | nil => simp
  | cons first rest inductionHypothesis =>
    rw [List.map_cons, List.prod_cons] at member
    obtain ⟨front, inFirst, back, inRest, rfl⟩ := Language.mem_mul.mp member
    obtain ⟨frontOpen, backOpen⟩ := List.forall_mem_append.mp eachOpen
    exact List.forall_mem_cons.mpr
      ⟨read first List.mem_cons_self front inFirst frontOpen,
        inductionHypothesis (fun tree inTrees => read tree (List.mem_cons_of_mem _ inTrees))
          inRest backOpen⟩

/-- A tree whose language has a word of open letters can be passed. -/
theorem passes_of_mem_language {tree : SyntaxTree} (described : automaton.Describes tree) :
    ∀ word ∈ tree.language, (∀ letter ∈ word, isOpen letter) → tree.passes leaf = true := by
  induction described with
  | @node id treeNode trees isTree named described inductionHypothesis =>
    intro word member eachOpen
    rw [SyntaxTree.language, SyntaxTree.languages_eq_map] at member
    rw [SyntaxTree.passes_node]
    have all {front : List StateId} (inProduct : front ∈ (trees.map SyntaxTree.language).prod)
        (frontOpen : ∀ letter ∈ front, isOpen letter) :
        (trees.map (SyntaxTree.passes leaf)).and = true :=
      SyntaxTree.and_passes_iff.mpr (forall_of_mem_prod inductionHypothesis inProduct frontOpen)
    cases content : treeNode.node with
    | leaf leafContent =>
      rw [content, Node.language] at member
      rw [Node.passes]
      cases letter : leafContent.isLetter with
      | false => exact opens.silent letter
      | true =>
        rw [if_pos letter] at member
        obtain rfl := Set.mem_singleton_iff.mp member
        exact (opens.leaf_iff isTree content).mp (eachOpen id (List.mem_singleton_self _))
    | disjunction alternatives bars =>
      rw [content, Node.language] at member
      obtain ⟨language, inLanguages, inLanguage⟩ := mem_sum_iff.mp member
      obtain ⟨tree, inTrees, rfl⟩ := List.mem_map.mp inLanguages
      exact SyntaxTree.or_passes_iff.mpr
        ⟨tree, inTrees, inductionHypothesis tree inTrees word inLanguage eachOpen⟩
    | repetition element quantifier =>
      rw [content, Node.language] at member
      rw [Node.passes, Bool.or_eq_true, beq_iff_eq, or_iff_not_imp_left]
      intro required
      obtain ⟨front, inProduct, isPrefix⟩ :=
        Quantifier.exists_prefix_of_mem_language required member
      exact all inProduct fun letter inFront => eachOpen letter (isPrefix.subset inFront)
    | sequence _ | capturingGroup _ _ _ | nonCapturingGroup _ _ _ | atomicGroup _ =>
      rw [content, Node.language] at member
      exact all member eachOpen
    | lookAround _ _ _ _ | conditional _ _ _ _ => rfl

end

end Automaton

/-! ### Finished patterns -/

namespace Pattern.Sound

variable {pattern : Pattern} (sound : pattern.Sound) {tree : SyntaxTree}
  (described : pattern.automaton.Describes tree) (same : tree.id = pattern.root)
  {leaf : Leaf → Bool} {isOpen : StateId → Prop}
  (opens : pattern.automaton.Opens leaf isOpen)

include sound described same opens

/-- If the tree can be passed, an open path leads from the start to the final state. -/
theorem openPath (passes : tree.passes leaf = true) :
    pattern.automaton.OpenPath isOpen pattern.start pattern.final := by
  obtain ⟨flags, startHeld⟩ := sound.startHeld
  have fromRoot := Automaton.openPath_of_passes opens sound.jointed described pattern.final
    (same ▸ sound.followed) passes
  rw [same] at fromRoot
  exact .step (opens.glue startHeld rfl rfl) (Automaton.successors_of_own startHeld rfl)
    (List.mem_singleton_self _) fromRoot

/-- If an open path leads from the start to a final state, the tree can be passed. -/
theorem passes_of_openPath {final : StateId} {flags : FlagSet}
    (finalHeld : pattern.automaton.state? final = some (.final flags))
    (path : pattern.automaton.OpenPath isOpen pattern.start final) : tree.passes leaf = true := by
  obtain ⟨startFlags, startHeld⟩ := sound.startHeld
  have fromRoot := Automaton.realizes_tree finalHeld sound.jointed described pattern.final
    (same ▸ sound.followed)
  rw [same] at fromRoot
  have realized := Automaton.realizes_of_glue finalHeld startHeld rfl
    (Automaton.successors_of_own startHeld rfl) fromRoot
  -- The path may pass what follows the root more than once; what it reads before decides.
  obtain ⟨length, word, reads, eachOpen⟩ := path.exists_reads
  obtain ⟨front, inLanguage, back, -, rfl, -⟩ := realized.sound reads
  exact Automaton.passes_of_mem_language opens described front inLanguage
    (List.forall_mem_append.mp eachOpen).1

end Pattern.Sound

end PatternGraph
