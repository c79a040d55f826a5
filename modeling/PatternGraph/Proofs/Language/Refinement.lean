/-
This file proves that linking preserves the meaning of a pattern: the words of the graph are the
language of the syntax tree. By induction on the tree the graph realizes the language of every node
between the node and what follows it. Each kind of node has one lemma, which reads the path through
the node off the rules by which its children were linked. The joint of a repetition decides which
state closes its loop, the repetition itself or the branch behind its element; the end of a group
returns to what follows the group, since it borrows the continuation of its owner.
-/

import PatternGraph.Proofs.Finish
import PatternGraph.Proofs.Language.Realization

namespace PatternGraph

open scoped Computability

namespace Automaton

theorem word_of_isLetter_eq_false {automaton : Automaton} {id : StateId}
    (silent : automaton.isLetter id = false) : automaton.word [id] = [] := by
  simp [word, silent]

theorem word_glue {automaton : Automaton} {id : StateId} {state : State}
    (found : automaton.state? id = some state) (glue : state.tree? = none) :
    automaton.word [id] = [] := by
  refine word_of_isLetter_eq_false ?_
  simp [isLetter, tree?_of_state? found, glue]

theorem word_inner {automaton : Automaton} {id : StateId} {treeNode : TreeNode}
    (isTree : automaton.tree? id = some treeNode)
    (inner : ∀ content, treeNode.node ≠ .leaf content) : automaton.word [id] = [] := by
  refine word_of_isLetter_eq_false ?_
  rw [isLetter, isTree, Option.map_some]
  cases content : treeNode.node with
  | leaf leaf => exact absurd content (inner leaf)
  | _ => rfl

/-- The trees of a row follow each other, and the last is followed by `next`. -/
def InRow (automaton : Automaton) (next : StateId) : List SyntaxTree → Prop
  | [] => True
  | tree :: rest =>
    automaton.FollowedBy tree.id ((rest.map SyntaxTree.id).headD next) ∧ InRow automaton next rest

/-- The joints of a sequence put its items in a row. -/
theorem inRow_of_joints {automaton : Automaton} {next : StateId} {trees : List SyntaxTree}
    (chained : ∀ link ∈ Link.chain (trees.map SyntaxTree.id),
      automaton.FollowedBy link.node link.next)
    (ended : ∀ last ∈ (trees.map SyntaxTree.id).getLast?, automaton.FollowedBy last next) :
    automaton.InRow next trees := by
  induction trees with
  | nil => trivial
  | cons first rest inductionHypothesis =>
    cases rest with
    | nil => exact ⟨ended first.id rfl, trivial⟩
    | cons second others =>
      refine ⟨chained ⟨first.id, second.id⟩ List.mem_cons_self,
        inductionHypothesis (fun link member => chained link ?_) fun last member => ended last ?_⟩
      · exact List.mem_cons_of_mem _ member
      · simpa using member

/-- If each tree of a row is related to what follows it, the row is related to what follows it. -/
theorem InRow.related {automaton : Automaton} {related : StateId → StateId → Prop}
    (refl : ∀ id, related id id)
    (trans : ∀ {id middle next}, related id middle → related middle next → related id next)
    {next : StateId} {trees : List SyntaxTree} (row : automaton.InRow next trees)
    (each : ∀ tree ∈ trees, ∀ after, automaton.FollowedBy tree.id after →
      related tree.id after) : related ((trees.map SyntaxTree.id).headD next) next := by
  induction trees with
  | nil => exact refl next
  | cons first rest inductionHypothesis =>
    obtain ⟨followed, rowRest⟩ := row
    rw [List.map_cons, List.headD_cons]
    exact trans (each first List.mem_cons_self _ followed)
      (inductionHypothesis rowRest fun tree member => each tree (List.mem_cons_of_mem _ member))

/-- Trees in a row realize the product of their languages. -/
theorem realizes_row {automaton : Automaton} {final next : StateId} {trees : List SyntaxTree}
    (realized : ∀ tree ∈ trees, ∀ after, automaton.FollowedBy tree.id after →
      automaton.Realizes final tree.id after tree.language)
    (row : automaton.InRow next trees) :
    automaton.Realizes final ((trees.map SyntaxTree.id).headD next) next
      (trees.map SyntaxTree.language).prod := by
  induction trees with
  | nil => exact .refl automaton final next
  | cons first rest inductionHypothesis =>
    obtain ⟨followed, rowRest⟩ := row
    rw [List.map_cons, List.map_cons, List.prod_cons, List.headD_cons]
    exact (realized first List.mem_cons_self _ followed).trans
      (inductionHypothesis (fun tree member => realized tree (List.mem_cons_of_mem _ member))
        rowRest)

section

variable {automaton : Automaton} {final : StateId} {flags : FlagSet}
  (finalHeld : automaton.state? final = some (.final flags))

include finalHeld

theorem ne_final_of_moves {id middle : StateId} (moves : automaton.successors id = .ok [middle]) :
    id ≠ final := by
  rintro rfl
  cases (successors_of_final finalHeld).symm.trans moves

theorem ne_final_of_tree? {id : StateId} {treeNode : TreeNode}
    (isTree : automaton.tree? id = some treeNode) : id ≠ final := by
  rintro rfl
  cases (tree?_eq_some_iff.mp isTree).symm.trans finalHeld

theorem ne_final_of_branch {id owner : StateId} {choices : List StateId}
    (found : automaton.state? id = some (.branch owner choices)) : id ≠ final := by
  rintro rfl
  cases found.symm.trans finalHeld

/-- Glue with one successor passes on the language of what it leads to. -/
theorem realizes_of_glue {id middle next : StateId} {state : State}
    {language : Language StateId} (found : automaton.state? id = some state)
    (glue : state.tree? = none) (moves : automaton.successors id = .ok [middle])
    (realized : automaton.Realizes final middle next language) :
    automaton.Realizes final id next language :=
  realized.step (ne_final_of_moves finalHeld moves) (word_glue found glue) moves

/-- Whatever glue there is before the element of a lookaround passes on its language. -/
theorem realizes_entry {id entry element next : StateId} {polarity : Polarity}
    {direction : Direction} {language : Language StateId}
    (enters : automaton.EntersElement id entry element polarity direction)
    (realized : automaton.Realizes final element next language) :
    automaton.Realizes final entry next language := by
  cases polarity with
  | positive =>
    cases direction with
    | ahead => exact enters ▸ realized
    | behind =>
      exact realizes_of_glue finalHeld enters rfl (successors_of_own enters rfl) realized
  | negative =>
    cases direction with
    | ahead => exact realizes_of_glue finalHeld enters rfl (successors_of_own enters rfl) realized
    | behind =>
      obtain ⟨inner, outside, inside⟩ := enters
      refine realizes_of_glue finalHeld outside rfl (successors_of_own outside rfl) ?_
      exact realizes_of_glue finalHeld inside rfl (successors_of_own inside rfl) realized

section

variable {id next : StateId} {treeNode : TreeNode}
  (isTree : automaton.tree? id = some treeNode) (stored : treeNode.continuation = some next)

include isTree stored

theorem realizes_leaf {leaf : Leaf} (content : treeNode.node = .leaf leaf) :
    automaton.Realizes final id next (if leaf.isLetter then {[id]} else 1) := by
  have moves : automaton.successors id = .ok [next] :=
    successors_of_exit isTree stored (by rw [TreeNode.successors, content])
  have read : automaton.word [id] = if leaf.isLetter then [id] else [] := by
    simp [word, isLetter, isTree, content, List.filter_cons]
  have realized := Realizes.letter (ne_final_of_moves finalHeld moves) moves
  rw [read] at realized
  split at realized
  · rename_i letter
    rw [if_pos letter]
    exact realized
  · rename_i other
    rw [if_neg other]
    exact realized

/-- A node that is passed over reads nothing. -/
theorem realizes_skipped (inner : ∀ content, treeNode.node ≠ .leaf content)
    (leaves : treeNode.successors = treeNode.exit.map fun after => [after]) :
    automaton.Realizes final id next 1 :=
  (Realizes.refl automaton final next).step (ne_final_of_tree? finalHeld isTree)
    (word_inner isTree inner) (successors_of_exit isTree stored leaves)

theorem realizes_sequence {items : List StateId} (content : treeNode.node = .sequence items)
    {language : Language StateId}
    (realized : automaton.Realizes final (items.headD next) next language) :
    automaton.Realizes final id next language := by
  exact realized.step (ne_final_of_tree? finalHeld isTree)
    (word_inner isTree (by simp [content])) (successors_sequence isTree content stored)

/-- The end of the node returns to what follows the node. -/
theorem realizes_end {close : StateId} {state : State}
    (found : automaton.state? close = some state)
    (ends : state = .endOfCapturingGroup id ∨ state = .endOfLookaround id ∨
      state = .endOfConditional id) : automaton.Realizes final close next 1 := by
  have glue : state.tree? = none := by rcases ends with rfl | rfl | rfl <;> rfl
  exact realizes_of_glue finalHeld found glue (successors_endOf found ends isTree stored)
    (.refl automaton final next)

theorem realizes_capturingGroup {body : GroupBody} {name : Option String} {number : Nat}
    (content : treeNode.node = .capturingGroup body name number)
    (joints : automaton.SealedJoints automaton.FollowedBy id treeNode.node)
    {language : Language StateId}
    (realized : ∀ after, automaton.FollowedBy body.element after →
      automaton.Realizes final body.element after language) :
    automaton.Realizes final id next language := by
  rw [content] at joints
  obtain ⟨close, followed, held⟩ := joints
  have whole := (realized close followed).trans
    (realizes_end finalHeld isTree stored held (Or.inl rfl))
  rw [mul_one] at whole
  refine whole.step (ne_final_of_tree? finalHeld isTree)
    (word_inner isTree (by simp [content])) ?_
  rw [successors_of_tree? isTree, TreeNode.successors, content]

theorem realizes_lookAround {body : GroupBody} {polarity : Polarity} {direction : Direction}
    {entry : StateId} (content : treeNode.node = .lookAround body polarity direction entry)
    (joints : automaton.SealedJoints automaton.FollowedBy id treeNode.node)
    (entered : automaton.Entered id treeNode.node) {language : Language StateId}
    (realized : ∀ after, automaton.FollowedBy body.element after →
      automaton.Realizes final body.element after language) :
    automaton.Realizes final id next (1 + language) := by
  rw [content] at joints entered
  obtain ⟨close, followed, held⟩ := joints
  have leaves : automaton.Realizes final close next 1 :=
    realizes_end finalHeld isTree stored held (Or.inr (Or.inl rfl))
  have inside := realizes_entry finalHeld entered ((realized close followed).trans leaves)
  rw [mul_one] at inside
  exact inside.optional (ne_final_of_tree? finalHeld isTree)
    (word_inner isTree (by simp [content])) (Or.inl (successors_lookAround isTree content stored))

omit stored in
/-- A group without an end of its own is passed by way of its element. -/
theorem realizes_group {element : StateId} (inner : ∀ content, treeNode.node ≠ .leaf content)
    (enters : treeNode.successors = .ok [element]) {language : Language StateId}
    (realized : automaton.Realizes final element next language) :
    automaton.Realizes final id next language :=
  realized.step (ne_final_of_tree? finalHeld isTree) (word_inner isTree inner)
    ((successors_of_tree? isTree).trans enters)

omit stored in
theorem realizes_disjunction {trees : List SyntaxTree} {bars : List SourceCharacter}
    (content : treeNode.node = .disjunction (trees.map SyntaxTree.id) bars)
    (realized : ∀ tree ∈ trees, automaton.Realizes final tree.id next tree.language) :
    automaton.Realizes final id next (trees.map SyntaxTree.language).sum := by
  have moves : automaton.successors id =
      .ok ((trees.map fun tree => (tree.id, tree.language)).map Prod.fst) := by
    rw [successors_of_tree? isTree, TreeNode.successors, content, List.map_map]
    rfl
  have chosen : automaton.Realizes final id next
      ((trees.map fun tree => (tree.id, tree.language)).map Prod.snd).sum := by
    refine Realizes.choice (ne_final_of_tree? finalHeld isTree)
      (word_inner isTree (by simp [content])) _ moves fun part member => ?_
    obtain ⟨tree, inTrees, rfl⟩ := List.mem_map.mp member
    exact realized tree inTrees
  rw [List.map_map] at chosen
  exact chosen

/-- The loop of a repetition is closed by the repetition itself if its element may be skipped, and
otherwise by the branch behind its element. Either way the repetition is left by way of its end. -/
theorem realizes_turns {element : StateId} {quantifier : Quantifier}
    (content : treeNode.node = .repetition element quantifier)
    (joint : automaton.RepetitionJoint automaton.FollowedBy id next element quantifier)
    {language : Language StateId}
    (realized : ∀ after, automaton.FollowedBy element after →
      automaton.Realizes final element after language) :
    automaton.Realizes final id next (quantifier.language language) := by
  have apart := ne_final_of_tree? finalHeld isTree
  have silent : automaton.word [id] = [] := word_inner isTree (by simp [content])
  have moves := successors_repetition isTree content stored
  have offered (optional : quantifier.minimum = 0) (some_turn : quantifier.maximum ≠ some 0) :
      automaton.successors id = .ok [element, next] ∨
        automaton.successors id = .ok [next, element] := by
    rw [moves, if_neg (by omega), if_neg some_turn]
    cases quantifier.isReluctant
    · exact Or.inl rfl
    · exact Or.inr rfl
  unfold RepetitionJoint at joint
  unfold Quantifier.language
  by_cases optional : quantifier.minimum = 0
  · rw [if_pos optional]
    by_cases never : quantifier.maximum = some 0
    · rw [if_pos never]
      rw [if_neg (by omega), if_pos never] at moves
      exact (Realizes.refl automaton final next).step apart silent moves
    · rw [if_neg never]
      by_cases once : quantifier.maximum = some 1
      · rw [if_pos once] at joint ⊢
        exact (realized next joint).optional apart silent (offered optional never)
      · rw [if_neg once] at joint ⊢
        rw [if_neg (by omega)] at joint
        exact (realized id joint).star apart silent (offered optional never)
  · rw [if_neg optional]
    rw [if_pos (by omega)] at moves
    by_cases once : quantifier.maximum = some 1
    · rw [if_pos once] at joint ⊢
      exact (realized next joint).step apart silent moves
    · rw [if_neg once] at joint ⊢
      rw [if_pos (by omega)] at joint
      obtain ⟨branch, followed, choices⟩ := joint
      have turn : automaton.Realizes final id branch language :=
        (realized branch followed).step apart silent moves
      have branchMoves : automaton.successors branch = .ok [id, next] ∨
          automaton.successors branch = .ok [next, id] := by
        rw [successors_branch choices]
        cases quantifier.isReluctant
        · exact Or.inl rfl
        · exact Or.inr rfl
      exact turn.trans (turn.star (ne_final_of_branch finalHeld choices)
        (word_glue choices rfl) branchMoves)

omit stored in
theorem realizes_repetition {element : StateId} {quantifier : Quantifier}
    (content : treeNode.node = .repetition element quantifier)
    (joints : automaton.OpenJoints automaton.FollowedBy id next treeNode)
    {language : Language StateId}
    (realized : ∀ after, automaton.FollowedBy element after →
      automaton.Realizes final element after language) :
    automaton.Realizes final id next (quantifier.language language) := by
  simp only [OpenJoints, content] at joints
  obtain ⟨close, stored, held, joint⟩ := joints
  have leaves : automaton.Realizes final close next 1 :=
    realizes_of_glue finalHeld held rfl (successors_of_own held rfl)
      (.refl automaton final next)
  have whole := (realizes_turns finalHeld isTree stored content joint realized).trans leaves
  rwa [mul_one] at whole

end

/-- The graph realizes the language of every tree of nodes that are linked by the rules. -/
theorem realizes_tree (jointed : automaton.Jointed []) {tree : SyntaxTree}
    (described : automaton.Describes tree) :
    ∀ next, automaton.FollowedBy tree.id next →
      automaton.Realizes final tree.id next tree.language := by
  induction described with
  | @node id treeNode trees isTree named described realized =>
    intro next followed
    obtain ⟨same, isTreeToo, continues⟩ := followed
    cases isTree.symm.trans isTreeToo
    have sealedJoints := (jointed.sealedAt isTree).mono (.refl _) Promised.followedBy
    have openJoints := (jointed.openAt isTree continues).mono (.refl _) Promised.followedBy
    rw [SyntaxTree.language, SyntaxTree.languages_eq_map]
    show automaton.Realizes final id next _
    have only {element : StateId} (child : trees.map SyntaxTree.id = [element]) (after : StateId)
        (follows : automaton.FollowedBy element after) :
        automaton.Realizes final element after (trees.map SyntaxTree.language).prod := by
      obtain ⟨tree, rfl, rfl⟩ := List.map_eq_singleton_iff.mp child
      rw [List.map_singleton, List.prod_singleton]
      exact realized tree (List.mem_singleton_self _) after follows
    cases content : treeNode.node with
    | leaf leaf =>
      rw [Continues, content] at continues
      exact realizes_leaf finalHeld isTree continues content
    | sequence items =>
      rw [Continues, content] at continues
      rw [content, SealedJoints] at sealedJoints
      rw [OpenJoints, content] at openJoints
      rw [content, Node.children] at named
      subst named
      exact realizes_sequence finalHeld isTree continues content
        (realizes_row realized (inRow_of_joints sealedJoints openJoints))
    | disjunction alternatives bars =>
      rw [OpenJoints, content] at openJoints
      rw [content, Node.children] at named
      subst named
      exact realizes_disjunction finalHeld isTree content fun tree member =>
        realized tree member next (openJoints _ (List.mem_map_of_mem member))
    | capturingGroup body name number =>
      rw [Continues, content] at continues
      rw [content, Node.children] at named
      exact realizes_capturingGroup finalHeld isTree continues content sealedJoints (only named)
    | nonCapturingGroup body enabled disabled =>
      rw [Continues, content] at continues
      rw [content, Node.children] at named
      rw [OpenJoints, content] at openJoints
      cases body with
      | none =>
        obtain rfl := List.map_eq_nil_iff.mp named
        exact realizes_skipped finalHeld isTree continues (by simp [content])
          (by rw [TreeNode.successors, content])
      | some inner =>
        exact realizes_group finalHeld isTree (by simp [content])
          (by rw [TreeNode.successors, content]) (only named next (openJoints inner rfl))
    | atomicGroup body =>
      rw [content, Node.children] at named
      rw [OpenJoints, content] at openJoints
      exact realizes_group finalHeld isTree (by simp [content])
        (by rw [TreeNode.successors, content]) (only named next openJoints)
    | lookAround body polarity direction entry =>
      rw [Continues, content] at continues
      rw [content, Node.children] at named
      exact realizes_lookAround finalHeld isTree continues content sealedJoints
        (jointed.enteredAt isTree) (only named)
    | repetition element quantifier =>
      rw [content, Node.children] at named
      exact realizes_repetition finalHeld isTree content openJoints (only named)
    | conditional condition yes bar no =>
      rw [Continues, content] at continues
      exact realizes_skipped finalHeld isTree continues (by simp [content])
        (by rw [TreeNode.successors, content])

end

end Automaton

/-- The words of a finished pattern are those of its syntax tree. -/
theorem words_eq_language {pattern : Pattern} (finished : pattern.Finished) :
    ∃ tree, pattern.automaton.fullTree pattern.root = .ok tree ∧
      pattern.words = tree.language := by
  have sound := finished.sound
  obtain ⟨flags, finalHeld⟩ := sound.finalHeld
  obtain ⟨startFlags, startHeld⟩ := sound.startHeld
  obtain ⟨tree, unfolds, same, described⟩ := sound.isTree.unfolds
  refine ⟨tree, unfolds, Language.ext fun word => ?_⟩
  have realized : pattern.automaton.Realizes pattern.final pattern.start pattern.final
      tree.language := by
    have fromRoot := Automaton.realizes_tree finalHeld sound.jointed described pattern.final
      (same ▸ sound.followed)
    rw [same] at fromRoot
    exact Automaton.realizes_of_glue finalHeld startHeld rfl
      (Automaton.successors_of_own startHeld rfl) fromRoot
  have ends : pattern.automaton.word [pattern.final] = [] := Automaton.word_glue finalHeld rfl
  have asPath : word ∈ pattern.words ↔ ∃ length front,
      pattern.automaton.Reads length pattern.start front pattern.final ∧
        front ++ pattern.automaton.word [pattern.final] = word := Automaton.exists_walk_iff
  rw [asPath, ends]
  simp only [List.append_nil, exists_eq_right]
  refine ⟨fun ⟨length, reads⟩ => ?_, fun member => realized.complete member⟩
  -- What is left of a path behind the final state is empty, since nothing follows that state.
  obtain ⟨front, inLanguage, back, shorter, rfl, -, left⟩ := realized.sound reads
  cases left with
  | here => rwa [List.append_nil]
  | move moves rest =>
    obtain ⟨nexts, found, member⟩ := moves
    cases (Automaton.successors_of_final finalHeld).symm.trans found
    cases member

theorem loop_words_eq_language :
    ∃ pattern tree, loopPattern? = some pattern ∧
      pattern.automaton.fullTree pattern.root = .ok tree ∧ pattern.words = tree.language := by
  obtain ⟨pattern, built⟩ := exists_loopPattern
  obtain ⟨tree, unfolds, same⟩ := words_eq_language (finished_of_finishedPattern? built)
  exact ⟨pattern, tree, built, unfolds, same⟩

end PatternGraph
