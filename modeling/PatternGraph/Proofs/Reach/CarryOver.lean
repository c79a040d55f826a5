/-
This file proves that anchoring carries over from what follows. If the final state can only be
reached past an end boundary from the continuation of a state, the same holds of the state itself,
and a lookaround is anchored exactly if what follows it is.

The final state is looked for on a path that meets no end boundary, and such a path reads a word
whose letters are no end boundaries. The graph realizes a language between a node and what follows
it, so the path comes to what follows the node, and the rest of its word is made of such letters as
well. Nothing is assumed about the words that the language has: where a disjunction offers no
alternative there is no path, and nothing to carry over. Glue moves to its continuation, and a
branch chooses among states that are known to lead there.

For the same reason a path may leave out what is inside a lookaround. So whether a state is anchored
is told by the states that come along when every lookaround is passed over, and no boundary inside
one is among them.
-/

import PatternGraph.Proofs.Continuations
import PatternGraph.Proofs.Reach.Anchoring
import PatternGraph.Proofs.Reach.Answers

namespace PatternGraph

open Relation

namespace Automaton

section

variable {automaton : Automaton} {id next : StateId}

/-! ### Words without end boundaries -/

/-- A state that the automaton moves on from is no end boundary if it is none as a letter. -/
theorem isUnanchored_of_moves (moves : automaton.Moves id next)
    (letters : ∀ letter ∈ automaton.word [id], automaton.IsUnanchored letter) :
    automaton.IsUnanchored id := by
  by_cases isLetter : automaton.isLetter id = true
  · exact letters id (List.mem_filter.mpr ⟨List.mem_singleton_self id, isLetter⟩)
  · obtain ⟨nexts, offered, -⟩ := moves
    obtain ⟨state, found⟩ := exists_state_of_successors offered
    refine (isUnanchored_iff (state_eq_ok_iff.mp found)).mpr fun asserted same => ?_
    refine absurd ?_ isLetter
    rw [Automaton.isLetter, tree?, state_eq_ok_iff.mp found, Option.bind_some, same]
    rfl

/-- A path whose letters are no end boundaries meets no end boundary. -/
theorem Reads.openPath {length : Nat} {word : List StateId} {goal : StateId}
    (reads : automaton.Reads length id word goal)
    (letters : ∀ letter ∈ word, automaton.IsUnanchored letter) :
    automaton.OpenPath automaton.IsUnanchored id goal := by
  induction reads with
  | here => exact .refl
  | move moves _ inductionHypothesis =>
    obtain ⟨here, later⟩ := List.forall_mem_append.mp letters
    exact .head ⟨isUnanchored_of_moves moves here, moves⟩ (inductionHypothesis later)

/-- Every path from the state to a final state reads a word of some language up to the other state
and comes to that state. -/
def Precedes (automaton : Automaton) (id next : StateId) : Prop :=
  ∀ ⦃final : StateId⦄, automaton.isFinal final = true →
    ∃ language, automaton.Realizes final id next language

/-! ### The end seen from a state and from what follows it -/

theorem Precedes.reachesEnd (precedes : automaton.Precedes id next)
    (reaches : automaton.ReachesEnd id) : automaton.ReachesEnd next := by
  obtain ⟨final, isFinal, path⟩ := reaches
  obtain ⟨language, realizes⟩ := precedes isFinal
  obtain ⟨length, word, reads, letters⟩ := path.exists_reads
  obtain ⟨front, -, back, shorter, rfl, -, onward⟩ := realizes.sound reads
  exact ⟨final, isFinal, onward.openPath (List.forall_mem_append.mp letters).2⟩

/-- The end is seen from a state that moves to where it is seen, unless the state is an end
boundary. -/
theorem ReachesEnd.of_moves (unanchored : automaton.IsUnanchored id)
    (moves : automaton.Moves id next) (reaches : automaton.ReachesEnd next) :
    automaton.ReachesEnd id := by
  obtain ⟨final, isFinal, path⟩ := reaches
  exact ⟨final, isFinal, .head ⟨unanchored, moves⟩ path⟩

/-- From a state that offers a choice the end is seen by way of one of the choices. -/
theorem ReachesEnd.exists_choice {nexts : List StateId} (reaches : automaton.ReachesEnd id)
    (offered : automaton.successors id = .ok nexts) (some_choice : nexts ≠ []) :
    ∃ choice ∈ nexts, automaton.ReachesEnd choice := by
  obtain ⟨final, isFinal, path⟩ := reaches
  rcases ReflTransGen.cases_head path with rfl | ⟨choice, step, onward⟩
  · obtain ⟨choice, member⟩ := List.exists_mem_of_ne_nil nexts some_choice
    exact absurd ⟨nexts, offered, member⟩ (not_moves_of_isFinal isFinal)
  · obtain ⟨-, found, offeredToo, member⟩ := step
    cases offered.symm.trans offeredToo
    exact ⟨choice, member, final, isFinal, onward⟩

theorem ReachesEnd.of_single (reaches : automaton.ReachesEnd id)
    (moves : automaton.successors id = .ok [next]) : automaton.ReachesEnd next := by
  obtain ⟨choice, member, onward⟩ := reaches.exists_choice moves (List.cons_ne_nil _ _)
  exact List.mem_singleton.mp member ▸ onward

/-- The end of a repetition is no end boundary. -/
theorem ReachesEnd.endOfRepetition {owner close : StateId}
    (held : automaton.state? close = some (.endOfRepetition owner next))
    (reaches : automaton.ReachesEnd next) : automaton.ReachesEnd close := by
  refine reaches.of_moves ?_ ⟨_, successors_of_own held rfl, List.mem_singleton_self next⟩
  exact (isUnanchored_iff held).mpr fun asserted same => nomatch same

theorem isUnanchored_of_isLookAround (isLookAround : automaton.isLookAround id = true) :
    automaton.IsUnanchored id := by
  obtain ⟨treeNode, body, polarity, direction, entry, isTree, content⟩ :=
    exists_lookAround isLookAround
  refine (isUnanchored_iff (tree?_eq_some_iff.mp isTree)).mpr fun asserted same => ?_
  simp [State.tree?, content] at same

/-- A step from a state that is no end boundary, past it if it is a lookaround. -/
def PassesUnanchored (automaton : Automaton) (id next : StateId) : Prop :=
  automaton.IsUnanchored id ∧ automaton.MovesPast id next

/-- A state is anchored exactly if the end is not seen from it. -/
theorem LinkedFrom.exists_anchored (linked : automaton.LinkedFrom id) :
    ∃ answer, automaton.isAnchoredAtEnd id = .ok answer ∧
      (answer = true ↔ ¬ automaton.ReachesEnd id) := by
  obtain ⟨answer, answered, no_iff⟩ := exists_isAnchoredAtEnd linked
  exact ⟨answer, answered, by rw [← no_iff, Bool.not_eq_false]⟩

end

end Automaton

/-! ### Finished patterns -/

theorem Automaton.Outside.below_of_isLookAround {automaton : Automaton} {gate : StateId → Prop}
    {root id : StateId} (outside : automaton.Outside gate root id)
    (isLookAround : automaton.isLookAround id = true) : automaton.Below root id := by
  obtain ⟨treeNode, -, -, -, -, isTree, -⟩ := Automaton.exists_lookAround isLookAround
  cases outside with
  | node unenclosed => exact unenclosed.below
  | glue isGlue _ _ => cases isTree.symm.trans isGlue

namespace Pattern

section

variable {pattern : Pattern} (sound : pattern.Sound) {id next : StateId}

include sound

/-- Every node precedes what follows it. -/
theorem Sound.precedes (below : pattern.automaton.Below pattern.root id)
    (followed : pattern.automaton.FollowedBy id next) : pattern.automaton.Precedes id next := by
  intro final isFinal
  obtain ⟨flags, finalHeld⟩ := Automaton.exists_final_of_isFinal isFinal
  obtain ⟨tree, -, same, described⟩ := sound.isTree.unfolds
  obtain ⟨part, describedPart, rfl⟩ := described.exists_of_below (same ▸ below)
  exact ⟨part.language,
    Automaton.realizes_tree finalHeld sound.jointed describedPart next followed⟩

/-- A lookaround moves into itself or past itself, and the way into it comes to the same state. -/
theorem Sound.exists_entry (below : pattern.automaton.Below pattern.root id)
    (isLookAround : pattern.automaton.isLookAround id = true) :
    ∃ entry next, pattern.automaton.continuation id = .ok (some next) ∧
      pattern.automaton.successors id = .ok [entry, next] ∧
      pattern.automaton.Precedes entry next := by
  obtain ⟨treeNode, body, polarity, direction, entry, isTree, content⟩ :=
    Automaton.exists_lookAround isLookAround
  obtain ⟨next, same, isTreeToo, continues⟩ := sound.followedBy_below below
  cases isTree.symm.trans isTreeToo
  have stored := Automaton.continuation_of_continues isTree continues
  rw [Automaton.Continues, content] at continues
  have joints := (sound.jointed.sealedAt isTree).mono (.refl _) Automaton.Promised.followedBy
  have entered := sound.jointed.enteredAt isTree
  rw [content] at joints entered
  obtain ⟨close, followed, held⟩ := joints
  have named : pattern.automaton.Child id body.element :=
    ⟨treeNode, isTree, by simp [content]⟩
  refine ⟨entry, next, stored.trans (congrArg _ continues),
    Automaton.successors_lookAround isTree content continues, fun final isFinal => ?_⟩
  obtain ⟨flags, finalHeld⟩ := Automaton.exists_final_of_isFinal isFinal
  obtain ⟨language, realizes⟩ := sound.precedes (below.tail named) followed isFinal
  have leaves : pattern.automaton.Realizes final close next 1 :=
    Automaton.realizes_end finalHeld isTree continues held (Or.inr (Or.inl rfl))
  exact ⟨_, Automaton.realizes_entry finalHeld entered (realizes.trans leaves)⟩

/-- The end is seen from what follows a node if it is seen from the node. -/
theorem Sound.reachesEnd_stored {treeNode : TreeNode}
    (below : pattern.automaton.Below pattern.root id)
    (isTree : pattern.automaton.tree? id = some treeNode)
    (stored : treeNode.continuation = some next) (reaches : pattern.automaton.ReachesEnd id) :
    pattern.automaton.ReachesEnd next := by
  obtain ⟨after, same, isTreeToo, continues⟩ := sound.followedBy_below below
  cases isTree.symm.trans isTreeToo
  have behind : pattern.automaton.ReachesEnd after :=
    (sound.precedes below ⟨treeNode, isTree, continues⟩).reachesEnd reaches
  unfold Automaton.Continues at continues
  split at continues
  · obtain ⟨close, storedToo, held⟩ := continues
    cases stored.symm.trans storedToo
    exact behind.endOfRepetition held
  · cases stored.symm.trans continues
    exact behind

end

section

variable {pattern : Pattern} (finished : pattern.Finished) {id : StateId}

include finished

/-- The end is seen from what follows a branch if it is seen from the branch. -/
theorem reachesEnd_branch {owner next : StateId} {choices : List StateId} {treeNode : TreeNode}
    (found : pattern.automaton.state? id = some (.branch owner choices))
    (below : pattern.automaton.Below pattern.root owner)
    (isTree : pattern.automaton.tree? owner = some treeNode)
    (stored : treeNode.continuation = some next) (reaches : pattern.automaton.ReachesEnd id) :
    pattern.automaton.ReachesEnd next := by
  have sound := finished.sound
  obtain ⟨some_choice, each⟩ := choices_of_branch finished found isTree stored
  obtain ⟨choice, member, onward⟩ :=
    reaches.exists_choice (Automaton.successors_branch found) some_choice
  rcases each choice member with rfl | rfl | ⟨close, named, followed, held⟩
  · exact onward
  · exact sound.reachesEnd_stored below isTree stored onward
  · have leaves := Automaton.successors_endOf held (Or.inr (Or.inr rfl)) isTree stored
    exact ((sound.precedes (below.tail named) followed).reachesEnd onward).of_single leaves

/-- What a node stores as its continuation can be asked about. -/
theorem outside_stored {owner next : StateId} {treeNode : TreeNode}
    (below : pattern.automaton.Below pattern.root owner)
    (isTree : pattern.automaton.tree? owner = some treeNode)
    (stored : treeNode.continuation = some next) :
    pattern.automaton.Outside (fun _ => False) pattern.root next := by
  have sound := finished.sound
  obtain ⟨after, same, isTreeToo, continues⟩ := sound.followedBy_below below
  cases isTree.symm.trans isTreeToo
  have unenclosed : pattern.automaton.Unenclosed (fun _ => False) pattern.root owner :=
    Automaton.unenclosed_of_below below fun _ isGate => isGate.elim
  have behind := unenclosed.outside_next sound.jointed sound.followed sound.finalHeld
    ⟨treeNode, isTree, continues⟩
  exact Automaton.outside_continuation continues behind stored

/-- Every inner state has a continuation, from which the end is seen if it is seen from the
state. -/
theorem Inner.exists_reachesEnd (inner : pattern.Inner id) :
    ∃ next, pattern.automaton.continuation id = .ok (some next) ∧
      pattern.automaton.Outside (fun _ => False) pattern.root next ∧
      (pattern.automaton.ReachesEnd id → pattern.automaton.ReachesEnd next) := by
  have sound := finished.sound
  obtain ⟨next, continues, ways⟩ := inner.exists_continuation finished
  refine ⟨next, continues, ?_⟩
  rcases ways with moves | ⟨owner, treeNode, below, isTree, stored, rfl | ⟨choices, found⟩⟩
  · have onward := sound.outside_of_moves (inner.outside finished) not_false
      ⟨_, moves, List.mem_singleton_self next⟩
    exact ⟨onward, fun reaches => reaches.of_single moves⟩
  · exact ⟨outside_stored finished below isTree stored, sound.reachesEnd_stored below isTree stored⟩
  · exact ⟨outside_stored finished below isTree stored,
      reachesEnd_branch finished found below isTree stored⟩

end

/-! ### Passing over lookarounds -/

section

variable {pattern : Pattern} (sound : pattern.Sound) {id final : StateId}

include sound

/-- The first move of a path may be replaced by one that passes over a lookaround. What is left of
the path is not longer than what was left of it behind the move. -/
theorem Sound.exists_movesPast {length : Nat} {word : List StateId} {middle : StateId}
    (outside : pattern.automaton.Outside (fun _ => False) pattern.root id)
    (isFinal : pattern.automaton.isFinal final = true)
    (moves : pattern.automaton.Moves id middle)
    (reads : pattern.automaton.Reads length middle word final) :
    ∃ next shorter back, pattern.automaton.MovesPast id next ∧ pattern.automaton.Moves id next ∧
      shorter ≤ length ∧ back <:+ word ∧ pattern.automaton.Reads shorter next back final := by
  by_cases isLookAround : pattern.automaton.isLookAround id = true
  · obtain ⟨entry, next, continues, offered, precedes⟩ :=
      sound.exists_entry (outside.below_of_isLookAround isLookAround) isLookAround
    have past : pattern.automaton.MovesPast id next := by
      rwa [Automaton.MovesPast, if_pos isLookAround]
    have onward : pattern.automaton.Moves id next :=
      ⟨_, offered, List.mem_cons_of_mem _ (List.mem_singleton_self next)⟩
    obtain ⟨nexts, offeredToo, member⟩ := moves
    cases offered.symm.trans offeredToo
    rcases List.mem_cons.mp member with rfl | later
    · obtain ⟨language, realizes⟩ := precedes isFinal
      obtain ⟨front, -, back, shorter, rfl, less, behind⟩ := realizes.sound reads
      exact ⟨next, shorter, back, past, onward, less, List.suffix_append front back, behind⟩
    · obtain rfl := List.mem_singleton.mp later
      exact ⟨middle, length, word, past, onward, Nat.le_refl _, List.suffix_refl word, reads⟩
  · have past : pattern.automaton.MovesPast id middle := by
      rwa [Automaton.MovesPast, if_neg isLookAround]
    exact ⟨middle, length, word, past, moves, Nat.le_refl _, List.suffix_refl word, reads⟩

/-- So a path to the final state need not enter any lookaround. -/
theorem Sound.exists_pathPast {length : Nat} {word : List StateId}
    (outside : pattern.automaton.Outside (fun _ => False) pattern.root id)
    (isFinal : pattern.automaton.isFinal final = true)
    (reads : pattern.automaton.Reads length id word final)
    (letters : ∀ letter ∈ word, pattern.automaton.IsUnanchored letter) :
    ReflTransGen pattern.automaton.PassesUnanchored id final := by
  -- Each step leaves a path that is shorter by the move that it takes or replaces.
  induction length using Nat.strong_induction_on generalizing id word with
  | _ length inductionHypothesis =>
    cases reads with
    | here => exact .refl
    | move moves rest =>
      obtain ⟨here, later⟩ := List.forall_mem_append.mp letters
      obtain ⟨next, shorter, back, past, onward, less, suffix, reads⟩ :=
        sound.exists_movesPast outside isFinal moves rest
      exact .head ⟨Automaton.isUnanchored_of_moves moves here, past⟩
        (inductionHypothesis shorter (Nat.lt_succ_of_le less)
          (sound.outside_of_moves outside not_false onward) reads
          fun letter member => later letter (suffix.subset member))

/-- The end is seen from a state if it is seen when lookarounds are passed over. -/
theorem Sound.reachesEnd_iff_pathPast
    (outside : pattern.automaton.Outside (fun _ => False) pattern.root id) :
    pattern.automaton.ReachesEnd id ↔ ∃ final, pattern.automaton.isFinal final = true ∧
      ReflTransGen pattern.automaton.PassesUnanchored id final := by
  constructor
  · rintro ⟨final, isFinal, path⟩
    obtain ⟨length, word, reads, letters⟩ := path.exists_reads
    exact ⟨final, isFinal, sound.exists_pathPast outside isFinal reads letters⟩
  · rintro ⟨final, isFinal, path⟩
    induction path using ReflTransGen.head_induction_on with
    | refl => exact ⟨final, isFinal, .refl⟩
    | head step _ inductionHypothesis =>
      have moves := step.2.moves (sound.linkedFrom outside)
      exact (inductionHypothesis (sound.outside_of_moves outside not_false moves)).of_moves step.1
        moves

end

/-- What the end of a pattern looks like from a state and from what follows the state. -/
structure CarriesAnchoring (pattern : Pattern) : Prop where
  /-- An inner state is anchored if its continuation is. -/
  onward {id : StateId} : pattern.Inner id →
    ∃ next here ahead, pattern.automaton.continuation id = .ok (some next) ∧
      pattern.automaton.isAnchoredAtEnd id = .ok here ∧
      pattern.automaton.isAnchoredAtEnd next = .ok ahead ∧ (ahead = true → here = true)
  /-- A lookaround is anchored exactly if its continuation is. -/
  lookAround {id : StateId} : pattern.automaton.Below pattern.root id →
    pattern.automaton.isLookAround id = true →
    ∃ next answer, pattern.automaton.continuation id = .ok (some next) ∧
      pattern.automaton.isAnchoredAtEnd id = .ok answer ∧
      pattern.automaton.isAnchoredAtEnd next = .ok answer
  /-- An inner state is not anchored exactly if a final state is found past no end boundary on a
  path that passes over every lookaround. -/
  pastLookArounds {id : StateId} : pattern.Inner id →
    (pattern.automaton.isAnchoredAtEnd id = .ok false ↔
      ∃ final, pattern.automaton.isFinal final = true ∧
        ReflTransGen pattern.automaton.PassesUnanchored id final)

end Pattern

/-- In a finished pattern anchoring carries over from what follows, and lookarounds do not matter to
it. -/
theorem anchoring_carries_over {pattern : Pattern} (finished : pattern.Finished) :
    pattern.CarriesAnchoring where
  onward inner := by
    obtain ⟨next, continues, outside, onward⟩ := inner.exists_reachesEnd finished
    obtain ⟨here, answered, here_iff⟩ :=
      (finished.sound.linkedFrom (inner.outside finished)).exists_anchored
    obtain ⟨ahead, answeredToo, ahead_iff⟩ := (finished.sound.linkedFrom outside).exists_anchored
    exact ⟨next, here, ahead, continues, answered, answeredToo,
      fun yes => here_iff.mpr (mt onward (ahead_iff.mp yes))⟩
  lookAround {id} below isLookAround := by
    have inner : pattern.Inner id := .node below
    obtain ⟨next, continues, outside, onward⟩ := inner.exists_reachesEnd finished
    obtain ⟨entry, same, continuesToo, offered, -⟩ :=
      finished.sound.exists_entry below isLookAround
    cases continues.symm.trans continuesToo
    have back (reaches : pattern.automaton.ReachesEnd next) : pattern.automaton.ReachesEnd id :=
      reaches.of_moves (Automaton.isUnanchored_of_isLookAround isLookAround)
        ⟨_, offered, List.mem_cons_of_mem _ (List.mem_singleton_self next)⟩
    obtain ⟨here, answered, here_iff⟩ :=
      (finished.sound.linkedFrom (inner.outside finished)).exists_anchored
    obtain ⟨ahead, answeredToo, ahead_iff⟩ := (finished.sound.linkedFrom outside).exists_anchored
    have same : here = ahead := by
      rw [Bool.eq_iff_iff, here_iff, ahead_iff]
      exact not_congr ⟨onward, back⟩
    exact ⟨next, ahead, continues, same ▸ answered, answeredToo⟩
  pastLookArounds inner := by
    have outside := inner.outside finished
    obtain ⟨answer, answered, no_iff⟩ :=
      Automaton.exists_isAnchoredAtEnd (finished.sound.linkedFrom outside)
    rw [← finished.sound.reachesEnd_iff_pathPast outside, ← no_iff, answered, Except.ok.injEq]

/-- The calls that build `(a(?=$)|b)+`. -/
def lookedAtEndCalls : List Call :=
  [.construct ⟨⟨1, 2⟩, .empty, .leaf (.character ⟨97, false⟩)⟩,
    .construct ⟨⟨5, 6⟩, .empty, .leaf (.boundary .lineEnd)⟩,
    .construct ⟨⟨2, 7⟩, .empty, .lookAround .positive .ahead ⟨1⟩⟩,
    .construct ⟨⟨1, 7⟩, .empty, .sequence [⟨0⟩, ⟨2⟩]⟩,
    .construct ⟨⟨8, 9⟩, .empty, .leaf (.character ⟨98, false⟩)⟩,
    .construct ⟨⟨1, 9⟩, .empty, .disjunction [⟨4⟩, ⟨5⟩] [⟨⟨7, 8⟩, '|', false⟩]⟩,
    .construct ⟨⟨0, 10⟩, .empty, .capturingGroup none 1 ⟨6⟩⟩,
    .construct ⟨⟨0, 11⟩, .empty, .repetition ⟨7⟩ ⟨⟨10, 11⟩, .greedy, .sign .plus⟩⟩]

/-- The pattern `(a(?=$)|b)+`. -/
def lookedAtEnd? : Option Pattern :=
  finishedPattern? ⟨"(a(?=$)|b)+", .java, []⟩ lookedAtEndCalls ⟨9⟩ .empty

/-- In `(a(?=$)|b)+` the boundary is anchored and the lookahead around it is not. -/
theorem lookedAtEnd_anchoring_carries_over :
    ∃ pattern, lookedAtEnd? = some pattern ∧ pattern.CarriesAnchoring ∧
      pattern.automaton.isLookAround ⟨2⟩ = true ∧
      pattern.automaton.isAnchoredAtEnd ⟨1⟩ = .ok true ∧
      pattern.automaton.isAnchoredAtEnd ⟨2⟩ = .ok false := by
  have computed : (lookedAtEnd?.map fun pattern => (pattern.automaton.isLookAround ⟨2⟩,
      pattern.automaton.isAnchoredAtEnd ⟨1⟩, pattern.automaton.isAnchoredAtEnd ⟨2⟩)) =
      some (true, .ok true, .ok false) := by decide +kernel
  obtain ⟨pattern, built, facts⟩ := Option.map_eq_some_iff.mp computed
  obtain ⟨isLookAround, answers⟩ := Prod.mk.inj facts
  obtain ⟨inside, around⟩ := Prod.mk.inj answers
  exact ⟨pattern, built, anchoring_carries_over (finished_of_finishedPattern? built), isLookAround,
    inside, around⟩

end PatternGraph
