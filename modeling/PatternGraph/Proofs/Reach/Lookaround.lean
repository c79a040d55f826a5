/-
This file says what the two questions about consumed input make of lookarounds.

Asked for consumed input, the walk passes over a lookaround, but only as long as nothing was
consumed. Behind a character the question is a plain one, and the way into a lookaround is as good
as any other. What a lookaround encloses is entered by way of the lookaround only, so it counts
where the lookaround itself can be reached behind a character, and nowhere else.

Asked without consumed input, the walk goes into lookarounds, and it also comes out of them: the end
of a lookaround is entered by an empty step, and what follows the lookaround is found behind it. So
a goal that lies behind such ends on all paths is found as if they were not there.
-/

import PatternGraph.Proofs.Continuations
import PatternGraph.Proofs.Enclosure
import PatternGraph.Proofs.Reach.Consumption

namespace PatternGraph

open Relation

/-! ### Content of a lookaround -/

/-- The start state, the lookaround, or a node that is not below the lookaround. -/
def Pattern.Outer (pattern : Pattern) (owner start : StateId) : Prop :=
  start = pattern.start ∨ start = owner ∨
    pattern.automaton.Below pattern.root start ∧ ¬ pattern.automaton.Below owner start

/-- The walk for consumed input consumes a character, from where the lookaround can be reached. -/
def Automaton.ConsumesBefore (automaton : Automaton) (goal start owner : StateId)
    (counts : StateId → Prop) : Prop :=
  ∃ id character, automaton.Passes goal start id ∧ automaton.ConsumesAt id character ∧
    (automaton.mayBreakLine character = true → counts id) ∧ automaton.Reaches character owner

namespace Pattern.Sound

section

variable {pattern : Pattern} (sound : pattern.Sound) {owner start goal : StateId}
  (below : pattern.automaton.Below pattern.root owner)

include sound below

theorem unenclosed_owner : pattern.automaton.Unenclosed (· = owner) pattern.root owner :=
  Automaton.unenclosed_of_below below fun _ same path => sound.isTree.acyclic below (same ▸ path)

theorem outside_outer (outer : pattern.Outer owner start) :
    pattern.automaton.Outside (· = owner) pattern.root start := by
  rcases outer with rfl | rfl | ⟨belowRoot, apart⟩
  · exact sound.outside_start
  · exact .node (sound.unenclosed_owner below)
  · exact .node (Automaton.unenclosed_of_below belowRoot fun _ same path =>
      apart (same ▸ path.to_reflTransGen))

theorem linkedFrom_outer (outer : pattern.Outer owner start) :
    pattern.automaton.LinkedFrom start := by
  apply sound.linkedFrom
  rcases outer with rfl | rfl | ⟨belowRoot, -⟩
  · exact sound.outside_start
  · exact .node (Automaton.unenclosed_of_below below fun _ never => never.elim)
  · exact .node (Automaton.unenclosed_of_below belowRoot fun _ never => never.elim)

variable (isLookAround : pattern.automaton.isLookAround owner = true)

include isLookAround

/-- The walk passes over the lookaround to what follows it, which is outside. -/
theorem outside_continuation {next : StateId}
    (continues : pattern.automaton.continuation owner = .ok (some next)) :
    pattern.automaton.Outside (· = owner) pattern.root next := by
  obtain ⟨after, treeNode, isTree, stored⟩ := sound.followedBy_below below
  have followed : pattern.automaton.FollowedBy owner after := ⟨treeNode, isTree, stored⟩
  obtain ⟨same, body, polarity, direction, entry, isTreeToo, content⟩ :=
    Automaton.exists_lookAround isLookAround
  cases isTree.symm.trans isTreeToo
  rw [Automaton.continuation_of_continues isTree stored, Except.ok.injEq] at continues
  rw [Automaton.Continues, content] at stored
  cases stored.symm.trans continues
  exact (sound.unenclosed_owner below).outside_next sound.jointed sound.followed sound.finalHeld
    followed

variable (outer : pattern.Outer owner start)

include outer

/-- So it does not come to what the lookaround encloses. -/
theorem outside_of_passes {id : StateId} (passes : pattern.automaton.Passes goal start id) :
    pattern.automaton.Outside (· = owner) pattern.root id := by
  have linked := sound.linkedFrom_outer below outer
  induction passes with
  | refl => exact sound.outside_outer below outer
  | @tail id next before step inductionHypothesis =>
    -- The lookaround is the one gate, and the one state that the walk does not leave by an edge.
    by_cases atOwner : id = owner
    · subst atOwner
      have continues := step.2
      rw [Automaton.PassesTo, if_pos isLookAround] at continues
      exact sound.outside_continuation below isLookAround continues
    · obtain ⟨nexts, offered⟩ := linked id (Automaton.Passes.reaches linked before)
      obtain ⟨visit, brings, -, rfl⟩ := (Automaton.passesTo_iff offered).mp step.2
      exact sound.outside_of_moves inductionHypothesis atOwner brings.moves

/-- Behind a character the content is reached by way of the lookaround. -/
theorem consumingPath_iff_consumesBefore (inside : TransGen pattern.automaton.Child owner goal)
    {counts : StateId → Prop} :
    pattern.automaton.ConsumingPath goal start counts ↔
      pattern.automaton.Reaches owner goal ∧
        pattern.automaton.ConsumesBefore goal start owner counts := by
  have enclosed : ¬ pattern.automaton.Outside (· = owner) pattern.root goal :=
    sound.not_outside rfl below inside
  constructor
  · rintro ⟨id, character, passes, -, consumes, counted, reaches⟩
    have here := sound.outside_of_passes below isLookAround outer passes
    have apart : id ≠ owner := by
      rintro rfl
      cases isLookAround.symm.trans consumes.1
    have there := sound.outside_of_moves here apart consumes.2.1
    obtain ⟨gate, rfl, before, behind⟩ := sound.exists_gate there enclosed reaches
    exact ⟨behind, id, character, passes, consumes, counted, before⟩
  · rintro ⟨behind, id, character, passes, consumes, counted, before⟩
    have here := sound.outside_of_passes below isLookAround outer passes
    exact ⟨id, character, passes, fun same => enclosed (same ▸ here), consumes, counted,
      before.trans behind⟩

end

end Pattern.Sound

/-- What a lookaround encloses counts for consumed input exactly where the lookaround can be reached
behind a character: it counts if that character does in any case, and only if there is one that
counts when the walk comes to it without having met an end boundary. -/
theorem lookaround_content_counts_behind_character {pattern : Pattern}
    (finished : pattern.Finished) {owner start goal : StateId}
    (below : pattern.automaton.Below pattern.root owner) {treeNode : TreeNode} {body : GroupBody}
    {polarity : Polarity} {direction : Direction} {entry : StateId}
    (isTree : pattern.automaton.tree? owner = some treeNode)
    (content : treeNode.node = .lookAround body polarity direction entry)
    (inside : pattern.automaton.Below body.element goal) (outer : pattern.Outer owner start)
    {checker : Checker} (empty : checker.memory = [])
    (enough : pattern.automaton.size ≤ checker.limit) :
    ∃ answer, (checker.canReachConsuming pattern.automaton start goal).answer = .ok answer ∧
      (pattern.automaton.Reaches owner goal →
        pattern.automaton.ConsumesBefore goal start owner
          (fun _ => ¬ pattern.automaton.PassesBoundary goal start) → answer = true) ∧
      (answer = true → pattern.automaton.Reaches owner goal ∧
        pattern.automaton.ConsumesBefore goal start owner
          (pattern.automaton.PassesUnguarded goal start)) := by
  have sound := finished.sound
  have isLookAround : pattern.automaton.isLookAround owner = true := by
    simp only [Automaton.isLookAround, isTree, content]
    rfl
  have child : pattern.automaton.Child owner body.element :=
    ⟨treeNode, isTree, by simp [content]⟩
  have enclosed : TransGen pattern.automaton.Child owner goal := .head' child inside
  obtain ⟨answer, answered, complete, correct⟩ := Checker.answersConsuming_of_memory_nil
    goal (sound.linkedFrom_outer below outer) empty enough
  rw [sound.consumingPath_iff_consumesBefore below isLookAround outer enclosed] at complete correct
  exact ⟨answer, answered, fun reaches consumes => complete ⟨reaches, consumes⟩, correct⟩

/-- The calls that build `a(?=b)`. -/
def characterBeforeCalls : List Call :=
  [.construct ⟨⟨0, 1⟩, .empty, .leaf (.character ⟨97, false⟩)⟩,
    .construct ⟨⟨4, 5⟩, .empty, .leaf (.character ⟨98, false⟩)⟩,
    .construct ⟨⟨1, 6⟩, .empty, .lookAround .positive .ahead ⟨1⟩⟩,
    .construct ⟨⟨0, 6⟩, .empty, .sequence [⟨0⟩, ⟨2⟩]⟩]

/-- The pattern `a(?=b)`. -/
def characterBefore? : Option Pattern :=
  finishedPattern? ⟨"a(?=b)", .java, []⟩ characterBeforeCalls ⟨4⟩ .empty

/-- The lookaround in `a(?=b)` is below the root, and encloses the second character. -/
theorem exists_characterBefore :
    ∃ pattern, characterBefore? = some pattern ∧ pattern.automaton.size = 7 ∧
      pattern.automaton.Below pattern.root ⟨2⟩ ∧
      ∃ treeNode body polarity direction entry, pattern.automaton.tree? ⟨2⟩ = some treeNode ∧
        treeNode.node = .lookAround body polarity direction entry ∧
        pattern.automaton.Below body.element ⟨1⟩ := by
  have computed : (characterBefore?.map fun pattern =>
      (pattern.automaton.size, pattern.automaton.isLookAround ⟨2⟩)) = some (7, true) := by
    decide +kernel
  have children : (characterBefore?.map fun pattern => [pattern.root, ⟨2⟩].map fun id =>
      (pattern.automaton.tree? id).map fun treeNode => treeNode.node.children) =
      some [some [⟨0⟩, ⟨2⟩], some [⟨1⟩]] := by decide +kernel
  obtain ⟨pattern, built, facts⟩ := Option.map_eq_some_iff.mp computed
  obtain ⟨size, isLookAround⟩ := Prod.mk.inj facts
  rw [built, Option.map_some, Option.some.injEq] at children
  obtain ⟨ofRoot, others⟩ := List.cons.inj children
  obtain ⟨ofLookAround, -⟩ := List.cons.inj others
  obtain ⟨root, isRoot, named⟩ := Option.map_eq_some_iff.mp ofRoot
  obtain ⟨treeNode, body, polarity, direction, entry, isTree, content⟩ :=
    Automaton.exists_lookAround isLookAround
  have below : pattern.automaton.Below pattern.root ⟨2⟩ :=
    .single ⟨root, isRoot, by simp [named]⟩
  have element : body.element = ⟨1⟩ := by
    simpa [isTree, content] using ofLookAround
  exact ⟨pattern, built, size, below, treeNode, body, polarity, direction, entry, isTree, content,
    element ▸ .refl⟩

theorem characterBefore_lookaround_content_counts_behind_character :
    ∃ pattern, characterBefore? = some pattern ∧
      ∃ answer, ((Checker.withLimit true 7).canReachConsuming pattern.automaton pattern.start
          ⟨1⟩).answer = .ok answer ∧
        (pattern.automaton.Reaches ⟨2⟩ ⟨1⟩ →
          pattern.automaton.ConsumesBefore ⟨1⟩ pattern.start ⟨2⟩
            (fun _ => ¬ pattern.automaton.PassesBoundary ⟨1⟩ pattern.start) → answer = true) ∧
        (answer = true → pattern.automaton.Reaches ⟨2⟩ ⟨1⟩ ∧
          pattern.automaton.ConsumesBefore ⟨1⟩ pattern.start ⟨2⟩
            (pattern.automaton.PassesUnguarded ⟨1⟩ pattern.start)) := by
  obtain ⟨pattern, built, size, below, treeNode, body, polarity, direction, entry, isTree, content,
    inside⟩ := exists_characterBefore
  exact ⟨pattern, built, lookaround_content_counts_behind_character
    (finished_of_finishedPattern? built) below isTree content inside (Or.inl rfl) rfl
    (Nat.le_of_eq size)⟩

/-- In `a(?=b)` the second character counts for consumed input, although a lookaround encloses
it. -/
theorem lookaround_content_counts :
    ∃ pattern, characterBefore? = some pattern ∧ pattern.Finished ∧
      pattern.automaton.size = 7 ∧ pattern.automaton.Below pattern.root ⟨2⟩ ∧
      (∃ treeNode body polarity direction entry, pattern.automaton.tree? ⟨2⟩ = some treeNode ∧
        treeNode.node = .lookAround body polarity direction entry ∧
        pattern.automaton.Below body.element ⟨1⟩) ∧
      ((Checker.withLimit true 7).canReachConsuming pattern.automaton pattern.start ⟨1⟩).answer =
        .ok true := by
  have computed : (characterBefore?.map fun pattern =>
      ((Checker.withLimit true 7).canReachConsuming pattern.automaton pattern.start
        ⟨1⟩).answer) = some (.ok true) := by decide +kernel
  obtain ⟨pattern, built, size, below, encloses⟩ := exists_characterBefore
  rw [built, Option.map_some, Option.some.injEq] at computed
  exact ⟨pattern, built, finished_of_finishedPattern? built, size, below, encloses, computed⟩

/-! ### The end of a lookaround -/

namespace Automaton

section

variable (automaton : Automaton) (stopAtBoundaries : Bool) (start goal : StateId)

/-- Whether the state is the end of a lookaround. -/
def endsLookAround (id : StateId) : Bool :=
  match automaton.state? id with
  | some (.endOfLookaround _) => true
  | _ => false

/-- Every path to the goal enters an end of a lookaround, other than the goal. -/
def BehindLookAroundEnds : Prop :=
  ∀ ⦃visited : List StateId⦄, automaton.Walk start visited goal →
    ∃ close ∈ visited.tail, close ≠ goal ∧ automaton.endsLookAround close = true

/-- The answer is about paths that go on from an end of a lookaround. It is yes if sure moves lead
to an end and on from there, and only if possible moves do; where the two agree, it is whether there
is such a path that consumes nothing. -/
structure CrossesLookAroundEnds (answer : Bool) : Prop where
  complete {id close : StateId} :
    ReflTransGen (automaton.SureMove stopAtBoundaries start) start id →
    automaton.Leaves stopAtBoundaries id close → automaton.endsLookAround close = true →
    ReflTransGen (automaton.SureMove stopAtBoundaries start) close goal → answer = true
  sound : answer = true → ∃ close, close ≠ goal ∧ automaton.endsLookAround close = true ∧
    ReflTransGen (automaton.PossibleMove stopAtBoundaries start) start close ∧
    ReflTransGen (automaton.PossibleMove stopAtBoundaries start) close goal
  exact : automaton.Separated stopAtBoundaries start →
    (answer = true ↔ ∃ left, automaton.UnconsumingPath stopAtBoundaries start left goal ∧
      ∃ close ∈ left, automaton.endsLookAround close = true)

end

section

variable {automaton : Automaton} {stopAtBoundaries : Bool} {start goal : StateId}

/-- The end of a lookaround is entered by an empty step. -/
theorem entersFreely_of_endsLookAround {close : StateId}
    (ends : automaton.endsLookAround close = true) : automaton.EntersFreely close := by
  unfold endsLookAround at ends
  split at ends
  · rename_i owner held
    refine Or.inl ?_
    rw [transition, state, held]
    rfl
  · cases ends

/-- A path that consumes nothing is a path of successors. -/
theorem UnconsumingPath.walk {left : List StateId} {id : StateId}
    (path : automaton.UnconsumingPath stopAtBoundaries start left id) :
    automaton.Walk start (id :: left).reverse id := by
  induction left generalizing id with
  | nil =>
    cases path
    exact .stop start
  | cons previous left inductionHypothesis =>
    obtain ⟨before, leaves, -⟩ := path
    rw [List.reverse_cons]
    exact (inductionHypothesis before).append_step leaves.2

/-- An answer between what is certain and what is possible is about the ends of lookarounds, if all
paths lead through them. -/
theorem AnswersBetween.crossesLookAroundEnds {result : Except Fault Bool}
    (between : automaton.AnswersBetween stopAtBoundaries start goal result)
    (behind : automaton.BehindLookAroundEnds start goal) :
    ∃ answer, result = .ok answer ∧
      automaton.CrossesLookAroundEnds stopAtBoundaries start goal answer := by
  obtain ⟨answer, answered, complete, sound⟩ := between
  refine ⟨answer, answered, ?complete, ?sound, ?exact⟩
  case complete =>
    intro id close before leaves ends after
    have enters : automaton.SureMove stopAtBoundaries start id close :=
      ⟨leaves, Or.inl (entersFreely_of_endsLookAround ends)⟩
    exact complete ((before.tail enters).trans after)
  case sound =>
    intro yes
    obtain ⟨visited, walk, onTheWay⟩ := exists_walk_of_moves
      (fun {id next} (move : automaton.PossibleMove stopAtBoundaries start id next) => move.1.2)
      (sound yes)
    obtain ⟨close, entered, apart, ends⟩ := behind walk
    exact ⟨close, apart, ends, onTheWay close (List.mem_of_mem_tail entered)⟩
  case exact =>
    intro separated
    rw [separated.answer_iff complete sound]
    refine exists_congr fun left => ⟨fun path => ⟨path, ?_⟩, And.left⟩
    obtain ⟨close, entered, apart, ends⟩ := behind path.walk
    have onTheWay := List.mem_reverse.mp (List.mem_of_mem_tail entered)
    exact ⟨close, (List.mem_cons.mp onTheWay).resolve_left apart, ends⟩

/-- If the start leads to the end of a lookaround only, every path does. -/
theorem behindLookAroundEnds_of_successors {close : StateId} (apart : start ≠ goal)
    (moves : automaton.successors start = .ok [close]) (other : close ≠ goal)
    (ends : automaton.endsLookAround close = true) : automaton.BehindLookAroundEnds start goal := by
  intro visited walk
  cases walk with
  | stop => exact absurd rfl apart
  | step first rest =>
    obtain ⟨nexts, offered, member⟩ := first
    cases moves.symm.trans offered
    obtain rfl := List.mem_singleton.mp member
    obtain ⟨later, rfl⟩ := rest.exists_tail
    exact ⟨_, List.mem_cons_self, other, ends⟩

end

end Automaton

/-- If all paths to the goal lead through ends of lookarounds, both questions without consumed input
answer whether it can be reached from such an end that is itself reached. -/
theorem lookaround_end_is_crossed {automaton : Automaton} {start goal : StateId}
    (linked : automaton.LinkedFrom start) (behind : automaton.BehindLookAroundEnds start goal) :
    (∃ answer, automaton.canReachWithoutConsuming start goal = .ok answer ∧
      automaton.CrossesLookAroundEnds false start goal answer) ∧
    ∃ answer, automaton.canReachWithoutConsumingNorCrossingBoundaries start goal = .ok answer ∧
      automaton.CrossesLookAroundEnds true start goal answer := by
  constructor
  · have between : automaton.AnswersBetween false start goal
        (automaton.canReachWithoutConsuming start goal) :=
      Automaton.answersBetween_walk linked Automaton.exploring_start
    exact between.crossesLookAroundEnds behind
  · have between : automaton.AnswersBetween true start goal
        (automaton.canReachWithoutConsumingNorCrossingBoundaries start goal) :=
      Automaton.answersBetween_walk linked Automaton.exploring_start
    exact between.crossesLookAroundEnds behind

/-- The calls that build `(?=)`. -/
def emptyLookaheadCalls : List Call :=
  [.construct ⟨⟨3, 3⟩, .empty, .sequence []⟩,
    .construct ⟨⟨0, 4⟩, .empty, .lookAround .positive .ahead ⟨0⟩⟩]

/-- The pattern `(?=)`. -/
def emptyLookahead? : Option Pattern :=
  finishedPattern? ⟨"(?=)", .java, []⟩ emptyLookaheadCalls ⟨1⟩ .empty

/-- In `(?=)` the final state lies behind the end of the lookaround. -/
theorem exists_emptyLookahead :
    ∃ pattern, emptyLookahead? = some pattern ∧ pattern.automaton.LinkedFrom ⟨0⟩ ∧
      pattern.automaton.BehindLookAroundEnds ⟨0⟩ pattern.final := by
  have computed : (emptyLookahead?.map fun pattern =>
      (pattern.automaton.allLinked && pattern.automaton.ids.contains ⟨0⟩, pattern.final,
        pattern.automaton.successors ⟨0⟩, pattern.automaton.endsLookAround ⟨2⟩)) =
      some (true, ⟨3⟩, .ok [⟨2⟩], true) := by decide +kernel
  obtain ⟨pattern, built, facts⟩ := Option.map_eq_some_iff.mp computed
  simp only [Prod.mk.injEq] at facts
  obtain ⟨checked, final, moves, ends⟩ := facts
  refine ⟨pattern, built, Automaton.linkedFrom_of_check checked, ?_⟩
  rw [final]
  exact Automaton.behindLookAroundEnds_of_successors (by decide) moves (by decide) ends

theorem emptyLookahead_lookaround_end_is_crossed :
    ∃ pattern, emptyLookahead? = some pattern ∧
      pattern.automaton.BehindLookAroundEnds ⟨0⟩ pattern.final ∧
      (∃ answer, pattern.automaton.canReachWithoutConsuming ⟨0⟩ pattern.final = .ok answer ∧
        pattern.automaton.CrossesLookAroundEnds false ⟨0⟩ pattern.final answer) ∧
      ∃ answer, pattern.automaton.canReachWithoutConsumingNorCrossingBoundaries ⟨0⟩
          pattern.final = .ok answer ∧
        pattern.automaton.CrossesLookAroundEnds true ⟨0⟩ pattern.final answer := by
  obtain ⟨pattern, built, linked, behind⟩ := exists_emptyLookahead
  exact ⟨pattern, built, behind, lookaround_end_is_crossed linked behind⟩

/-- In `(?=)` the final state is reached from inside the lookaround, by way of its end. -/
theorem reached_behind_lookaround_end :
    ∃ pattern, emptyLookahead? = some pattern ∧ pattern.automaton.allLinked = true ∧
      pattern.automaton.BehindLookAroundEnds ⟨0⟩ pattern.final ∧
      pattern.automaton.canReachWithoutConsuming ⟨0⟩ pattern.final = .ok true ∧
      pattern.automaton.canReachWithoutConsumingNorCrossingBoundaries ⟨0⟩ pattern.final =
        .ok true := by
  have computed : (emptyLookahead?.map fun pattern =>
      (pattern.automaton.allLinked,
        pattern.automaton.canReachWithoutConsuming ⟨0⟩ pattern.final,
        pattern.automaton.canReachWithoutConsumingNorCrossingBoundaries ⟨0⟩ pattern.final)) =
      some (true, .ok true, .ok true) := by decide +kernel
  obtain ⟨pattern, built, -, behind⟩ := exists_emptyLookahead
  rw [built, Option.map_some, Option.some.injEq] at computed
  obtain ⟨allLinked, answers⟩ := Prod.mk.inj computed
  exact ⟨pattern, built, allLinked, behind, Prod.mk.inj answers⟩

end PatternGraph
