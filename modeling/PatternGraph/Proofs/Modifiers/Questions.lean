/-
This file proves that the modifier of a quantifier affects the order of successors only. Alike
automata answer every question about a state in the same way, except that a repetition and its
branch may offer their choices in another order, and they do not if the order counts.

The walks through the graph are another matter, because they visit the states in different orders
and stop as soon as they have an answer. But each of them answers a question about paths: whether
the goal can be reached, by which moves, or whether the final state can be reached past no end
boundary. Such a question asks for the successors in no order, and of the states for what alike
states have in common. So the answers are the same, although they are found on different ways.
-/

import PatternGraph.Proofs.Modifiers.Runs
import PatternGraph.Proofs.Reach.Answers
import PatternGraph.Proofs.Reach.Capacity
import PatternGraph.Proofs.Reach.Uncrossed

namespace PatternGraph

open Relation

namespace Automaton

/-! ### Questions about one state -/

/-- The same fault, or the same successors, in an order that is the same where it counts. -/
inductive OffersAlike (ordered : Prop) :
    Except Fault (List StateId) → Except Fault (List StateId) → Prop
  | refused (fault : Fault) : OffersAlike ordered (.error fault) (.error fault)
  | offered {nexts reordered : List StateId} (perm : nexts.Perm reordered)
    (kept : ordered → nexts = reordered) : OffersAlike ordered (.ok nexts) (.ok reordered)

theorem OffersAlike.refl (ordered : Prop) (offer : Except Fault (List StateId)) :
    OffersAlike ordered offer offer := by
  cases offer with
  | error fault => exact .refused fault
  | ok nexts => exact .offered (.refl nexts) fun _ => rfl

/-- A repetition that may be skipped offers both ways, in the one order or the other. -/
theorem offersAlike_of_alike {ordered : Prop} {node other : Node} (pair : node.Alike ordered other)
    (range : TextRange) (flags : FlagSet) (continuation : Option StateId) :
    OffersAlike ordered (TreeNode.successors ⟨range, flags, node, continuation⟩)
      (TreeNode.successors ⟨range, flags, other, continuation⟩) := by
  cases pair with
  | same node => exact .refl ordered _
  | @repetition element quantifier changed pair =>
    simp only [TreeNode.successors, pair.minimum, pair.maximum]
    by_cases required : 0 < quantifier.minimum
    · simp only [if_pos required]
      exact .refl ordered _
    · simp only [if_neg required]
      cases continuation with
      | none => exact .refused _
      | some next =>
        simp only [TreeNode.exit, Except.map]
        by_cases never : quantifier.maximum = some 0
        · simp only [if_pos never]
          exact .refl ordered _
        · simp only [if_neg never]
          refine .offered ?_ fun kept => by rw [pair.reluctant kept]
          split <;> split <;> first | exact .refl _ | exact .swap _ _ _

/-- Whether a state is an end boundary is read off that state alone. -/
theorem isEndBoundary_eq_map (automaton : Automaton) (id : StateId) :
    automaton.isEndBoundary id = (automaton.state id).map fun state =>
      match state.tree?.map TreeNode.node with
      | some (.leaf (.boundary boundary)) => boundary.isEnd
      | _ => false := by
  rw [isEndBoundary, boundary?, tree?, state]
  cases automaton.state? id with
  | none => rfl
  | some state =>
    refine congrArg Except.ok ?_
    dsimp only [Option.bind_some]
    cases state.tree?.map TreeNode.node with
    | none => rfl
    | some node =>
      cases node with
      | leaf leaf => cases leaf <;> rfl
      | _ => rfl

namespace Alike

variable {ordered : Prop} {automaton changed : Automaton}
  (alike : automaton.Alike ordered changed)

include alike

section

variable {α : Type} {read : State → α}
  (nodes : ∀ range flags continuation element {quantifier other : Quantifier},
    quantifier.Alike ordered other →
    read (.tree ⟨range, flags, .repetition element other, continuation⟩) =
      read (.tree ⟨range, flags, .repetition element quantifier, continuation⟩))
  (branches : ∀ owner choices reordered,
    read (.branch owner reordered) = read (.branch owner choices))

include nodes branches

/-- A question about a state has the same answer if it reads neither the modifier of a quantifier
nor the choices of a branch. -/
theorem map_state? (id : StateId) :
    (changed.state? id).map read = (automaton.state? id).map read := by
  rcases alike.cases_state? id with ⟨absent, also⟩ | ⟨state, other, found, also, pair⟩
  · rw [absent, also, Option.map_none]
  · rw [found, also, Option.map_some, Option.map_some]
    cases pair with
    | same state => rfl
    | tree range flags continuation pair =>
      cases pair with
      | same node => rfl
      | repetition element pair => rw [nodes range flags continuation element pair]
    | branch owner perm kept => rw [branches]

theorem map_state (id : StateId) :
    (changed.state id).map read = (automaton.state id).map read := by
  have same := alike.map_state? nodes branches id
  rcases alike.cases_state? id with ⟨absent, also⟩ | ⟨state, other, found, also, -⟩
  · rw [Automaton.state, Automaton.state, absent, also]
  · rw [found, also] at same
    rw [state_eq_ok_iff.mpr found, state_eq_ok_iff.mpr also]
    exact congrArg Except.ok (Option.some.inj same)

end

theorem transition : changed.transition = automaton.transition :=
  funext (alike.map_state (fun _ _ _ _ _ _ _ => rfl) fun _ _ _ => rfl)

theorem isOfKind (kind : Kind) : changed.isOfKind kind = automaton.isOfKind kind :=
  funext (alike.map_state (fun _ _ _ _ _ _ _ => rfl) fun _ _ _ => rfl)

theorem isEndBoundary : changed.isEndBoundary = automaton.isEndBoundary := by
  funext id
  rw [isEndBoundary_eq_map, isEndBoundary_eq_map]
  exact alike.map_state (fun _ _ _ _ _ _ _ => rfl) (fun _ _ _ => rfl) id

theorem continuation : changed.continuation = automaton.continuation := by
  have replies : changed.continuationReply = automaton.continuationReply := by
    funext id
    have same : (changed.state? id).map (State.continuationReply id) =
        (automaton.state? id).map (State.continuationReply id) :=
      alike.map_state? (fun _ _ _ _ _ _ _ => rfl) (fun _ _ _ => rfl) id
    rw [continuationReply, continuationReply]
    rcases alike.cases_state? id with ⟨absent, also⟩ | ⟨state, other, found, also, -⟩
    · rw [absent, also]
    · rw [found, also] at same ⊢
      exact Option.some.inj same
  funext id
  rw [Automaton.continuation, Automaton.continuation, ask, ask, replies, alike.size]

theorem flags : changed.flags = automaton.flags := by
  have replies : (fun asked => (changed.state asked).map State.flagsReply) =
      fun asked => (automaton.state asked).map State.flagsReply :=
    funext (alike.map_state (fun _ _ _ _ _ _ _ => rfl) fun _ _ _ => rfl)
  funext id
  rw [Automaton.flags, Automaton.flags, ask, ask, replies, alike.size]

theorem successors (id : StateId) :
    OffersAlike ordered (automaton.successors id) (changed.successors id) := by
  rw [Automaton.successors, state, Automaton.successors, state, alike.continuation]
  rcases alike.cases_state? id with ⟨absent, also⟩ | ⟨state, other, found, also, pair⟩
  · rw [absent, also]
    exact .refused _
  · rw [found, also]
    cases pair with
    | same state => cases state <;> exact .refl ordered _
    | tree range flags continuation pair => exact offersAlike_of_alike pair range flags continuation
    | branch owner perm kept => exact .offered perm kept

theorem moves : changed.Moves = automaton.Moves := by
  funext id next
  have offers := alike.successors id
  rw [Moves, Moves]
  cases found : automaton.successors id with
  | error fault =>
    rw [found] at offers
    cases also : changed.successors id with
    | error other => simp
    | ok others =>
      rw [also] at offers
      cases offers
  | ok nexts =>
    rw [found] at offers
    cases also : changed.successors id with
    | error other =>
      rw [also] at offers
      cases offers
    | ok others =>
      rw [also] at offers
      cases offers with
      | offered perm _ => simp [perm.mem_iff]

theorem isFinal : changed.isFinal = automaton.isFinal := by
  funext id
  rw [Automaton.isFinal, Automaton.isFinal]
  rcases alike.cases_state? id with ⟨absent, also⟩ | ⟨state, other, found, also, pair⟩
  · rw [absent, also]
  · rw [found, also]
    cases pair <;> rfl

theorem isLookAround : changed.isLookAround = automaton.isLookAround := by
  funext id
  rw [Automaton.isLookAround, Automaton.isLookAround]
  rcases alike.cases_tree? id with ⟨absent, also⟩ | ⟨_, _, _, _, _, found, also, pair⟩
  · rw [absent, also]
  · rw [found, also]
    cases pair <;> rfl

/-! ### Questions about paths -/

theorem reaches : changed.Reaches = automaton.Reaches := by
  funext id goal
  rw [Reaches, alike.moves, Reaches]

theorem linkedFrom {start : StateId} (linked : automaton.LinkedFrom start) :
    changed.LinkedFrom start := by
  intro other reaches
  rw [alike.reaches] at reaches
  obtain ⟨nexts, found⟩ := linked other reaches
  have offers := alike.successors other
  rw [found] at offers
  cases also : changed.successors other with
  | error fault =>
    rw [also] at offers
    cases offers
  | ok others => exact ⟨others, rfl⟩

theorem movesFreely : changed.MovesFreely true = automaton.MovesFreely true := by
  funext id next
  simp only [MovesFreely, Leaves, CanLeave, EntersFreely, alike.moves, alike.isOfKind,
    alike.transition]

theorem reachesEnd : changed.ReachesEnd = automaton.ReachesEnd := by
  have steps : changed.MovesFrom changed.IsUnanchored =
      automaton.MovesFrom automaton.IsUnanchored := by
    funext id next
    simp only [MovesFrom, IsUnanchored, alike.moves, alike.isEndBoundary]
  funext start
  simp only [ReachesEnd, OpenPath, steps, alike.isFinal]

theorem movesPast : changed.MovesPast = automaton.MovesPast := by
  funext id next
  simp only [MovesPast, alike.isLookAround, alike.continuation, alike.moves]

/-! ### Walks -/

section

variable {start : StateId} (linked : automaton.LinkedFrom start)

include linked

theorem canReach {checker : Checker} (goal : StateId) (empty : checker.memory = [])
    (enough : automaton.size ≤ checker.limit) :
    (checker.canReach changed start goal).answer =
      (checker.canReach automaton start goal).answer := by
  have roomy : checker.Roomy automaton goal := Checker.roomy_of_memory_nil empty enough
  have roomyToo : checker.Roomy changed goal :=
    Checker.roomy_of_memory_nil empty (alike.size.symm ▸ enough)
  obtain ⟨answer, answered, leads⟩ := Checker.canReach_eq_ok_iff_leads linked roomy
  obtain ⟨other, also, leadsToo⟩ :=
    Checker.canReach_eq_ok_iff_leads (alike.linkedFrom linked) roomyToo
  rw [Checker.leads_iff_reaches_of_memory_nil empty] at leads leadsToo
  rw [answered, also, Bool.eq_iff_iff.mpr (leads.trans (alike.reaches ▸ leadsToo.symm))]

theorem canReachNorCrossing (goal : StateId) :
    changed.canReachWithoutConsumingNorCrossingBoundaries start goal =
      automaton.canReachWithoutConsumingNorCrossingBoundaries start goal := by
  obtain ⟨answer, answered, path⟩ := exists_canReachNorCrossing linked goal
  obtain ⟨other, also, pathToo⟩ := exists_canReachNorCrossing (alike.linkedFrom linked) goal
  rw [alike.movesFreely] at pathToo
  rw [answered, also, Bool.eq_iff_iff.mpr (path.trans pathToo.symm)]

theorem isAnchoredAtEnd : changed.isAnchoredAtEnd start = automaton.isAnchoredAtEnd start := by
  obtain ⟨answer, answered, ends⟩ := exists_isAnchoredAtEnd linked
  obtain ⟨other, also, endsToo⟩ := exists_isAnchoredAtEnd (alike.linkedFrom linked)
  rw [alike.reachesEnd] at endsToo
  have same : answer = false ↔ other = false := ends.trans endsToo.symm
  rw [answered, also]
  cases answer <;> cases other <;> simp_all

theorem onlyMatchesEmptySuffix :
    changed.onlyMatchesEmptySuffix start = automaton.onlyMatchesEmptySuffix start := by
  obtain ⟨answer, answered, empty⟩ := exists_onlyMatchesEmptySuffix linked
  obtain ⟨other, also, emptyToo⟩ := exists_onlyMatchesEmptySuffix (alike.linkedFrom linked)
  rw [alike.movesPast, alike.transition] at emptyToo
  rw [answered, also, Bool.eq_iff_iff.mpr (empty.trans emptyToo.symm)]

end

end Alike

end Automaton

/-! ### Two runs -/

/-- What is the same of two patterns whose quantifiers differ in their modifiers only: the handles,
every question about one state except for the order of successors, and every query that starts
inside. -/
structure Pattern.Agrees (ordered : Prop) (pattern changed : Pattern) : Prop where
  root : changed.root = pattern.root
  start : changed.start = pattern.start
  final : changed.final = pattern.final
  size : changed.automaton.size = pattern.automaton.size
  continuation (id : StateId) :
    changed.automaton.continuation id = pattern.automaton.continuation id
  transition (id : StateId) : changed.automaton.transition id = pattern.automaton.transition id
  flags (id : StateId) : changed.automaton.flags id = pattern.automaton.flags id
  successors (id : StateId) : Automaton.OffersAlike ordered (pattern.automaton.successors id)
    (changed.automaton.successors id)
  canReach {checker : Checker} {start : StateId} (goal : StateId) : pattern.Inner start →
    checker.memory = [] → pattern.automaton.size ≤ checker.limit →
      (checker.canReach changed.automaton start goal).answer =
        (checker.canReach pattern.automaton start goal).answer
  canReachNorCrossing {start : StateId} (goal : StateId) : pattern.Inner start →
    changed.automaton.canReachWithoutConsumingNorCrossingBoundaries start goal =
      pattern.automaton.canReachWithoutConsumingNorCrossingBoundaries start goal
  isAnchoredAtEnd {start : StateId} : pattern.Inner start →
    changed.automaton.isAnchoredAtEnd start = pattern.automaton.isAnchoredAtEnd start
  onlyMatchesEmptySuffix {start : StateId} : pattern.Inner start →
    changed.automaton.onlyMatchesEmptySuffix start =
      pattern.automaton.onlyMatchesEmptySuffix start

theorem Pattern.Finished.agrees {pattern : Pattern} (finished : pattern.Finished) {ordered : Prop}
    {changed : Automaton} (alike : pattern.automaton.Alike ordered changed) :
    pattern.Agrees ordered { pattern with automaton := changed } where
  root := rfl
  start := rfl
  final := rfl
  size := alike.size
  continuation := congrFun alike.continuation
  transition := congrFun alike.transition
  flags := congrFun alike.flags
  successors := alike.successors
  canReach goal inner empty enough :=
    alike.canReach (finished.sound.linkedFrom (inner.outside finished)) goal empty enough
  canReachNorCrossing goal inner :=
    alike.canReachNorCrossing (finished.sound.linkedFrom (inner.outside finished)) goal
  isAnchoredAtEnd inner :=
    alike.isAnchoredAtEnd (finished.sound.linkedFrom (inner.outside finished))
  onlyMatchesEmptySuffix inner :=
    alike.onlyMatchesEmptySuffix (finished.sound.linkedFrom (inner.outside finished))

/-- Two runs that differ in modifiers only have the same answers, and finishing after them fails
with the same fault or gives patterns that differ in the order of successors only, and not in that
if the modifiers agree on what is reluctant. -/
theorem modifiers_affect_order_only {ordered : Prop} {calls others : List Call}
    (pairs : List.Forall₂ (Call.Alike ordered) calls others) (source : Source) :
    let built := (Automaton.ofSource source).performAll calls
    let rebuilt := (Automaton.ofSource source).performAll others
    (Automaton.ofSource source).answers others = (Automaton.ofSource source).answers calls ∧
      ∀ root flags,
        (∀ fault, (rebuilt.automaton.finish root flags).answer = .error fault ↔
          (built.automaton.finish root flags).answer = .error fault) ∧
        ∀ pattern, built.Returns () → (built.automaton.finish root flags).Returns pattern →
          ∃ changed, rebuilt.Returns () ∧
            (rebuilt.automaton.finish root flags).Returns changed ∧
            pattern.Agrees ordered changed := by
  intro built rebuilt
  have same := Automaton.Alike.refl ordered (Automaton.ofSource source)
  obtain ⟨answer, -, alike⟩ := same.performAll pairs
  refine ⟨same.answers pairs, fun root flags => ?_⟩
  obtain ⟨after, outcome⟩ := alike.finish root flags
  rcases outcome with ⟨fault, refused, also⟩ | ⟨pattern, other, answered, also, patterns⟩
  · refine ⟨fun _ => by rw [refused, also], fun pattern _ returned => ?_⟩
    cases refused.symm.trans returned.1
  · refine ⟨fun _ => by rw [answered, also]; simp, fun result performed returned => ?_⟩
    cases answered.symm.trans returned.1
    have finished : pattern.Finished := ⟨source, calls, root, flags, performed, returned⟩
    refine ⟨_, ⟨answer.trans performed.1, ?_⟩, ⟨also, ?_⟩, finished.agrees patterns⟩
    · exact alike.size.trans_le performed.2
    · exact after.size.trans_le returned.2

/-- The pattern `a(b|c)*?d` agrees with `a(b|c)*d`. -/
theorem loop_modifiers_affect_order_only :
    let built := (Automaton.ofSource loopSource).performAll loopCalls
    let rebuilt := (Automaton.ofSource loopSource).performAll
      (loopCalls.map (Call.modified .reluctant))
    ∃ pattern changed, (built.automaton.finish ⟨9⟩ .empty).Returns pattern ∧
      (rebuilt.automaton.finish ⟨9⟩ .empty).Returns changed ∧ pattern.Agrees False changed := by
  intro built rebuilt
  have pairs : List.Forall₂ (Call.Alike False) loopCalls
      (loopCalls.map (Call.modified .reluctant)) :=
    List.forall₂_map_right_iff.mpr (List.forall₂_same.mpr fun call _ => call.alike_modified _)
  have answers : (built.automaton.finish ⟨9⟩ .empty).answer.toOption.isSome := by decide +kernel
  obtain ⟨pattern, answered⟩ := exists_of_isSome_toOption answers
  have returned : (built.automaton.finish ⟨9⟩ .empty).Returns pattern :=
    ⟨answered, by decide +kernel⟩
  obtain ⟨-, finishes⟩ := modifiers_affect_order_only pairs loopSource
  obtain ⟨changed, -, also, agrees⟩ := (finishes ⟨9⟩ .empty).2 pattern
    ⟨by decide +kernel, by decide +kernel⟩ returned
  exact ⟨pattern, changed, returned, also, agrees⟩

end PatternGraph
