/-
This file says what a walk without consumed input finds. Asked of a single path, the question is
clear: a path consumes nothing if every state it enters is entered by an empty step or the way into
a negative lookaround, or is a possible line break with an end boundary before it on the path. The
walk, however, asks whether an end boundary is among all states it has visited, on whatever branch,
and it visits a state only once.

So the walk can be wrong in both ways. It takes a line break for free after a boundary that lies on
another branch, and it refuses one after a boundary on the path if it came to the state before the
line break earlier, without a boundary. What it finds lies between two kinds of paths. On a path of
sure moves a line break is entered only from states that cannot be reached without meeting a
boundary; such paths are found. On a path of possible moves a line break is entered if a boundary
can be met at all; nothing else is found. The two agree, and the answer is right, if no line break
follows a state that can be reached without meeting a boundary, or if no boundary can be met.

`Exploring` is the invariant of the walk. It holds for both forms of the question, whether the walk
goes on from boundaries or stops at them.
-/

import PatternGraph.Proofs.Reach.Search
import PatternGraph.Proofs.Run
import PatternGraph.Reach.NonConsuming

namespace PatternGraph

open Relation

namespace Automaton

section

variable (automaton : Automaton) (stopAtBoundaries : Bool)

/-! ### Paths that consume nothing -/

/-- Nothing is consumed on the way into the state. -/
def EntersFreely (id : StateId) : Prop :=
  automaton.transition id = .ok .epsilon ∨ automaton.transition id = .ok .negation

/-- A state may be left, unless it is a boundary and boundaries are not crossed. -/
def CanLeave (id : StateId) : Prop :=
  stopAtBoundaries = true → automaton.isOfKind .boundary id = .ok false

/-- A move from a state that may be left. -/
def Leaves (id next : StateId) : Prop :=
  automaton.CanLeave stopAtBoundaries id ∧ automaton.Moves id next

/-- A path to the state that consumes nothing. The list holds the states that the path leaves, the
last of them first, and a line break is entered only if one of them is an end boundary. -/
def UnconsumingPath (start : StateId) : List StateId → StateId → Prop
  | [], id => id = start
  | previous :: left, id => UnconsumingPath start left previous ∧
    automaton.Leaves stopAtBoundaries previous id ∧
      (automaton.EntersFreely id ∨ automaton.isFinalLineBreak (previous :: left) id = true)

instance (id : StateId) : Decidable (automaton.EntersFreely id) :=
  inferInstanceAs (Decidable (_ ∨ _))

instance (id next : StateId) : Decidable (automaton.Leaves stopAtBoundaries id next) :=
  inferInstanceAs (Decidable ((_ → _) ∧ _))

instance decidableUnconsumingPath (start : StateId) : (left : List StateId) → (id : StateId) →
    Decidable (automaton.UnconsumingPath stopAtBoundaries start left id)
  | [], id => inferInstanceAs (Decidable (id = start))
  | previous :: left, _ =>
    have := decidableUnconsumingPath start left previous
    inferInstanceAs (Decidable (_ ∧ _ ∧ (_ ∨ _)))

/-! ### What is certain and what is possible -/

/-- A move that consumes nothing wherever the path to it comes from. -/
def MovesFreely (id next : StateId) : Prop :=
  automaton.Leaves stopAtBoundaries id next ∧ automaton.EntersFreely next

/-- The state can be reached by free moves without meeting an end boundary. -/
def Unguarded (start id : StateId) : Prop :=
  ReflTransGen (fun id next => automaton.MovesFreely stopAtBoundaries id next ∧
    automaton.allowsLineBreak id = false) start id ∧ automaton.allowsLineBreak id = false

/-- Free moves lead to an end boundary that may be left. -/
def MeetsBoundary (start : StateId) : Prop :=
  ∃ boundary, ReflTransGen (automaton.MovesFreely stopAtBoundaries) start boundary ∧
    automaton.CanLeave stopAtBoundaries boundary ∧ automaton.allowsLineBreak boundary = true

/-- A free move, or one into a line break from a state that is always guarded by a boundary. -/
def SureMove (start id next : StateId) : Prop :=
  automaton.Leaves stopAtBoundaries id next ∧
    (automaton.EntersFreely next ∨
      automaton.mayBreakLine next = true ∧ ¬ automaton.Unguarded stopAtBoundaries start id)

/-- A free move, or one into a line break if a boundary can be met. -/
def PossibleMove (start id next : StateId) : Prop :=
  automaton.Leaves stopAtBoundaries id next ∧
    (automaton.EntersFreely next ∨
      automaton.mayBreakLine next = true ∧ automaton.MeetsBoundary stopAtBoundaries start)

end

section

variable {automaton : Automaton} {stopAtBoundaries : Bool} {start goal : StateId}

theorem isFinalLineBreak_iff {visited : List StateId} {id : StateId} :
    automaton.isFinalLineBreak visited id = true ↔
      automaton.mayBreakLine id = true ∧ visited.any automaton.allowsLineBreak = true :=
  Bool.and_eq_true_iff

theorem Unguarded.reaches_freely {id : StateId}
    (unguarded : automaton.Unguarded stopAtBoundaries start id) :
    ReflTransGen (automaton.MovesFreely stopAtBoundaries) start id :=
  ReflTransGen.mono (fun _ _ step => And.left step) _ _ unguarded.1

theorem Unguarded.step {id next : StateId}
    (unguarded : automaton.Unguarded stopAtBoundaries start id)
    (moves : automaton.MovesFreely stopAtBoundaries id next)
    (other : automaton.allowsLineBreak next = false) :
    automaton.Unguarded stopAtBoundaries start next :=
  ⟨unguarded.1.tail ⟨moves, unguarded.2⟩, other⟩

/-- Without a boundary on it a path consists of free moves. -/
theorem UnconsumingPath.unguarded {left : List StateId} {id : StateId}
    (path : automaton.UnconsumingPath stopAtBoundaries start left id)
    (unmet : (id :: left).any automaton.allowsLineBreak = false) :
    automaton.Unguarded stopAtBoundaries start id := by
  induction left generalizing id with
  | nil =>
    cases path
    exact ⟨.refl, by simpa using unmet⟩
  | cons previous left inductionHypothesis =>
    obtain ⟨before, leaves, enters⟩ := path
    obtain ⟨other, unmetBefore⟩ := Bool.or_eq_false_iff.mp (List.any_cons ▸ unmet)
    refine (inductionHypothesis before unmetBefore).step ⟨leaves, ?_⟩ other
    refine enters.resolve_right fun breaks => ?_
    cases unmetBefore.symm.trans (isFinalLineBreak_iff.mp breaks).2

theorem Unguarded.exists_unconsumingPath {id : StateId}
    (unguarded : automaton.Unguarded stopAtBoundaries start id) :
    ∃ left, automaton.UnconsumingPath stopAtBoundaries start left id ∧
      (id :: left).any automaton.allowsLineBreak = false := by
  obtain ⟨steps, here⟩ := unguarded
  induction steps with
  | refl => exact ⟨[], rfl, by simpa using here⟩
  | @tail previous id _ step inductionHypothesis =>
    obtain ⟨left, path, unmet⟩ := inductionHypothesis step.2
    exact ⟨previous :: left, ⟨path, step.1.1, Or.inl step.1.2⟩,
      by rw [List.any_cons, here, unmet, Bool.or_self]⟩

/-- A state is unguarded if a path without a boundary leads to it. -/
theorem unguarded_iff {id : StateId} : automaton.Unguarded stopAtBoundaries start id ↔
    ∃ left, automaton.UnconsumingPath stopAtBoundaries start left id ∧
      (id :: left).any automaton.allowsLineBreak = false :=
  ⟨Unguarded.exists_unconsumingPath, fun ⟨_, path, unmet⟩ => path.unguarded unmet⟩

/-- The first boundary of a path is reached by free moves. -/
theorem UnconsumingPath.meetsBoundary {left : List StateId} {id : StateId}
    (path : automaton.UnconsumingPath stopAtBoundaries start left id)
    (canLeave : automaton.CanLeave stopAtBoundaries id)
    (met : (id :: left).any automaton.allowsLineBreak = true) :
    automaton.MeetsBoundary stopAtBoundaries start := by
  induction left generalizing id with
  | nil =>
    cases path
    exact ⟨start, .refl, canLeave, by simpa using met⟩
  | cons previous left inductionHypothesis =>
    obtain ⟨before, leaves, enters⟩ := path
    cases metBefore : (previous :: left).any automaton.allowsLineBreak with
    | true => exact inductionHypothesis before leaves.1 metBefore
    | false =>
      have free : automaton.EntersFreely id := enters.resolve_right fun breaks => by
        cases metBefore.symm.trans (isFinalLineBreak_iff.mp breaks).2
      rw [List.any_cons, metBefore, Bool.or_false] at met
      exact ⟨id, (before.unguarded metBefore).reaches_freely.tail ⟨leaves, free⟩, canLeave, met⟩

/-- A path of sure moves consumes nothing. -/
theorem exists_unconsumingPath {id : StateId}
    (sure : ReflTransGen (automaton.SureMove stopAtBoundaries start) start id) :
    ∃ left, automaton.UnconsumingPath stopAtBoundaries start left id := by
  induction sure with
  | refl => exact ⟨[], rfl⟩
  | @tail id next _ move inductionHypothesis =>
    obtain ⟨left, path⟩ := inductionHypothesis
    refine ⟨id :: left, path, move.1, move.2.imp_right fun ⟨breaks, guarded⟩ => ?_⟩
    refine isFinalLineBreak_iff.mpr ⟨breaks, ?_⟩
    cases met : (id :: left).any automaton.allowsLineBreak with
    | true => rfl
    | false => exact absurd (path.unguarded met) guarded

/-- A path that consumes nothing is one of possible moves. -/
theorem UnconsumingPath.possible {left : List StateId} {id : StateId}
    (path : automaton.UnconsumingPath stopAtBoundaries start left id) :
    ReflTransGen (automaton.PossibleMove stopAtBoundaries start) start id := by
  induction left generalizing id with
  | nil =>
    cases path
    exact .refl
  | cons previous left inductionHypothesis =>
    obtain ⟨before, leaves, enters⟩ := path
    refine (inductionHypothesis before).tail ⟨leaves, enters.imp_right fun breaks => ?_⟩
    obtain ⟨mayBreak, met⟩ := isFinalLineBreak_iff.mp breaks
    exact ⟨mayBreak, before.meetsBoundary leaves.1 met⟩

/-- Free moves are certain. -/
theorem sure_of_freely {id : StateId}
    (path : ReflTransGen (automaton.MovesFreely stopAtBoundaries) start id) :
    ReflTransGen (automaton.SureMove stopAtBoundaries start) start id :=
  ReflTransGen.mono (fun _ _ move => ⟨move.1, Or.inl move.2⟩) _ _ path

/-- Where no end boundary can be met, possible moves are free. -/
theorem freely_of_possible (unmet : ¬ automaton.MeetsBoundary stopAtBoundaries start) {id : StateId}
    (possible : ReflTransGen (automaton.PossibleMove stopAtBoundaries start) start id) :
    ReflTransGen (automaton.MovesFreely stopAtBoundaries) start id :=
  ReflTransGen.mono (fun _ _ move => ⟨move.1, move.2.resolve_right fun breaks => unmet breaks.2⟩)
    _ _ possible

/-! ### What a walk knows -/

section

variable (automaton stopAtBoundaries start goal)

/-- A visit was made, or came to nothing because the state cannot be left, or is still to be
made. -/
def Settled (visited : List StateId) (visits : List Visit) (visit : Visit) : Prop :=
  visit.state ∈ visited ∨
    (¬ automaton.CanLeave stopAtBoundaries visit.state ∧ visit.state ≠ goal) ∨ visit ∈ visits

/-- What holds of the visited states and the visits to be made. -/
structure Exploring (visited : List StateId) (visits : List Visit) : Prop where
  missed : goal ∉ visited
  canLeave {id : StateId} : id ∈ visited → automaton.CanLeave stopAtBoundaries id
  possible {id : StateId} : id ∈ visited →
    ReflTransGen (automaton.PossibleMove stopAtBoundaries start) start id
  waiting {visit : Visit} : visit ∈ visits → visit = .reached start ∨
    ∃ id next, visit = .across next ∧ id ∈ visited ∧ automaton.Moves id next
  met : visited.any automaton.allowsLineBreak = true →
    automaton.MeetsBoundary stopAtBoundaries start
  unmet {id : StateId} : visited.any automaton.allowsLineBreak = false → id ∈ visited →
    automaton.Unguarded stopAtBoundaries start id
  closed {id next : StateId} : id ∈ visited →
    automaton.SureMove stopAtBoundaries start id next →
      automaton.Settled stopAtBoundaries goal visited visits (.across next)
  begun : automaton.Settled stopAtBoundaries goal visited visits (.reached start)

/-- The answer lies between what is certain and what is possible. -/
def AnswersBetween (result : Except Fault Bool) : Prop :=
  ∃ answer, result = .ok answer ∧
    (ReflTransGen (automaton.SureMove stopAtBoundaries start) start goal → answer = true) ∧
    (answer = true → ReflTransGen (automaton.PossibleMove stopAtBoundaries start) start goal)

end

theorem exploring_start : automaton.Exploring stopAtBoundaries start goal [] [.reached start] where
  missed := List.not_mem_nil
  canLeave member := absurd member List.not_mem_nil
  possible member := absurd member List.not_mem_nil
  waiting member := Or.inl (List.mem_singleton.mp member)
  met none := by cases none
  unmet _ member := absurd member List.not_mem_nil
  closed member := absurd member List.not_mem_nil
  begun := Or.inr (Or.inr (List.mem_singleton_self _))

theorem reaches_of_possible {id : StateId}
    (possible : ReflTransGen (automaton.PossibleMove stopAtBoundaries start) start id) :
    automaton.Reaches start id :=
  ReflTransGen.mono (fun _ _ move => (And.left move).2) _ _ possible

theorem canCross_across {visited : List StateId} {id : StateId} {crosses : Bool}
    (asked : automaton.canCross visited (.across id) = .ok crosses) :
    crosses = true ↔
      automaton.EntersFreely id ∨ automaton.isFinalLineBreak visited id = true := by
  obtain ⟨transition, entered, rfl⟩ := exists_of_map_eq_ok asked
  simp [EntersFreely, entered, or_assoc]

theorem stopsAt_eq_ok_true {visited : List StateId} {id : StateId}
    (stops : automaton.stopsAt stopAtBoundaries visited id = .ok true) :
    id ∈ visited ∨ ¬ automaton.CanLeave stopAtBoundaries id := by
  unfold stopsAt at stops
  unfold CanLeave
  split at stops
  · rename_i seen
    exact Or.inl (by simpa using seen)
  · split at stops
    · rename_i strict
      exact Or.inr (by simp [strict, stops])
    · cases stops

theorem stopsAt_eq_ok_false {visited : List StateId} {id : StateId}
    (goesOn : automaton.stopsAt stopAtBoundaries visited id = .ok false) :
    id ∉ visited ∧ automaton.CanLeave stopAtBoundaries id := by
  have unseen := unseen_of_stopsAt goesOn
  refine ⟨by simpa using unseen, fun strict => ?_⟩
  unfold stopsAt at goesOn
  rwa [unseen, if_neg Bool.false_ne_true, if_pos strict] at goesOn

section

variable {visited : List StateId} {visit : Visit} {pending : List Visit}
  (exploring : automaton.Exploring stopAtBoundaries start goal visited (visit :: pending))

include exploring

theorem Exploring.reaches : automaton.Reaches start visit.state := by
  rcases exploring.waiting List.mem_cons_self with rfl | ⟨id, next, rfl, member, moves⟩
  · exact .refl
  · exact .tail (reaches_of_possible (exploring.possible member)) moves

/-- How the walk comes to a state: it starts there, or it crosses an edge from a visited state. -/
theorem Exploring.crossed (crosses : automaton.canCross visited visit = .ok true) :
    visit.state = start ∨ ∃ id ∈ visited, automaton.Leaves stopAtBoundaries id visit.state ∧
      (automaton.EntersFreely visit.state ∨
        automaton.isFinalLineBreak visited visit.state = true) := by
  rcases exploring.waiting List.mem_cons_self with rfl | ⟨id, next, rfl, member, moves⟩
  · exact Or.inl rfl
  · exact Or.inr ⟨id, member, ⟨exploring.canLeave member, moves⟩,
      (canCross_across crosses).mp rfl⟩

/-- A state that the walk comes to is possible. -/
theorem Exploring.possible_of_crosses (crosses : automaton.canCross visited visit = .ok true) :
    ReflTransGen (automaton.PossibleMove stopAtBoundaries start) start visit.state := by
  rcases exploring.crossed crosses with same | ⟨id, member, leaves, enters⟩
  · rw [same]
  · refine (exploring.possible member).tail ⟨leaves, enters.imp_right fun breaks => ?_⟩
    obtain ⟨mayBreak, met⟩ := isFinalLineBreak_iff.mp breaks
    exact ⟨mayBreak, exploring.met met⟩

/-- As long as no boundary was visited, the walk moves freely. -/
theorem Exploring.freely_of_crosses (crosses : automaton.canCross visited visit = .ok true)
    (unmet : visited.any automaton.allowsLineBreak = false) :
    visit.state = start ∨ ∃ id, automaton.Unguarded stopAtBoundaries start id ∧
      automaton.MovesFreely stopAtBoundaries id visit.state := by
  refine (exploring.crossed crosses).imp_right fun ⟨id, member, leaves, enters⟩ => ?_
  have free : automaton.EntersFreely visit.state := enters.resolve_right fun breaks => by
    cases unmet.symm.trans (isFinalLineBreak_iff.mp breaks).2
  exact ⟨id, exploring.unmet unmet member, leaves, free⟩

/-- A visit can be dropped once it is settled otherwise, and so can one that no sure move asks
for. -/
theorem Exploring.drop
    (dropped : visit.state ∈ visited ∨
        (¬ automaton.CanLeave stopAtBoundaries visit.state ∧ visit.state ≠ goal) ∨
      automaton.canCross visited visit = .ok false) :
    automaton.Exploring stopAtBoundaries start goal visited pending := by
  have settled {other : Visit}
      (was : automaton.Settled stopAtBoundaries goal visited (visit :: pending) other)
      (needed : other = visit → automaton.canCross visited visit ≠ .ok false) :
      automaton.Settled stopAtBoundaries goal visited pending other := by
    rcases was with seen | stuck | waits
    · exact Or.inl seen
    · exact Or.inr (Or.inl stuck)
    · rcases List.mem_cons.mp waits with rfl | later
      · rcases dropped with seen | stuck | refused
        · exact Or.inl seen
        · exact Or.inr (Or.inl stuck)
        · exact absurd refused (needed rfl)
      · exact Or.inr (Or.inr later)
  refine { exploring with
    waiting := fun member => exploring.waiting (List.mem_cons_of_mem _ member)
    closed := fun {id next} member sure => settled (exploring.closed member sure) ?_
    begun := settled exploring.begun ?_ }
  · rintro rfl refused
    -- Only a move into a line break is refused, and only while no boundary was visited.
    obtain ⟨notFree, notBreak⟩ := not_or.mp
      (mt (canCross_across refused).mpr Bool.false_ne_true)
    obtain ⟨mayBreak, guarded⟩ := sure.2.resolve_left notFree
    cases met : visited.any automaton.allowsLineBreak with
    | true => exact notBreak (isFinalLineBreak_iff.mpr ⟨mayBreak, met⟩)
    | false => exact guarded (exploring.unmet met member)
  · rintro rfl refused
    cases refused

/-- The invariant when the walk goes on from a state. -/
theorem Exploring.enter (crosses : automaton.canCross visited visit = .ok true)
    (other : visit.state ≠ goal) (canLeave : automaton.CanLeave stopAtBoundaries visit.state)
    {nexts : List StateId} (offered : automaton.successors visit.state = .ok nexts) :
    automaton.Exploring stopAtBoundaries start goal (visit.state :: visited)
      (nexts.map .across ++ pending) := by
  have settled {further : Visit}
      (was : automaton.Settled stopAtBoundaries goal visited (visit :: pending) further) :
      automaton.Settled stopAtBoundaries goal (visit.state :: visited)
        (nexts.map .across ++ pending) further := by
    rcases was with seen | stuck | waits
    · exact Or.inl (List.mem_cons_of_mem _ seen)
    · exact Or.inr (Or.inl stuck)
    · rcases List.mem_cons.mp waits with rfl | later
      · exact Or.inl List.mem_cons_self
      · exact Or.inr (Or.inr (List.mem_append_right _ later))
  refine ⟨?missed, ?canLeave, ?possible, ?waiting, ?met, ?unmet, ?closed,
    settled exploring.begun⟩
  case missed =>
    intro member
    rcases List.mem_cons.mp member with same | old
    · exact other same.symm
    · exact exploring.missed old
  case canLeave =>
    intro id member
    rcases List.mem_cons.mp member with rfl | old
    · exact canLeave
    · exact exploring.canLeave old
  case possible =>
    intro id member
    rcases List.mem_cons.mp member with rfl | old
    · exact exploring.possible_of_crosses crosses
    · exact exploring.possible old
  case waiting =>
    intro further member
    rcases List.mem_append.mp member with new | later
    · obtain ⟨next, inNexts, rfl⟩ := List.mem_map.mp new
      exact Or.inr ⟨visit.state, next, rfl, List.mem_cons_self, nexts, offered, inNexts⟩
    · refine (exploring.waiting (List.mem_cons_of_mem _ later)).imp_right ?_
      rintro ⟨id, next, same, old, moves⟩
      exact ⟨id, next, same, List.mem_cons_of_mem _ old, moves⟩
  case met =>
    intro met
    cases metBefore : visited.any automaton.allowsLineBreak with
    | true => exact exploring.met metBefore
    | false =>
      rw [List.any_cons, metBefore, Bool.or_false] at met
      rcases exploring.freely_of_crosses crosses metBefore with same | ⟨id, unguarded, moves⟩
      · exact ⟨visit.state, same ▸ .refl, canLeave, met⟩
      · exact ⟨visit.state, unguarded.reaches_freely.tail moves, canLeave, met⟩
  case unmet =>
    intro id unmet member
    obtain ⟨here, before⟩ := Bool.or_eq_false_iff.mp (List.any_cons ▸ unmet)
    rcases List.mem_cons.mp member with rfl | old
    · rcases exploring.freely_of_crosses crosses before with same | ⟨id, unguarded, moves⟩
      · exact ⟨same ▸ .refl, here⟩
      · exact unguarded.step moves here
    · exact exploring.unmet before old
  case closed =>
    intro id next member sure
    rcases List.mem_cons.mp member with rfl | old
    · obtain ⟨found, offeredToo, inNexts⟩ := sure.1.2
      cases offered.symm.trans offeredToo
      exact Or.inr (Or.inr (List.mem_append_left _ (List.mem_map_of_mem inNexts)))
    · exact settled (exploring.closed old sure)

end

/-- When nothing is left to be visited, no sure path leads to the goal. -/
theorem Exploring.not_sure {visited : List StateId}
    (exploring : automaton.Exploring stopAtBoundaries start goal visited []) :
    ¬ ReflTransGen (automaton.SureMove stopAtBoundaries start) start goal := by
  have held {id : StateId}
      (sure : ReflTransGen (automaton.SureMove stopAtBoundaries start) start id) :
      id ∈ visited ∨ (¬ automaton.CanLeave stopAtBoundaries id ∧ id ≠ goal) := by
    induction sure with
    | refl => exact exploring.begun.imp_right fun rest => rest.resolve_right List.not_mem_nil
    | tail _ move inductionHypothesis =>
      have seen := inductionHypothesis.resolve_right fun stuck => stuck.1 move.1.1
      exact (exploring.closed seen move).imp_right fun rest => rest.resolve_right List.not_mem_nil
  intro sure
  rcases held sure with seen | ⟨-, other⟩
  · exact exploring.missed seen
  · exact other rfl

/-! ### The steps of a walk -/

section

variable {visited : List StateId} {visit : Visit} {pending : List Visit}

theorem walkWithoutConsuming_blocked (blocked : automaton.canCross visited visit = .ok false) :
    automaton.walkWithoutConsuming goal stopAtBoundaries visited (visit :: pending) =
      automaton.walkWithoutConsuming goal stopAtBoundaries visited pending := by
  rw [walkWithoutConsuming]
  simp only [blocked]

variable (crosses : automaton.canCross visited visit = .ok true)

include crosses

theorem walkWithoutConsuming_arrives (reached : visit.state = goal) :
    automaton.walkWithoutConsuming goal stopAtBoundaries visited (visit :: pending) = .ok true := by
  rw [walkWithoutConsuming]
  simp only [crosses, if_pos reached]

variable (other : visit.state ≠ goal)

include other

theorem walkWithoutConsuming_stops
    (stops : automaton.stopsAt stopAtBoundaries visited visit.state = .ok true) :
    automaton.walkWithoutConsuming goal stopAtBoundaries visited (visit :: pending) =
      automaton.walkWithoutConsuming goal stopAtBoundaries visited pending := by
  rw [walkWithoutConsuming]
  simp only [crosses, if_neg other]
  split
  · rename_i fault failed
    cases stops.symm.trans failed
  · rfl
  · rename_i goesOn
    cases stops.symm.trans goesOn

theorem walkWithoutConsuming_enters
    (goesOn : automaton.stopsAt stopAtBoundaries visited visit.state = .ok false)
    {nexts : List StateId} (offered : automaton.successors visit.state = .ok nexts) :
    automaton.walkWithoutConsuming goal stopAtBoundaries visited (visit :: pending) =
      automaton.walkWithoutConsuming goal stopAtBoundaries (visit.state :: visited)
        (nexts.map .across ++ pending) := by
  rw [walkWithoutConsuming]
  simp only [crosses, if_neg other]
  split
  · rename_i fault failed
    cases goesOn.symm.trans failed
  · rename_i stops
    cases goesOn.symm.trans stops
  · split
    · rename_i fault failed
      cases offered.symm.trans failed
    · rename_i same offeredToo
      cases offered.symm.trans offeredToo
      rfl

end

/-! ### The walk -/

theorem exists_canCross {visit : Visit} {state : State}
    (found : automaton.state visit.state = .ok state) (visited : List StateId) :
    ∃ crosses, automaton.canCross visited visit = .ok crosses := by
  cases visit with
  | reached id => exact ⟨true, rfl⟩
  | across id =>
    have entered : automaton.transition id = .ok state.transition := by
      rw [transition, show automaton.state id = .ok state from found]
      rfl
    exact ⟨_, by rw [canCross, entered]; rfl⟩

theorem exists_stopsAt {id : StateId} {state : State} (found : automaton.state id = .ok state)
    (visited : List StateId) :
    ∃ stops, automaton.stopsAt stopAtBoundaries visited id = .ok stops := by
  unfold stopsAt
  split
  · exact ⟨true, rfl⟩
  · split
    · rw [isOfKind, found]
      exact ⟨_, rfl⟩
    · exact ⟨false, rfl⟩

theorem exists_state_of_successors {id : StateId} {nexts : List StateId}
    (offered : automaton.successors id = .ok nexts) :
    ∃ state, automaton.state id = .ok state := by
  obtain ⟨state, held, -⟩ := exists_of_bind_eq_ok offered
  exact ⟨state, held⟩

/-- Under the invariant the walk has an answer, and it finds what is certain and nothing that is
impossible. -/
theorem answersBetween_walk (linked : automaton.LinkedFrom start) {visited : List StateId}
    {visits : List Visit}
    (exploring : automaton.Exploring stopAtBoundaries start goal visited visits) :
    automaton.AnswersBetween stopAtBoundaries start goal
      (automaton.walkWithoutConsuming goal stopAtBoundaries visited visits) := by
  induction visited, visits using walkWithoutConsuming.induct automaton goal stopAtBoundaries with
  | case1 visited =>
    rw [walkWithoutConsuming]
    exact ⟨false, rfl, fun sure => absurd sure exploring.not_sure, fun yes => by cases yes⟩
  | case2 visited visit pending fault refused =>
    obtain ⟨nexts, offered⟩ := linked _ exploring.reaches
    obtain ⟨state, found⟩ := exists_state_of_successors offered
    obtain ⟨crosses, asked⟩ := exists_canCross found visited
    cases refused.symm.trans asked
  | case3 visited visit pending blocked inductionHypothesis =>
    rw [walkWithoutConsuming_blocked blocked]
    exact inductionHypothesis (exploring.drop (Or.inr (Or.inr blocked)))
  | case4 visited visit pending crosses reached =>
    rw [walkWithoutConsuming_arrives crosses reached]
    subst reached
    exact ⟨true, rfl, fun _ => rfl, fun _ => exploring.possible_of_crosses crosses⟩
  | case5 visited visit pending crosses other fault failed =>
    obtain ⟨nexts, offered⟩ := linked _ exploring.reaches
    obtain ⟨state, found⟩ := exists_state_of_successors offered
    obtain ⟨stops, asked⟩ := exists_stopsAt found visited
    cases failed.symm.trans asked
  | case6 visited visit pending crosses other stops inductionHypothesis =>
    rw [walkWithoutConsuming_stops crosses other stops]
    refine inductionHypothesis (exploring.drop ?_)
    exact (stopsAt_eq_ok_true stops).imp_right fun stuck => Or.inl ⟨stuck, other⟩
  | case7 visited visit pending crosses other goesOn fault failed =>
    obtain ⟨nexts, offered⟩ := linked _ exploring.reaches
    cases failed.symm.trans offered
  | case8 visited visit pending crosses other goesOn nexts offered inductionHypothesis =>
    rw [walkWithoutConsuming_enters crosses other goesOn offered]
    exact inductionHypothesis (exploring.enter crosses other (stopsAt_eq_ok_false goesOn).2 offered)

theorem answersBetween_canReachWithoutConsuming (linked : automaton.LinkedFrom start)
    (goal : StateId) :
    automaton.AnswersBetween false start goal (automaton.canReachWithoutConsuming start goal) :=
  answersBetween_walk linked exploring_start

theorem answersBetween_canReachNorCrossing (linked : automaton.LinkedFrom start) (goal : StateId) :
    automaton.AnswersBetween true start goal
      (automaton.canReachWithoutConsumingNorCrossingBoundaries start goal) :=
  answersBetween_walk linked exploring_start

/-! ### Where the answer is right -/

/-- No line break follows a state that can be reached without meeting a boundary, or no boundary can
be met. -/
def Separated (automaton : Automaton) (stopAtBoundaries : Bool) (start : StateId) : Prop :=
  automaton.MeetsBoundary stopAtBoundaries start →
    ∀ ⦃id next : StateId⦄, automaton.Unguarded stopAtBoundaries start id →
      automaton.Leaves stopAtBoundaries id next → automaton.mayBreakLine next = false

/-- Then the moves that are possible are sure, and both make up the paths that consume nothing. -/
theorem Separated.sure (separated : automaton.Separated stopAtBoundaries start) {id : StateId}
    (possible : ReflTransGen (automaton.PossibleMove stopAtBoundaries start) start id) :
    ReflTransGen (automaton.SureMove stopAtBoundaries start) start id := by
  refine ReflTransGen.mono (fun id next move => ?_) _ _ possible
  refine ⟨move.1, move.2.imp_right fun ⟨mayBreak, meets⟩ => ⟨mayBreak, fun unguarded => ?_⟩⟩
  cases (separated meets unguarded move.1).symm.trans mayBreak

theorem Separated.answer_iff (separated : automaton.Separated stopAtBoundaries start)
    {answer : Bool}
    (complete : ReflTransGen (automaton.SureMove stopAtBoundaries start) start goal →
      answer = true)
    (sound : answer = true →
      ReflTransGen (automaton.PossibleMove stopAtBoundaries start) start goal) :
    answer = true ↔ ∃ left, automaton.UnconsumingPath stopAtBoundaries start left goal := by
  refine ⟨fun yes => ?_, fun ⟨left, path⟩ => ?_⟩
  · exact exists_unconsumingPath (separated.sure (sound yes))
  · exact complete (separated.sure path.possible)

end

/-! ### Checking paths -/

/-- The listed states are closed under moves that consume nothing, where each state is listed with
whether the path to it has left an end boundary. -/
def ClosedAlongPaths (automaton : Automaton) (seen : List (StateId × Bool)) : Prop :=
  ∀ entry ∈ seen, ∀ next ∈ automaton.ids, automaton.Moves entry.1 next →
    automaton.EntersFreely next ∨
        automaton.mayBreakLine next = true ∧
          (automaton.allowsLineBreak entry.1 || entry.2) = true →
      (next, automaton.allowsLineBreak entry.1 || entry.2) ∈ seen

instance (automaton : Automaton) (seen : List (StateId × Bool)) :
    Decidable (automaton.ClosedAlongPaths seen) :=
  inferInstanceAs (Decidable (∀ _ ∈ _, ∀ _ ∈ _, _ → _ → _))

theorem ClosedAlongPaths.mem {automaton : Automaton} {seen : List (StateId × Bool)}
    (closed : automaton.ClosedAlongPaths seen) {start : StateId} (begins : (start, false) ∈ seen)
    (linked : automaton.LinkedFrom start) {left : List StateId} {id : StateId}
    (path : automaton.UnconsumingPath false start left id) :
    (id, left.any automaton.allowsLineBreak) ∈ seen := by
  induction left generalizing id with
  | nil =>
    cases path
    exact begins
  | cons previous left inductionHypothesis =>
    have reaches : automaton.Reaches start id := reaches_of_possible path.possible
    obtain ⟨before, leaves, enters⟩ := path
    obtain ⟨nexts, offered⟩ := linked id reaches
    rw [List.any_cons]
    refine closed _ (inductionHypothesis before) id (mem_ids_of_successors offered) leaves.2 ?_
    exact enters.imp_right fun breaks => by simpa using isFinalLineBreak_iff.mp breaks

/-- The states that are listed without a boundary are the unguarded ones among them. -/
theorem ClosedAlongPaths.separated {automaton : Automaton} {seen : List (StateId × Bool)}
    (closed : automaton.ClosedAlongPaths seen) {start : StateId} (begins : (start, false) ∈ seen)
    (linked : automaton.LinkedFrom start)
    (noBreak : ∀ entry ∈ seen, entry.2 = false → automaton.allowsLineBreak entry.1 = false →
      ∀ next ∈ automaton.ids, automaton.Moves entry.1 next →
        automaton.mayBreakLine next = false) : automaton.Separated false start := by
  rintro - id next unguarded leaves
  obtain ⟨left, path, unmet⟩ := unguarded_iff.mp unguarded
  have listed := closed.mem begins linked path
  obtain ⟨here, before⟩ := Bool.or_eq_false_iff.mp (List.any_cons ▸ unmet)
  rw [before] at listed
  have reaches : automaton.Reaches start next :=
    .tail (reaches_of_possible path.possible) leaves.2
  obtain ⟨nexts, offered⟩ := linked next reaches
  exact noBreak _ listed rfl here next (mem_ids_of_successors offered) leaves.2

theorem linkedFrom_of_check {automaton : Automaton} {id : StateId}
    (checked : (automaton.allLinked && automaton.ids.contains id) = true) :
    automaton.LinkedFrom id := by
  obtain ⟨linked, member⟩ := Bool.and_eq_true_iff.mp checked
  exact linkedFrom_of_allLinked linked (List.contains_iff_mem.mp member)

end Automaton

/-! ### The answer -/

/-- Whether the goal can be reached without consuming input is answered with yes if a path of sure
moves leads there, and only if one of possible moves does. Where the two agree because no line break
follows a state that can be reached without meeting a boundary, the answer is whether there is a
path that consumes nothing. -/
theorem canReachWithoutConsuming_between {automaton : Automaton} {start goal : StateId}
    (linked : automaton.LinkedFrom start) :
    ∃ answer, automaton.canReachWithoutConsuming start goal = .ok answer ∧
      (ReflTransGen (automaton.SureMove false start) start goal → answer = true) ∧
      (answer = true → ReflTransGen (automaton.PossibleMove false start) start goal) ∧
      (automaton.Separated false start →
        (answer = true ↔ ∃ left, automaton.UnconsumingPath false start left goal)) := by
  have between : automaton.AnswersBetween false start goal
      (automaton.canReachWithoutConsuming start goal) :=
    Automaton.answersBetween_walk linked Automaton.exploring_start
  obtain ⟨answer, answered, complete, sound⟩ := between
  exact ⟨answer, answered, complete, sound,
    fun separated => separated.answer_iff complete sound⟩

/-- The calls that build `$\n`. -/
def boundaryBeforeCalls : List Call :=
  [.construct ⟨⟨0, 1⟩, .empty, .leaf (.boundary .lineEnd)⟩,
    .construct ⟨⟨1, 3⟩, .empty, .leaf (.character ⟨10, true⟩)⟩,
    .construct ⟨⟨0, 3⟩, .empty, .sequence [⟨0⟩, ⟨1⟩]⟩]

/-- The pattern `$\n`. -/
def boundaryBefore? : Option Pattern :=
  finishedPattern? ⟨"$\\n", .java, []⟩ boundaryBeforeCalls ⟨2⟩ .empty

/-- In `$\n` the line break is guarded by the boundary. -/
theorem boundaryBefore_canReachWithoutConsuming_between :
    ∃ pattern, boundaryBefore? = some pattern ∧ pattern.automaton.Separated false pattern.start ∧
      ∃ answer,
        pattern.automaton.canReachWithoutConsuming pattern.start pattern.final = .ok answer ∧
        (answer = true ↔
          ∃ left, pattern.automaton.UnconsumingPath false pattern.start left pattern.final) := by
  let seen : List (StateId × Bool) :=
    [(⟨4⟩, false), (⟨2⟩, false), (⟨0⟩, false), (⟨1⟩, true), (⟨3⟩, true)]
  have computed : (boundaryBefore?.map fun pattern =>
      (pattern.automaton.allLinked && pattern.automaton.ids.contains pattern.start,
        decide (pattern.automaton.ClosedAlongPaths seen ∧ (pattern.start, false) ∈ seen ∧
          ∀ entry ∈ seen, entry.2 = false → pattern.automaton.allowsLineBreak entry.1 = false →
            ∀ next ∈ pattern.automaton.ids, pattern.automaton.Moves entry.1 next →
              pattern.automaton.mayBreakLine next = false))) = some (true, true) := by
    decide +kernel
  obtain ⟨pattern, built, facts⟩ := Option.map_eq_some_iff.mp computed
  obtain ⟨checked, certified⟩ := Prod.mk.inj facts
  obtain ⟨closed, begins, noBreak⟩ := decide_eq_true_iff.mp certified
  have linked := Automaton.linkedFrom_of_check checked
  have separated := closed.separated begins linked noBreak
  obtain ⟨answer, answered, -, -, exact⟩ :=
    @canReachWithoutConsuming_between pattern.automaton pattern.start pattern.final linked
  exact ⟨pattern, built, separated, answer, answered, exact separated⟩

/-! ### Two answers that are wrong -/

/-- The calls that build `$a|\n`. -/
def boundaryBesideCalls : List Call :=
  [.construct ⟨⟨0, 1⟩, .empty, .leaf (.boundary .lineEnd)⟩,
    .construct ⟨⟨1, 2⟩, .empty, .leaf (.character ⟨97, false⟩)⟩,
    .construct ⟨⟨0, 2⟩, .empty, .sequence [⟨0⟩, ⟨1⟩]⟩,
    .construct ⟨⟨3, 5⟩, .empty, .leaf (.character ⟨10, true⟩)⟩,
    .construct ⟨⟨0, 5⟩, .empty, .disjunction [⟨2⟩, ⟨3⟩] [⟨⟨2, 3⟩, '|', false⟩]⟩]

/-- The pattern `$a|\n`. -/
def boundaryBeside? : Option Pattern :=
  finishedPattern? ⟨"$a|\\n", .java, []⟩ boundaryBesideCalls ⟨4⟩ .empty

/-- The calls that build `$??\n`. -/
def boundaryLateCalls : List Call :=
  [.construct ⟨⟨0, 1⟩, .empty, .leaf (.boundary .lineEnd)⟩,
    .construct ⟨⟨0, 3⟩, .empty,
      .repetition ⟨0⟩ ⟨⟨1, 3⟩, .reluctant, .sign .questionMark⟩⟩,
    .construct ⟨⟨3, 5⟩, .empty, .leaf (.character ⟨10, true⟩)⟩,
    .construct ⟨⟨0, 5⟩, .empty, .sequence [⟨1⟩, ⟨2⟩]⟩]

/-- The pattern `$??\n`. -/
def boundaryLate? : Option Pattern :=
  finishedPattern? ⟨"$??\\n", .java, []⟩ boundaryLateCalls ⟨4⟩ .empty

/-- In `$a|\n` the line break is taken for free because of the boundary in the other alternative. In
`$??\n` it is refused after the boundary, because the walk has come to the end of the repetition
without the boundary before. -/
theorem line_break_misjudged :
    (∃ pattern, boundaryBeside? = some pattern ∧
      pattern.automaton.LinkedFrom pattern.start ∧
      pattern.automaton.canReachWithoutConsuming pattern.start pattern.final = .ok true ∧
      ¬ ∃ left, pattern.automaton.UnconsumingPath false pattern.start left pattern.final) ∧
    ∃ pattern, boundaryLate? = some pattern ∧
      pattern.automaton.LinkedFrom pattern.start ∧
      pattern.automaton.canReachWithoutConsuming pattern.start pattern.final = .ok false ∧
      ∃ left, pattern.automaton.UnconsumingPath false pattern.start left pattern.final := by
  constructor
  · let seen : List (StateId × Bool) :=
      [(⟨6⟩, false), (⟨4⟩, false), (⟨2⟩, false), (⟨0⟩, false)]
    have computed : (boundaryBeside?.map fun pattern =>
        (pattern.automaton.allLinked && pattern.automaton.ids.contains pattern.start,
          pattern.automaton.canReachWithoutConsuming pattern.start pattern.final)) =
        some (true, .ok true) := by decide +kernel
    have certified : (boundaryBeside?.map fun pattern =>
        decide (pattern.automaton.ClosedAlongPaths seen ∧ (pattern.start, false) ∈ seen ∧
          ∀ met, (pattern.final, met) ∉ seen)) = some true := by decide +kernel
    obtain ⟨pattern, built, facts⟩ := Option.map_eq_some_iff.mp computed
    obtain ⟨started, answered⟩ := Prod.mk.inj facts
    have linked := Automaton.linkedFrom_of_check started
    rw [built, Option.map_some, Option.some.injEq, decide_eq_true_iff] at certified
    obtain ⟨closed, begins, avoids⟩ := certified
    exact ⟨pattern, built, linked, answered,
      fun ⟨left, path⟩ => avoids _ (closed.mem begins linked path)⟩
  · have computed : (boundaryLate?.map fun pattern =>
        (pattern.automaton.allLinked && pattern.automaton.ids.contains pattern.start,
          pattern.automaton.canReachWithoutConsuming pattern.start pattern.final)) =
        some (true, .ok false) := by decide +kernel
    have found : (boundaryLate?.map fun pattern =>
        decide (pattern.automaton.UnconsumingPath false pattern.start
          [⟨2⟩, ⟨3⟩, ⟨0⟩, ⟨1⟩, ⟨4⟩, ⟨6⟩] pattern.final)) = some true := by decide +kernel
    obtain ⟨pattern, built, facts⟩ := Option.map_eq_some_iff.mp computed
    obtain ⟨started, answered⟩ := Prod.mk.inj facts
    have linked := Automaton.linkedFrom_of_check started
    rw [built, Option.map_some, Option.some.injEq, decide_eq_true_iff] at found
    exact ⟨pattern, built, linked, answered, _, found⟩

end PatternGraph
