/-
This file says what the two walks find that look for a single state that decides against. One looks
for the final state and turns back at end boundaries; the other looks for a state that is entered by
more than an empty step, passes over lookarounds and turns back at the final state. Both keep the
states they have visited, and once nothing is left to be visited, whatever their steps lead to was
visited, or is one of the states they turn back at. So the answer is whether the steps lead to a
deciding state, and neither loops nor the order of successors matter.

`Sweeping` states this for any kind of step. It is the invariant of both walks.
-/

import PatternGraph.Proofs.Reach.Consumption
import PatternGraph.Reach.EmptySuffix

namespace PatternGraph

open Relation

/-! ### Visiting whatever some steps lead to -/

/-- What holds of the visited states and the states to be visited next in a walk that follows the
steps from a start and turns back at some states. -/
structure Sweeping (step : StateId → StateId → Prop) (turnsBack : StateId → Prop) (start : StateId)
    (visited pending : List StateId) : Prop where
  seen {id : StateId} : id ∈ visited → ReflTransGen step start id
  waiting {id : StateId} : id ∈ pending → ReflTransGen step start id
  begun : start ∈ visited ∨ turnsBack start ∨ start ∈ pending
  closed {id next : StateId} : id ∈ visited → step id next →
    next ∈ visited ∨ turnsBack next ∨ next ∈ pending

namespace Sweeping

variable {step : StateId → StateId → Prop} {turnsBack : StateId → Prop} {start id : StateId}
  {visited pending : List StateId}

theorem refl (step : StateId → StateId → Prop) (turnsBack : StateId → Prop) (start : StateId) :
    Sweeping step turnsBack start [] [start] where
  seen member := absurd member List.not_mem_nil
  waiting member := List.mem_singleton.mp member ▸ .refl
  begun := Or.inr (Or.inr (List.mem_singleton_self start))
  closed member := absurd member List.not_mem_nil

/-- A state is dropped if it was visited before or the walk turns back at it. -/
theorem drop (sweeping : Sweeping step turnsBack start visited (id :: pending))
    (done : id ∈ visited ∨ turnsBack id) : Sweeping step turnsBack start visited pending := by
  have still {other : StateId}
      (was : other ∈ visited ∨ turnsBack other ∨ other ∈ id :: pending) :
      other ∈ visited ∨ turnsBack other ∨ other ∈ pending := by
    rcases was with member | back | waits
    · exact Or.inl member
    · exact Or.inr (Or.inl back)
    · rcases List.mem_cons.mp waits with rfl | later
      · exact done.imp_right Or.inl
      · exact Or.inr (Or.inr later)
  exact
    { seen := sweeping.seen
      waiting := fun member => sweeping.waiting (List.mem_cons_of_mem _ member)
      begun := still sweeping.begun
      closed := fun member taken => still (sweeping.closed member taken) }

/-- When a state is visited, what its steps lead to is to be visited next. -/
theorem enter (sweeping : Sweeping step turnsBack start visited (id :: pending))
    {nexts : List StateId} (offered : ∀ next, step id next ↔ next ∈ nexts) :
    Sweeping step turnsBack start (id :: visited) (nexts ++ pending) := by
  have here : ReflTransGen step start id := sweeping.waiting List.mem_cons_self
  have still {other : StateId}
      (was : other ∈ visited ∨ turnsBack other ∨ other ∈ id :: pending) :
      other ∈ id :: visited ∨ turnsBack other ∨ other ∈ nexts ++ pending := by
    rcases was with member | back | waits
    · exact Or.inl (List.mem_cons_of_mem _ member)
    · exact Or.inr (Or.inl back)
    · rcases List.mem_cons.mp waits with rfl | later
      · exact Or.inl List.mem_cons_self
      · exact Or.inr (Or.inr (List.mem_append_right _ later))
  refine
    { seen := fun member => ?seen
      waiting := fun member => ?waiting
      begun := still sweeping.begun
      closed := fun member taken => ?closed }
  case seen =>
    rcases List.mem_cons.mp member with rfl | old
    · exact here
    · exact sweeping.seen old
  case waiting =>
    rcases List.mem_append.mp member with new | old
    · exact here.tail ((offered _).mpr new)
    · exact sweeping.waiting (List.mem_cons_of_mem _ old)
  case closed =>
    rcases List.mem_cons.mp member with rfl | old
    · exact Or.inr (Or.inr (List.mem_append_left _ ((offered _).mp taken)))
    · exact still (sweeping.closed old taken)

/-- When nothing is left, every state that the steps lead to was visited, unless the walk turns back
at it. -/
theorem exhausted (sweeping : Sweeping step turnsBack start visited [])
    (stuck : ∀ {id next}, turnsBack id → ¬ step id next) (reaches : ReflTransGen step start id) :
    id ∈ visited ∨ turnsBack id := by
  induction reaches with
  | refl => exact sweeping.begun.imp_right fun rest => rest.resolve_right List.not_mem_nil
  | tail _ taken inductionHypothesis =>
    have member := inductionHypothesis.resolve_right fun back => stuck back taken
    exact (sweeping.closed member taken).imp_right fun rest =>
      rest.resolve_right List.not_mem_nil

end Sweeping

namespace Automaton

section

variable {automaton : Automaton} {start id : StateId}

/-! ### The final state -/

theorem exists_final_of_isFinal (isFinal : automaton.isFinal id = true) :
    ∃ flags, automaton.state? id = some (.final flags) := by
  unfold Automaton.isFinal at isFinal
  split at isFinal
  · rename_i flags held
    exact ⟨flags, held⟩
  · cases isFinal

theorem isFinal_of_state? {flags : FlagSet} (held : automaton.state? id = some (.final flags)) :
    automaton.isFinal id = true := by
  rw [isFinal, held]

/-- Nothing follows the final state. -/
theorem not_moves_of_isFinal (isFinal : automaton.isFinal id = true) {next : StateId} :
    ¬ automaton.Moves id next := by
  obtain ⟨flags, held⟩ := exists_final_of_isFinal isFinal
  rintro ⟨nexts, offered, member⟩
  cases (successors_of_final held).symm.trans offered
  cases member

/-! ### Looking for the final state -/

/-- A state that is no end boundary. -/
def IsUnanchored (automaton : Automaton) (id : StateId) : Prop :=
  automaton.isEndBoundary id = .ok false

/-- The final state can be reached on a path that meets no end boundary before. -/
def ReachesEnd (automaton : Automaton) (start : StateId) : Prop :=
  ∃ final, automaton.isFinal final = true ∧
    automaton.OpenPath automaton.IsUnanchored start final

/-- Whether a state is an end boundary is told by its node. -/
theorem isUnanchored_iff {state : State} (found : automaton.state? id = some state) :
    automaton.IsUnanchored id ↔ ∀ asserted,
      state.tree?.map TreeNode.node = some (.leaf (.boundary asserted)) →
        asserted.isEnd = false := by
  rw [IsUnanchored, isEndBoundary, Automaton.state, found, boundary?, tree?_of_state? found]
  simp only [Except.map, Except.ok.injEq]
  split
  · rename_i boundary isBoundary
    split at isBoundary
    · rename_i asserted same
      cases isBoundary
      simp [same]
    · cases isBoundary
  · rename_i noBoundary
    simp only [true_iff]
    intro asserted same
    simp [same] at noBoundary

theorem isUnanchored_of_isFinal (isFinal : automaton.isFinal id = true) :
    automaton.IsUnanchored id := by
  obtain ⟨flags, held⟩ := exists_final_of_isFinal isFinal
  exact (isUnanchored_iff held).mpr fun asserted same => nomatch same

theorem exists_isEndBoundary {state : State} (found : automaton.state id = .ok state) :
    ∃ ends, automaton.isEndBoundary id = .ok ends := by
  rw [isEndBoundary, found]
  exact ⟨_, rfl⟩

section

variable {visited rest : List StateId}

theorem walkToEnd_seen (seen : id ∈ visited) :
    automaton.walkToEnd visited (id :: rest) = automaton.walkToEnd visited rest := by
  rw [walkToEnd, dif_pos (List.contains_iff_mem.mpr seen)]

variable (unseen : id ∉ visited)

include unseen

theorem walkToEnd_turns (ends : automaton.isEndBoundary id = .ok true) :
    automaton.walkToEnd visited (id :: rest) = automaton.walkToEnd visited rest := by
  rw [walkToEnd, dif_neg (mt List.contains_iff_mem.mp unseen)]
  simp only [ends]

variable (goesOn : automaton.isEndBoundary id = .ok false)

include goesOn

theorem walkToEnd_arrives (isFinal : automaton.isFinal id = true) :
    automaton.walkToEnd visited (id :: rest) = .ok false := by
  rw [walkToEnd, dif_neg (mt List.contains_iff_mem.mp unseen)]
  simp only [goesOn, isFinal, if_true]

theorem walkToEnd_enters (other : automaton.isFinal id = false) {nexts : List StateId}
    (offered : automaton.successors id = .ok nexts) :
    automaton.walkToEnd visited (id :: rest) =
      automaton.walkToEnd (id :: visited) (nexts ++ rest) := by
  rw [walkToEnd, dif_neg (mt List.contains_iff_mem.mp unseen)]
  simp only [goesOn, other, Bool.false_eq_true, if_false]
  split
  · rename_i fault failed
    cases offered.symm.trans failed
  · rename_i same offeredToo
    cases offered.symm.trans offeredToo
    rfl

end

/-- The walk has an answer, and it is no if the final state can be reached past no end boundary. -/
theorem walkToEnd_answer (linked : automaton.LinkedFrom start) {visited pending : List StateId}
    (sweeping : Sweeping (automaton.MovesFrom automaton.IsUnanchored)
      (fun id => automaton.isEndBoundary id = .ok true) start visited pending)
    (others : ∀ id ∈ visited, automaton.isFinal id = false) :
    ∃ answer, automaton.walkToEnd visited pending = .ok answer ∧
      (answer = false ↔ automaton.ReachesEnd start) := by
  have answered {visited rest : List StateId} {id : StateId}
      (waits : Sweeping (automaton.MovesFrom automaton.IsUnanchored)
        (fun id => automaton.isEndBoundary id = .ok true) start visited (id :: rest)) :
      ∃ nexts, automaton.successors id = .ok nexts :=
    linked id (OpenPath.reaches (waits.waiting List.mem_cons_self))
  induction visited, pending using walkToEnd.induct automaton with
  | case1 visited =>
    rw [walkToEnd]
    -- A final state that can be reached was not visited, and the walk does not turn back at it.
    refine ⟨true, rfl, by simp, fun ⟨final, isFinal, path⟩ => ?_⟩
    have stuck {id next : StateId} (ends : automaton.isEndBoundary id = .ok true) :
        ¬ automaton.MovesFrom automaton.IsUnanchored id next := fun step => by
      cases ends.symm.trans step.1
    rcases sweeping.exhausted stuck path with member | ends
    · cases isFinal.symm.trans (others final member)
    · cases ends.symm.trans (isUnanchored_of_isFinal isFinal)
  | case2 visited id rest seen inductionHypothesis =>
    have member : id ∈ visited := List.contains_iff_mem.mp seen
    rw [walkToEnd_seen member]
    exact inductionHypothesis (sweeping.drop (Or.inl member)) others
  | case3 visited id rest unseen fault failed =>
    obtain ⟨nexts, offered⟩ := answered sweeping
    obtain ⟨state, found⟩ := exists_state_of_successors offered
    obtain ⟨ends, asked⟩ := exists_isEndBoundary found
    cases failed.symm.trans asked
  | case4 visited id rest unseen ends inductionHypothesis =>
    rw [walkToEnd_turns (mt List.contains_iff_mem.mpr unseen) ends]
    exact inductionHypothesis (sweeping.drop (Or.inr ends)) others
  | case5 visited id rest unseen goesOn isFinal =>
    rw [walkToEnd_arrives (mt List.contains_iff_mem.mpr unseen) goesOn isFinal]
    exact ⟨false, rfl, fun _ => ⟨id, isFinal, sweeping.waiting List.mem_cons_self⟩, fun _ => rfl⟩
  | case6 visited id rest unseen goesOn other fault failed =>
    obtain ⟨nexts, offered⟩ := answered sweeping
    cases failed.symm.trans offered
  | case7 visited id rest unseen goesOn other nexts offered inductionHypothesis =>
    have notFinal : automaton.isFinal id = false := Bool.eq_false_iff.mpr other
    rw [walkToEnd_enters (mt List.contains_iff_mem.mpr unseen) goesOn notFinal offered]
    refine inductionHypothesis (sweeping.enter fun next => ?_)
      (List.forall_mem_cons.mpr ⟨notFinal, others⟩)
    simp [MovesFrom, IsUnanchored, goesOn, Moves, offered]

/-- A start is anchored at the end if the final state can only be reached past an end boundary. -/
theorem exists_isAnchoredAtEnd (linked : automaton.LinkedFrom start) :
    ∃ answer, automaton.isAnchoredAtEnd start = .ok answer ∧
      (answer = false ↔ automaton.ReachesEnd start) :=
  walkToEnd_answer linked (Sweeping.refl _ _ start) (by simp)

/-! ### Looking for a state that is entered by more than an empty step -/

/-- The walk goes on past a lookaround, and from any other state to its successors. -/
def MovesPast (automaton : Automaton) (id next : StateId) : Prop :=
  if automaton.isLookAround id = true then automaton.continuation id = .ok (some next)
  else automaton.Moves id next

theorem movesPast_iff {visits : List Visit} (found : automaton.visitsPast id = .ok visits)
    {nexts : List StateId} (offered : automaton.successors id = .ok nexts) {next : StateId} :
    automaton.MovesPast id next ↔ next ∈ visits.map Visit.state := by
  have brought : next ∈ visits.map Visit.state ↔
      ∃ visit, automaton.Brings id visit ∧ visit.state = next := by
    simp [Brings, found]
  rw [brought]
  simp only [brings_iff offered, MovesPast]
  split <;> simp

theorem MovesPast.moves (linked : automaton.LinkedFrom id) {next : StateId}
    (step : automaton.MovesPast id next) : automaton.Moves id next := by
  obtain ⟨nexts, offered⟩ := linked id .refl
  obtain ⟨visits, found⟩ := exists_visitsPast offered
  obtain ⟨visit, member, rfl⟩ := List.mem_map.mp ((movesPast_iff found offered).mp step)
  exact moves_of_visitsPast found member

/-- Nothing follows the final state, which is no lookaround. -/
theorem not_movesPast_of_isFinal (isFinal : automaton.isFinal id = true) {next : StateId} :
    ¬ automaton.MovesPast id next := by
  obtain ⟨flags, held⟩ := exists_final_of_isFinal isFinal
  have other : automaton.isLookAround id = false := by
    simp [isLookAround, tree?_of_state? held, State.tree?]
  rw [MovesPast, other, if_neg Bool.false_ne_true]
  exact not_moves_of_isFinal isFinal

theorem MovesPast.reaches (linked : automaton.LinkedFrom start)
    (path : ReflTransGen automaton.MovesPast start id) : automaton.Reaches start id := by
  induction path with
  | refl => exact .refl
  | tail _ step inductionHypothesis =>
    exact inductionHypothesis.tail (MovesPast.moves (linked.reaches inductionHypothesis) step)

section

variable {visited rest : List StateId} {transition : Transition}
  (entered : automaton.transition id = .ok transition)

include entered

theorem walkEmptySuffix_settled (settled : automaton.isFinal id = true ∨ id ∈ visited) :
    automaton.walkEmptySuffix visited (id :: rest) = automaton.walkEmptySuffix visited rest := by
  rw [walkEmptySuffix]
  simp only [entered]
  rw [dif_pos (settled.imp_right List.contains_iff_mem.mpr)]

variable (other : ¬ (automaton.isFinal id = true ∨ id ∈ visited))

include other

theorem walkEmptySuffix_refuses (more : transition ≠ .epsilon) :
    automaton.walkEmptySuffix visited (id :: rest) = .ok false := by
  rw [walkEmptySuffix]
  simp only [entered]
  rw [dif_neg (mt (Or.imp_right List.contains_iff_mem.mp) other), if_pos more]

theorem walkEmptySuffix_enters (empty : transition = .epsilon) {visits : List Visit}
    (found : automaton.visitsPast id = .ok visits) :
    automaton.walkEmptySuffix visited (id :: rest) =
      automaton.walkEmptySuffix (id :: visited) (visits.map Visit.state ++ rest) := by
  rw [walkEmptySuffix]
  simp only [entered]
  rw [dif_neg (mt (Or.imp_right List.contains_iff_mem.mp) other), if_neg (not_not.mpr empty)]
  split
  · rename_i fault failed
    cases found.symm.trans failed
  · rename_i same foundToo
    cases found.symm.trans foundToo
    rfl

end

/-- The walk has an answer, and it is yes if every state it can come to is entered by an empty
step. -/
theorem walkEmptySuffix_answer (linked : automaton.LinkedFrom start)
    {visited pending : List StateId}
    (sweeping : Sweeping automaton.MovesPast (fun id => automaton.isFinal id = true) start visited
      pending)
    (empty : ∀ id ∈ visited, automaton.transition id = .ok .epsilon) :
    ∃ answer, automaton.walkEmptySuffix visited pending = .ok answer ∧
      (answer = true ↔ ∀ id, ReflTransGen automaton.MovesPast start id →
        automaton.transition id = .ok .epsilon) := by
  have answered {visited rest : List StateId} {id : StateId}
      (waits : Sweeping automaton.MovesPast (fun id => automaton.isFinal id = true) start visited
        (id :: rest)) :
      ∃ nexts, automaton.successors id = .ok nexts :=
    linked id (MovesPast.reaches linked (waits.waiting List.mem_cons_self))
  induction visited, pending using walkEmptySuffix.induct automaton with
  | case1 visited =>
    rw [walkEmptySuffix]
    refine ⟨true, rfl, fun _ id path => ?_, fun _ => rfl⟩
    have stuck {id next : StateId} (isFinal : automaton.isFinal id = true) :
        ¬ automaton.MovesPast id next := not_movesPast_of_isFinal isFinal
    rcases sweeping.exhausted stuck path with member | isFinal
    · exact empty id member
    · obtain ⟨flags, held⟩ := exists_final_of_isFinal isFinal
      exact transition_of_state? held
  | case2 visited id rest fault failed =>
    obtain ⟨nexts, offered⟩ := answered sweeping
    obtain ⟨state, found⟩ := exists_state_of_successors offered
    rw [Automaton.transition, found] at failed
    cases failed
  | case3 visited id rest transition entered settled inductionHypothesis =>
    have done := settled.symm.imp_left List.contains_iff_mem.mp
    rw [walkEmptySuffix_settled entered done.symm]
    exact inductionHypothesis (sweeping.drop done) empty
  | case4 visited id rest transition entered goesOn more =>
    rw [walkEmptySuffix_refuses entered (mt (Or.imp_right List.contains_iff_mem.mpr) goesOn) more]
    refine ⟨false, rfl, by simp, fun all => ?_⟩
    have epsilon := all id (sweeping.waiting List.mem_cons_self)
    exact absurd (Except.ok.inj (entered.symm.trans epsilon)) more
  | case5 visited id rest transition entered goesOn epsilon fault failed =>
    obtain ⟨nexts, offered⟩ := answered sweeping
    obtain ⟨visits, found⟩ := exists_visitsPast offered
    cases failed.symm.trans found
  | case6 visited id rest transition entered goesOn epsilon visits found inductionHypothesis =>
    obtain ⟨nexts, offered⟩ := answered sweeping
    obtain rfl := not_not.mp epsilon
    rw [walkEmptySuffix_enters entered (mt (Or.imp_right List.contains_iff_mem.mpr) goesOn) rfl
      found]
    exact inductionHypothesis (sweeping.enter fun next => movesPast_iff found offered)
      (List.forall_mem_cons.mpr ⟨entered, empty⟩)

/-- Nothing from a start on consumes input if every state that it leads to, lookarounds passed over,
is entered by an empty step. -/
theorem exists_onlyMatchesEmptySuffix (linked : automaton.LinkedFrom start) :
    ∃ answer, automaton.onlyMatchesEmptySuffix start = .ok answer ∧
      (answer = true ↔ ∀ id, ReflTransGen automaton.MovesPast start id →
        automaton.transition id = .ok .epsilon) :=
  walkEmptySuffix_answer linked (Sweeping.refl _ _ start) (by simp)

end

end Automaton

end PatternGraph
