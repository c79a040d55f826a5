/-
This file says what a walk for consumed input finds. The walk has two modes. As long as nothing was
consumed it passes from state to state, around lookarounds and never on from the goal, and at an
edge into a character it changes to the plain question whether the goal can be reached from there.

Many such questions may be asked on one memory, and all but the last of them are answered with no.
That is why they can be trusted: an answer no leaves only entries that are right, so the checker
stays `Reliable` for the next question, and the first answer yes ends the walk.

What cannot be said of a single path is whether an edge into a possible line break counts. It does
not once the walk has visited an end boundary, on whatever branch. So the answer is yes if there is
a path to the goal whose first character counts in any case, and only if there is one whose first
character may have counted when the walk came there. Without lookarounds and without such boundaries
both say the same, and the answer is exact.
-/

import PatternGraph.Proofs.Reach.Capacity
import PatternGraph.Proofs.Reach.Unconsuming
import PatternGraph.Proofs.Walk

namespace PatternGraph

open Relation

namespace Automaton

section

variable (automaton : Automaton)

/-! ### Ways on which nothing is consumed -/

/-- A character is consumed on the way into the state. -/
def EntersConsuming (id : StateId) : Prop := automaton.transition id = .ok .character

/-- The walk goes on without having consumed anything: past a lookaround to what follows it, and
from any other state to a successor that is no character. -/
def PassesTo (id next : StateId) : Prop :=
  if automaton.isLookAround id = true then automaton.continuation id = .ok (some next)
  else automaton.Moves id next ∧ ¬ automaton.EntersConsuming next

/-- An edge on which the walk consumes a character. -/
def ConsumesAt (id next : StateId) : Prop :=
  automaton.isLookAround id = false ∧ automaton.Moves id next ∧ automaton.EntersConsuming next

/-- The walk comes to the state without having consumed anything and without having passed the
goal. -/
def Passes (goal : StateId) : StateId → StateId → Prop :=
  ReflTransGen fun id next => id ≠ goal ∧ automaton.PassesTo id next

/-- It comes there without having met an end boundary. -/
def PassesUnguarded (goal start id : StateId) : Prop :=
  ReflTransGen (fun id next => (id ≠ goal ∧ automaton.PassesTo id next) ∧
    automaton.allowsLineBreak id = false) start id ∧ automaton.allowsLineBreak id = false

/-- It can meet an end boundary. -/
def PassesBoundary (goal start : StateId) : Prop :=
  ∃ boundary, automaton.Passes goal start boundary ∧ boundary ≠ goal ∧
    automaton.allowsLineBreak boundary = true

/-- The goal can be reached behind an edge that consumes. If the edge leads to a possible line
break, the state before it has to be one where it `counts`. -/
def ConsumingPath (goal start : StateId) (counts : StateId → Prop) : Prop :=
  ∃ id next, automaton.Passes goal start id ∧ id ≠ goal ∧ automaton.ConsumesAt id next ∧
    (automaton.mayBreakLine next = true → counts id) ∧ automaton.Reaches next goal

/-- A visit that is made whatever it leads to, or leads to no character. -/
def IsFree : Visit → Prop
  | .reached _ => True
  | .across id => ¬ automaton.EntersConsuming id

/-- The walk has the visit to make when it is at the state. -/
def Brings (id : StateId) (visit : Visit) : Prop :=
  ∃ visits, automaton.visitsPast id = .ok visits ∧ visit ∈ visits

instance (id : StateId) : Decidable (automaton.EntersConsuming id) :=
  inferInstanceAs (Decidable (_ = _))

instance : (visit : Visit) → Decidable (automaton.IsFree visit)
  | .reached _ => .isTrue trivial
  | .across _ => inferInstanceAs (Decidable (¬ _))

end

section

variable {automaton : Automaton} {start goal id next : StateId}

theorem ConsumingPath.mono {counts countsToo : StateId → Prop}
    (path : automaton.ConsumingPath goal start counts)
    (implies : ∀ id, counts id → countsToo id) :
    automaton.ConsumingPath goal start countsToo := by
  obtain ⟨id, next, passes, apart, consumes, counted, reaches⟩ := path
  exact ⟨id, next, passes, apart, consumes, fun breaks => implies id (counted breaks), reaches⟩

/-! ### The visits that a state brings about -/

theorem exists_continuation (isLookAround : automaton.isLookAround id = true)
    {nexts : List StateId} (offered : automaton.successors id = .ok nexts) :
    ∃ next, automaton.continuation id = .ok (some next) := by
  obtain ⟨treeNode, body, polarity, direction, entry, isTree, content⟩ :=
    exists_lookAround isLookAround
  cases continues : treeNode.continuation with
  | none =>
    rw [successors_of_tree? isTree, TreeNode.successors, content] at offered
    simp [TreeNode.exit, continues, Except.map] at offered
  | some next =>
    exact ⟨next, continuation_of_stored isTree continues⟩

theorem visitsPast_of_lookAround (isLookAround : automaton.isLookAround id = true)
    (continues : automaton.continuation id = .ok (some next)) :
    automaton.visitsPast id = .ok [.reached next] := by
  obtain ⟨treeNode, -, -, -, -, isTree, -⟩ := exists_lookAround isLookAround
  rw [visitsPast, state, tree?_eq_some_iff.mp isTree]
  simp [Except.bind, isLookAround, continues, Except.map]

theorem visitsPast_of_not_lookAround (other : automaton.isLookAround id = false)
    {nexts : List StateId} (offered : automaton.successors id = .ok nexts) :
    automaton.visitsPast id = .ok (nexts.map .across) := by
  obtain ⟨state, found⟩ := exists_state_of_successors offered
  rw [visitsPast, found]
  simp [Except.bind, other, offered, Except.map]

/-- A state that has successors has visits to make. -/
theorem exists_visitsPast {nexts : List StateId} (offered : automaton.successors id = .ok nexts) :
    ∃ visits, automaton.visitsPast id = .ok visits := by
  cases isLookAround : automaton.isLookAround id with
  | true =>
    obtain ⟨next, continues⟩ := exists_continuation isLookAround offered
    exact ⟨_, visitsPast_of_lookAround isLookAround continues⟩
  | false => exact ⟨_, visitsPast_of_not_lookAround isLookAround offered⟩

theorem Brings.moves {visit : Visit} (brings : automaton.Brings id visit) :
    automaton.Moves id visit.state := by
  obtain ⟨visits, found, member⟩ := brings
  exact moves_of_visitsPast found member

section

variable {nexts : List StateId} (offered : automaton.successors id = .ok nexts)

include offered

/-- The visit past a lookaround is made in any case, the others depend on where they lead to. -/
theorem brings_iff {visit : Visit} : automaton.Brings id visit ↔
    if automaton.isLookAround id = true then
      ∃ next, automaton.continuation id = .ok (some next) ∧ visit = .reached next
    else ∃ next, automaton.Moves id next ∧ visit = .across next := by
  have moves_iff (next : StateId) : automaton.Moves id next ↔ next ∈ nexts := by
    simp [Moves, offered]
  unfold Brings
  cases isLookAround : automaton.isLookAround id with
  | true =>
    obtain ⟨next, continues⟩ := exists_continuation isLookAround offered
    simp [visitsPast_of_lookAround isLookAround continues, continues]
  | false =>
    simp [visitsPast_of_not_lookAround isLookAround offered, moves_iff, eq_comm]

theorem passesTo_iff : automaton.PassesTo id next ↔
    ∃ visit, automaton.Brings id visit ∧ automaton.IsFree visit ∧ visit.state = next := by
  unfold PassesTo
  simp only [brings_iff offered]
  split <;> simp [IsFree]

theorem consumesAt_iff : automaton.ConsumesAt id next ↔
    ∃ visit, automaton.Brings id visit ∧ ¬ automaton.IsFree visit ∧ visit.state = next := by
  unfold ConsumesAt
  simp only [brings_iff offered]
  split
  · rename_i isLookAround
    simp [IsFree, isLookAround]
  · rename_i other
    simp [IsFree, other]

end

section

variable {visit : Visit} {state : State} (found : automaton.state visit.state = .ok state)
  {visited : List StateId}

include found

/-- What a visit comes to depends on whether it is free, and otherwise on the visited states. -/
theorem crossing_eq (visited : List StateId) : automaton.crossing visited visit =
    .ok (if automaton.IsFree visit then .free
      else if automaton.isFinalLineBreak visited visit.state then .blocked
      else .consuming) := by
  cases visit with
  | reached id => rfl
  | across id =>
    have entered : automaton.transition id = .ok state.transition := by
      rw [transition, show automaton.state id = .ok state from found]
      rfl
    have free_iff : automaton.IsFree (.across id) ↔ ¬ state.transition = .character := by
      rw [IsFree, EntersConsuming, entered, Except.ok.injEq]
    simp only [crossing, entered, Except.map, beq_iff_eq, Visit.state]
    by_cases consumes : state.transition = .character
    · rw [if_pos consumes, if_neg fun free => free_iff.mp free consumes]
      rfl
    · rw [if_neg consumes, if_pos (free_iff.mpr consumes)]

theorem crossing_eq_free_iff :
    automaton.crossing visited visit = .ok .free ↔ automaton.IsFree visit := by
  rw [crossing_eq found, Except.ok.injEq]
  split_ifs <;> simp_all

theorem crossing_eq_blocked_iff : automaton.crossing visited visit = .ok .blocked ↔
    ¬ automaton.IsFree visit ∧ automaton.isFinalLineBreak visited visit.state = true := by
  rw [crossing_eq found, Except.ok.injEq]
  split_ifs <;> simp_all

theorem crossing_eq_consuming_iff : automaton.crossing visited visit = .ok .consuming ↔
    ¬ automaton.IsFree visit ∧ automaton.isFinalLineBreak visited visit.state = false := by
  rw [crossing_eq found, Except.ok.injEq]
  split_ifs <;> simp_all

end

theorem LinkedFrom.reaches (linked : automaton.LinkedFrom start)
    (reaches : automaton.Reaches start id) : automaton.LinkedFrom id :=
  fun other further => linked other (reaches.trans further)

theorem LinkedFrom.exists_state (linked : automaton.LinkedFrom start)
    (reaches : automaton.Reaches start id) : ∃ state, automaton.state id = .ok state := by
  obtain ⟨nexts, offered⟩ := linked id reaches
  exact exists_state_of_successors offered

/-! ### What a walk knows -/

section

variable (automaton start goal)

/-- A visit is still to be made; or it was made, unless it led to the goal; or there was an edge
that did not count, or behind which the goal is out of reach. -/
def Served (visited : List StateId) (visits : List Visit) (visit : Visit) : Prop :=
  visit ∈ visits ∨
    (automaton.IsFree visit ∧ (visit.state = goal ∨ visit.state ∈ visited)) ∨
    (¬ automaton.IsFree visit ∧ (automaton.isFinalLineBreak visited visit.state = true ∨
      ¬ automaton.Reaches visit.state goal))

/-- What holds of the visited states and the visits to be made. -/
structure Passing (visited : List StateId) (visits : List Visit) : Prop where
  missed : goal ∉ visited
  passes {id : StateId} : id ∈ visited → automaton.Passes goal start id
  waiting {visit : Visit} : visit ∈ visits →
    visit = .reached start ∨ ∃ id ∈ visited, automaton.Brings id visit
  unguarded {id : StateId} : visited.any automaton.allowsLineBreak = false → id ∈ visited →
    automaton.PassesUnguarded goal start id
  served {id : StateId} {visit : Visit} : id ∈ visited → automaton.Brings id visit →
    automaton.Served goal visited visits visit
  begun : automaton.Served goal visited visits (.reached start)

end

theorem passing_start : automaton.Passing start goal [] [.reached start] where
  missed := List.not_mem_nil
  passes member := absurd member List.not_mem_nil
  waiting member := Or.inl (List.mem_singleton.mp member)
  unguarded _ member := absurd member List.not_mem_nil
  served member := absurd member List.not_mem_nil
  begun := Or.inl (List.mem_singleton_self _)

theorem isFinalLineBreak_cons {visited : List StateId}
    (breaks : automaton.isFinalLineBreak visited id)
    (other : StateId) : automaton.isFinalLineBreak (other :: visited) id = true := by
  obtain ⟨mayBreak, met⟩ := isFinalLineBreak_iff.mp breaks
  exact isFinalLineBreak_iff.mpr ⟨mayBreak, by rw [List.any_cons, met, Bool.or_true]⟩

section

variable (linked : automaton.LinkedFrom start)

include linked

theorem Passes.reaches (passes : automaton.Passes goal start id) : automaton.Reaches start id := by
  induction passes with
  | refl => exact .refl
  | tail _ step inductionHypothesis =>
    obtain ⟨nexts, offered⟩ := linked _ inductionHypothesis
    obtain ⟨visit, brings, -, rfl⟩ := (passesTo_iff offered).mp step.2
    exact inductionHypothesis.tail brings.moves

theorem ConsumingPath.reaches {counts : StateId → Prop}
    (path : automaton.ConsumingPath goal start counts) : automaton.Reaches start goal := by
  obtain ⟨id, next, passes, -, consumes, -, onward⟩ := path
  exact (passes.reaches linked).trans (.head consumes.2.1 onward)

section

variable {visited : List StateId} {visit : Visit} {pending : List Visit}
  (passing : automaton.Passing start goal visited (visit :: pending))

include passing

theorem Passing.reaches : automaton.Reaches start visit.state := by
  rcases passing.waiting List.mem_cons_self with rfl | ⟨id, member, brings⟩
  · exact .refl
  · exact .tail ((passing.passes member).reaches linked) brings.moves

/-- How the walk comes to the state of a free visit: it starts there, or it passes to it. -/
theorem Passing.comes (free : automaton.IsFree visit) :
    visit.state = start ∨
      ∃ id ∈ visited, id ≠ goal ∧ automaton.PassesTo id visit.state := by
  rcases passing.waiting List.mem_cons_self with rfl | ⟨id, member, brings⟩
  · exact Or.inl rfl
  · obtain ⟨nexts, offered⟩ := linked id ((passing.passes member).reaches linked)
    have apart : id ≠ goal := fun same => passing.missed (same ▸ member)
    exact Or.inr ⟨id, member, apart, (passesTo_iff offered).mpr ⟨visit, brings, free, rfl⟩⟩

omit linked in
/-- A visit can be dropped once it is served otherwise. -/
theorem Passing.drop (servedOtherwise : automaton.Served goal visited pending visit) :
    automaton.Passing start goal visited pending := by
  have still {other : Visit}
      (was : automaton.Served goal visited (visit :: pending) other) :
      automaton.Served goal visited pending other := by
    rcases was with waits | rest
    · rcases List.mem_cons.mp waits with rfl | later
      · exact servedOtherwise
      · exact Or.inl later
    · exact Or.inr rest
  exact { passing with
    waiting := fun member => passing.waiting (List.mem_cons_of_mem _ member)
    served := fun member brings => still (passing.served member brings)
    begun := still passing.begun }

/-- The invariant when the walk goes on from a state. -/
theorem Passing.enter (free : automaton.IsFree visit) (other : visit.state ≠ goal)
    {visits : List Visit} (found : automaton.visitsPast visit.state = .ok visits) :
    automaton.Passing start goal (visit.state :: visited) (visits ++ pending) := by
  have still {further : Visit}
      (was : automaton.Served goal visited (visit :: pending) further) :
      automaton.Served goal (visit.state :: visited) (visits ++ pending) further := by
    rcases was with waits | ⟨isFree, made⟩ | ⟨notFree, refused⟩
    · rcases List.mem_cons.mp waits with rfl | later
      · exact Or.inr (Or.inl ⟨free, Or.inr List.mem_cons_self⟩)
      · exact Or.inl (List.mem_append_right _ later)
    · exact Or.inr (Or.inl ⟨isFree, made.imp_right (List.mem_cons_of_mem _)⟩)
    · exact Or.inr (Or.inr ⟨notFree, refused.imp_left (isFinalLineBreak_cons · _)⟩)
  refine ⟨?missed, ?passes, ?waiting, ?unguarded, ?served, still passing.begun⟩
  case missed =>
    intro member
    rcases List.mem_cons.mp member with same | old
    · exact other same.symm
    · exact passing.missed old
  case passes =>
    intro id member
    rcases List.mem_cons.mp member with rfl | old
    · rcases passing.comes linked free with same | ⟨id, old, step⟩
      · exact same ▸ .refl
      · exact (passing.passes old).tail step
    · exact passing.passes old
  case waiting =>
    intro further member
    rcases List.mem_append.mp member with new | later
    · exact Or.inr ⟨visit.state, List.mem_cons_self, visits, found, new⟩
    · refine (passing.waiting (List.mem_cons_of_mem _ later)).imp_right ?_
      rintro ⟨id, old, brings⟩
      exact ⟨id, List.mem_cons_of_mem _ old, brings⟩
  case unguarded =>
    intro id unmet member
    obtain ⟨here, before⟩ := Bool.or_eq_false_iff.mp (List.any_cons ▸ unmet)
    rcases List.mem_cons.mp member with rfl | old
    · rcases passing.comes linked free with same | ⟨id, old, step⟩
      · exact ⟨same ▸ .refl, here⟩
      · obtain ⟨path, unmetThere⟩ := passing.unguarded before old
        exact ⟨path.tail ⟨step, unmetThere⟩, here⟩
    · exact passing.unguarded before old
  case served =>
    intro id further member brings
    rcases List.mem_cons.mp member with rfl | old
    · obtain ⟨foundToo, same, inVisits⟩ := brings
      cases found.symm.trans same
      exact Or.inl (List.mem_append_left _ inVisits)
    · exact still (passing.served old brings)

/-- An edge that counts when the walk comes to it is one on a path that consumes. -/
theorem Passing.consumingPath (consumes : ¬ automaton.IsFree visit)
    (counts : automaton.isFinalLineBreak visited visit.state = false)
    (reaches : automaton.Reaches visit.state goal) :
    automaton.ConsumingPath goal start (automaton.PassesUnguarded goal start) := by
  rcases passing.waiting List.mem_cons_self with rfl | ⟨id, member, brings⟩
  · exact absurd trivial consumes
  · obtain ⟨nexts, offered⟩ := linked id ((passing.passes member).reaches linked)
    have apart : id ≠ goal := fun same => passing.missed (same ▸ member)
    have edge : automaton.ConsumesAt id visit.state :=
      (consumesAt_iff offered).mpr ⟨visit, brings, consumes, rfl⟩
    refine ⟨id, _, passing.passes member, apart, edge, fun mayBreak => ?_, reaches⟩
    refine passing.unguarded (Bool.eq_false_iff.mpr fun met => ?_) member
    cases counts.symm.trans (isFinalLineBreak_iff.mpr ⟨mayBreak, met⟩)

end

/-- When nothing is left to be visited, no path to the goal has a first character that counts in any
case. -/
theorem Passing.not_consumingPath {visited : List StateId}
    (passing : automaton.Passing start goal visited []) :
    ¬ automaton.ConsumingPath goal start fun _ => ¬ automaton.PassesBoundary goal start := by
  have settled {visit : Visit} (was : automaton.Served goal visited [] visit) :
      (automaton.IsFree visit ∧ (visit.state = goal ∨ visit.state ∈ visited)) ∨
        (¬ automaton.IsFree visit ∧ (automaton.isFinalLineBreak visited visit.state = true ∨
          ¬ automaton.Reaches visit.state goal)) :=
    was.resolve_left List.not_mem_nil
  have held {id : StateId} (passes : automaton.Passes goal start id) :
      id = goal ∨ id ∈ visited := by
    induction passes with
    | refl =>
      rcases settled passing.begun with ⟨-, made⟩ | ⟨notFree, -⟩
      · exact made
      · exact absurd trivial notFree
    | @tail id next before step inductionHypothesis =>
      have seen := inductionHypothesis.resolve_left step.1
      obtain ⟨nexts, offered⟩ := linked id (Passes.reaches linked before)
      obtain ⟨visit, brings, free, rfl⟩ := (passesTo_iff offered).mp step.2
      rcases settled (passing.served seen brings) with ⟨-, made⟩ | ⟨notFree, -⟩
      · exact made
      · exact absurd free notFree
  rintro ⟨id, next, passes, apart, consumes, counts, reaches⟩
  obtain ⟨nexts, offered⟩ := linked id (passes.reaches linked)
  obtain ⟨visit, brings, notFree, rfl⟩ := (consumesAt_iff offered).mp consumes
  have seen := (held passes).resolve_left apart
  rcases settled (passing.served seen brings) with ⟨free, -⟩ | ⟨-, breaks | cut⟩
  · exact notFree free
  · obtain ⟨mayBreak, met⟩ := isFinalLineBreak_iff.mp breaks
    obtain ⟨boundary, member, allows⟩ := List.any_eq_true.mp met
    refine counts mayBreak ⟨boundary, passing.passes member, ?_, allows⟩
    exact fun same => passing.missed (same ▸ member)
  · exact cut reaches

end

end

end Automaton

namespace Checker

/-! ### Questions during a walk -/

section

variable {automaton : Automaton} {goal : StateId} {checker : Checker}

/-- There is room for every question about the goal, and the entries are right. -/
structure Reliable (checker : Checker) (automaton : Automaton) (goal : StateId) : Prop where
  roomy : checker.Roomy automaton goal
  sincere : checker.Sincere automaton
  truthful : checker.Truthful automaton goal

theorem reliable_of_memory_nil (empty : checker.memory = [])
    (enough : automaton.size ≤ checker.limit) : checker.Reliable automaton goal :=
  ⟨roomy_of_memory_nil empty enough, sincere_of_memory_nil empty, truthful_of_memory_nil empty goal⟩

/-- A reliable checker answers whether the goal can be reached. -/
theorem Reliable.canReach {start : StateId} (reliable : checker.Reliable automaton goal)
    (linked : automaton.LinkedFrom start) :
    ∃ answer, (checker.canReach automaton start goal).answer = .ok answer ∧
      (answer = true ↔ automaton.Reaches start goal) := by
  obtain ⟨answer, answered, leads⟩ := canReach_eq_ok_iff_leads linked reliable.roomy
  exact ⟨answer, answered, leads.trans ⟨reliable.sincere.reaches, reliable.truthful.leads⟩⟩

/-- After the answer no it is still reliable. -/
theorem Reliable.refused {start : StateId} (reliable : checker.Reliable automaton goal)
    (linked : automaton.LinkedFrom start)
    (answered : (checker.canReach automaton start goal).answer = .ok false) :
    (checker.canReach automaton start goal).checker.Reliable automaton goal := by
  have concluded : Concluded automaton goal checker checker []
      (checker.canReach automaton start goal) := concluded_canReach linked
  exact ⟨(concluded.exhausted answered).roomy reliable.roomy,
    reliable.sincere.canReach linked (Or.inr reliable.roomy),
    reliable.truthful.canReach linked reliable.roomy answered⟩

/-! ### The walk -/

/-- The answer is yes if there is a path whose first character counts in any case, and only if there
is one whose first character counts when the walk comes there without having met a boundary. -/
def AnswersConsuming (automaton : Automaton) (start goal : StateId) (result : Except Fault Bool) :
    Prop :=
  ∃ answer, result = .ok answer ∧
    (automaton.ConsumingPath goal start (fun _ => ¬ automaton.PassesBoundary goal start) →
      answer = true) ∧
    (answer = true →
      automaton.ConsumingPath goal start (automaton.PassesUnguarded goal start))

/-- Under the invariant a walk with a reliable checker has an answer of that kind. -/
theorem answersConsuming_walk {start : StateId} (linked : automaton.LinkedFrom start)
    {visited : List StateId} {visits : List Visit}
    (passing : automaton.Passing start goal visited visits)
    (reliable : checker.Reliable automaton goal) :
    AnswersConsuming automaton start goal
      (walkConsuming automaton goal checker visited visits).answer := by
  induction checker, visited, visits using walkConsuming.induct automaton goal with
  | case1 checker visited =>
    rw [walkConsuming]
    exact ⟨false, rfl, fun sure => absurd sure (passing.not_consumingPath linked),
      fun yes => by cases yes⟩
  | case2 checker visited visit pending fault failed =>
    obtain ⟨state, found⟩ := linked.exists_state (passing.reaches linked)
    cases failed.symm.trans (Automaton.crossing_eq found visited)
  | case3 checker visited visit pending blocked inductionHypothesis =>
    obtain ⟨state, found⟩ := linked.exists_state (passing.reaches linked)
    obtain ⟨notFree, breaks⟩ := (Automaton.crossing_eq_blocked_iff found).mp blocked
    rw [walkConsuming_blocked blocked]
    exact inductionHypothesis (passing.drop (Or.inr (Or.inr ⟨notFree, Or.inl breaks⟩))) reliable
  | case4 checker visited visit pending consumes reached no inductionHypothesis =>
    have reaches := passing.reaches linked
    obtain ⟨state, found⟩ := linked.exists_state reaches
    have notFree := ((Automaton.crossing_eq_consuming_iff found).mp consumes).1
    obtain ⟨answer, answered, right⟩ := reliable.canReach (linked.reaches reaches)
    cases answered.symm.trans no
    rw [walkConsuming_refused consumes no]
    refine inductionHypothesis (passing.drop (Or.inr (Or.inr ⟨notFree, Or.inr ?_⟩)))
      (reliable.refused (linked.reaches reaches) no)
    exact fun leads => Bool.false_ne_true (right.mpr leads)
  | case5 checker visited visit pending consumes reached other =>
    have reaches := passing.reaches linked
    obtain ⟨state, found⟩ := linked.exists_state reaches
    obtain ⟨notFree, counts⟩ := (Automaton.crossing_eq_consuming_iff found).mp consumes
    obtain ⟨answer, answered, right⟩ := reliable.canReach (linked.reaches reaches)
    cases answer with
    | false => exact absurd answered other
    | true =>
      rw [walkConsuming_answered consumes other]
      exact ⟨true, answered, fun _ => rfl,
        fun _ => passing.consumingPath linked notFree counts (right.mp rfl)⟩
  | case6 checker visited visit pending free stops inductionHypothesis =>
    obtain ⟨state, found⟩ := linked.exists_state (passing.reaches linked)
    have isFree := (Automaton.crossing_eq_free_iff found).mp free
    have made : visit.state = goal ∨ visit.state ∈ visited := by simpa using stops
    rw [walkConsuming_stops free made]
    exact inductionHypothesis (passing.drop (Or.inr (Or.inl ⟨isFree, made⟩))) reliable
  | case7 checker visited visit pending free goesOn fault failed =>
    obtain ⟨nexts, offered⟩ := linked _ (passing.reaches linked)
    obtain ⟨visits, found⟩ := Automaton.exists_visitsPast offered
    cases failed.symm.trans found
  | case8 checker visited visit pending free goesOn visits brought inductionHypothesis =>
    obtain ⟨state, found⟩ := linked.exists_state (passing.reaches linked)
    have isFree := (Automaton.crossing_eq_free_iff found).mp free
    obtain ⟨other, unseen⟩ : visit.state ≠ goal ∧ visit.state ∉ visited := by simpa using goesOn
    rw [walkConsuming_enters free other unseen brought]
    exact inductionHypothesis (passing.enter linked isFree other brought) reliable

variable (goal) in
/-- A walk that begins with an empty memory has an answer of that kind. -/
theorem answersConsuming_of_memory_nil {start : StateId} (linked : automaton.LinkedFrom start)
    (empty : checker.memory = []) (enough : automaton.size ≤ checker.limit) :
    AnswersConsuming automaton start goal (checker.canReachConsuming automaton start goal).answer :=
  answersConsuming_walk linked Automaton.passing_start (reliable_of_memory_nil empty enough)

end

end Checker

/-! ### Automata without lookarounds and without end boundaries -/

namespace Automaton

/-- No state is a lookaround. -/
def LacksLookArounds (automaton : Automaton) : Prop :=
  ∀ id ∈ automaton.ids, automaton.isLookAround id = false

/-- No state is a boundary `$` or `\Z`, which a line break may follow. -/
def LacksEndBoundaries (automaton : Automaton) : Prop :=
  ∀ id ∈ automaton.ids, automaton.allowsLineBreak id = false

instance (automaton : Automaton) : Decidable automaton.LacksLookArounds :=
  inferInstanceAs (Decidable (∀ id ∈ automaton.ids, _))

instance (automaton : Automaton) : Decidable automaton.LacksEndBoundaries :=
  inferInstanceAs (Decidable (∀ id ∈ automaton.ids, _))

section

variable {automaton : Automaton} {start goal id next : StateId}

section

variable (lacks : automaton.LacksLookArounds)

include lacks

theorem LacksLookArounds.isLookAround (id : StateId) : automaton.isLookAround id = false := by
  cases isLookAround : automaton.isLookAround id with
  | false => rfl
  | true =>
    obtain ⟨treeNode, -, -, -, -, isTree, -⟩ := exists_lookAround isLookAround
    have held : automaton.state id = .ok (.tree treeNode) := by
      rw [state, tree?_eq_some_iff.mp isTree]
    have member : id ∈ automaton.ids := mem_ids_of_state held
    exact isLookAround.symm.trans (lacks id member)

/-- Without lookarounds to pass is to move to a state that is no character. -/
theorem LacksLookArounds.passesTo_iff : automaton.PassesTo id next ↔
    automaton.Moves id next ∧ ¬ automaton.EntersConsuming next := by
  rw [PassesTo, lacks.isLookAround, if_neg Bool.false_ne_true]

theorem LacksLookArounds.consumesAt_iff : automaton.ConsumesAt id next ↔
    automaton.Moves id next ∧ automaton.EntersConsuming next := by
  rw [ConsumesAt, lacks.isLookAround, eq_self, true_and]

/-- Where every edge into a character counts, a path that consumes is one on which a character is
entered before the goal is met. -/
theorem LacksLookArounds.consumingPath_iff {counts : StateId → Prop} (all : ∀ id, counts id) :
    automaton.ConsumingPath goal start counts ↔
      ∃ passed character rest, automaton.Walk start (start :: passed ++ character :: rest) goal ∧
        goal ∉ start :: passed ∧ (∀ id ∈ passed, ¬ automaton.EntersConsuming id) ∧
        automaton.EntersConsuming character := by
  constructor
  · rintro ⟨id, character, passes, apart, consumes, -, reaches⟩
    obtain ⟨moves, enters⟩ := lacks.consumesAt_iff.mp consumes
    obtain ⟨rest, onward⟩ := reaches.exists_walk
    induction passes using ReflTransGen.head_induction_on with
    | refl =>
      exact ⟨[], character, rest, .step moves onward, by simpa using apart.symm, by simp, enters⟩
    | @head id next step _ inductionHypothesis =>
      obtain ⟨passed, character, rest, walk, avoids, silent, enters⟩ := inductionHypothesis
      obtain ⟨moves, quiet⟩ := lacks.passesTo_iff.mp step.2
      refine ⟨next :: passed, character, rest, .step moves walk, ?_, ?_, enters⟩
      · exact List.not_mem_cons_of_ne_of_not_mem step.1.symm avoids
      · exact List.forall_mem_cons.mpr ⟨quiet, silent⟩
  · rintro ⟨passed, character, rest, walk, avoids, silent, enters⟩
    induction passed generalizing start with
    | nil =>
      have apart : goal ≠ start := List.ne_of_not_mem_cons avoids
      cases walk with
      | step moves onward =>
        obtain rfl := onward.head_eq
        exact ⟨start, _, .refl, Ne.symm apart, lacks.consumesAt_iff.mpr ⟨moves, enters⟩,
          fun _ => all start, onward.reaches⟩
    | cons next passed inductionHypothesis =>
      have apart : goal ≠ start := List.ne_of_not_mem_cons avoids
      have avoidsToo : goal ∉ next :: passed := List.not_mem_of_not_mem_cons avoids
      obtain ⟨quiet, silentToo⟩ := List.forall_mem_cons.mp silent
      cases walk with
      | step moves onward =>
        obtain rfl := onward.head_eq
        obtain ⟨id, character, passes, rest⟩ := inductionHypothesis onward avoidsToo silentToo
        exact ⟨id, character, .head ⟨Ne.symm apart, lacks.passesTo_iff.mpr ⟨moves, quiet⟩⟩ passes,
          rest⟩

end

theorem LacksEndBoundaries.not_passesBoundary (lacks : automaton.LacksEndBoundaries)
    (linked : automaton.LinkedFrom start) : ¬ automaton.PassesBoundary goal start := by
  rintro ⟨boundary, passes, -, allows⟩
  have member := (linked.reaches (passes.reaches linked)).mem_ids
  cases allows.symm.trans (lacks boundary member)

end

end Automaton

/-- Without lookarounds and end boundaries a checker with an empty memory and room for all states
answers whether a path to the goal enters a character before it meets the goal. -/
theorem canReachConsuming_iff_walk {automaton : Automaton} {checker : Checker}
    {start goal : StateId} (linked : automaton.LinkedFrom start)
    (lacks : automaton.LacksLookArounds ∧ automaton.LacksEndBoundaries)
    (empty : checker.memory = []) (enough : automaton.size ≤ checker.limit) :
    ∃ answer, (checker.canReachConsuming automaton start goal).answer = .ok answer ∧
      (answer = true ↔
        ∃ passed character rest, automaton.Walk start (start :: passed ++ character :: rest) goal ∧
          goal ∉ start :: passed ∧ (∀ id ∈ passed, ¬ automaton.EntersConsuming id) ∧
          automaton.EntersConsuming character) := by
  obtain ⟨noLookArounds, noBoundaries⟩ := lacks
  obtain ⟨answer, answered, complete, sound⟩ :=
    Checker.answersConsuming_of_memory_nil goal linked empty enough
  have never : ¬ automaton.PassesBoundary goal start := noBoundaries.not_passesBoundary linked
  have counting : automaton.ConsumingPath goal start
      (fun _ => ¬ automaton.PassesBoundary goal start) ↔ _ :=
    noLookArounds.consumingPath_iff fun _ => never
  rw [← counting]
  exact ⟨answer, answered, fun yes => (sound yes).mono fun _ _ => never, complete⟩

/-- In `a(b|c)*d` the question is asked of the repetition, from where a loop leads back to it. -/
theorem loop_canReachConsuming_iff_walk :
    ∃ pattern, loopPattern? = some pattern ∧ pattern.automaton.size = 12 ∧
      pattern.automaton.LacksLookArounds ∧ pattern.automaton.LacksEndBoundaries ∧
      ∃ answer, ((Checker.withLimit true 12).canReachConsuming pattern.automaton ⟨6⟩ ⟨7⟩).answer =
          .ok answer ∧
        (answer = true ↔ ∃ passed character rest,
          pattern.automaton.Walk ⟨6⟩ (⟨6⟩ :: passed ++ character :: rest) ⟨7⟩ ∧
            ⟨7⟩ ∉ ⟨6⟩ :: passed ∧ (∀ id ∈ passed, ¬ pattern.automaton.EntersConsuming id) ∧
            pattern.automaton.EntersConsuming character) := by
  have computed : (loopPattern?.map fun pattern =>
      decide (pattern.automaton.LacksLookArounds ∧ pattern.automaton.LacksEndBoundaries)) =
      some true := by decide +kernel
  obtain ⟨pattern, built, size, linked⟩ := exists_linked_loopPattern
  rw [built, Option.map_some, Option.some.injEq, decide_eq_true_iff] at computed
  exact ⟨pattern, built, size, computed.1, computed.2,
    canReachConsuming_iff_walk (linked ⟨6⟩ (by decide)) computed rfl (Nat.le_of_eq size)⟩

end PatternGraph
