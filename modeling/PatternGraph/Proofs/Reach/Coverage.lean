/-
This file asks whether a goal that can be reached is found by one of the two questions, whether it
can be reached with or without consumed input. A path either enters a character or does not, so one
expects that it is. But the two walks treat a possible line break after an end boundary differently:
without consumed input it is followed as if it were no character, and with consumed input it is
neither followed nor taken for consumed. What lies behind such a line break and a further character
is found by neither.

Nothing else is missed. Until one of them visits an end boundary, the two walks make the same visits
in the same order. So if the walk for consumed input says no, every line break that the other walk
refused was one behind which the goal is out of reach; and once that walk has visited an end
boundary, it refuses no line break any more. That is `Covering`, where the walk for consumed input
is kept as a fact about the same visits until it is not needed any more. Hence the walk without
consumed input finds the goal whenever all characters on a path may be line breaks.
-/

import PatternGraph.Proofs.Reach.Consumption

namespace PatternGraph

open Relation

namespace Automaton

section

variable (automaton : Automaton)

/-- No state is entered in the given way. -/
def LacksTransition (transition : Transition) : Prop :=
  ∀ id ∈ automaton.ids, automaton.transition id ≠ .ok transition

/-- There are no lookarounds, no ways into a lookbehind and no back-references. -/
structure Plain : Prop where
  lookArounds : automaton.LacksLookArounds
  lookbehinds : automaton.LacksTransition .lookaroundBacktracking
  references : automaton.LacksTransition .backReference

/-- The characters that are entered along the visited states, the first of which is not entered. -/
def charactersEntered (visited : List StateId) : List StateId :=
  visited.tail.filter fun id => decide (automaton.EntersConsuming id)

/-- A move for which nothing has to be consumed if line breaks need not be. -/
def Follows (id next : StateId) : Prop :=
  automaton.Moves id next ∧ (automaton.EntersFreely next ∨ automaton.mayBreakLine next = true)

instance (transition : Transition) : Decidable (automaton.LacksTransition transition) :=
  inferInstanceAs (Decidable (∀ id ∈ automaton.ids, _))

instance : Decidable automaton.Plain :=
  decidable_of_iff (automaton.LacksLookArounds ∧
      automaton.LacksTransition .lookaroundBacktracking ∧
      automaton.LacksTransition .backReference)
    ⟨fun ⟨first, second, third⟩ => ⟨first, second, third⟩,
      fun plain => ⟨plain.lookArounds, plain.lookbehinds, plain.references⟩⟩

/-- What holds of the visited states and the visits to be made by a walk without consumed input, if
the walk for consumed input says no. -/
structure Covering (start goal : StateId) (visited : List StateId) (visits : List Visit) :
    Prop where
  missed : goal ∉ visited
  reaches {id : StateId} : id ∈ visited → automaton.Reaches start id
  waiting {visit : Visit} : visit ∈ visits → visit = .reached start ∨
    ∃ id next, visit = .across next ∧ id ∈ visited ∧ automaton.Moves id next
  closed {id next : StateId} : id ∈ visited → automaton.Follows id next →
    automaton.Reaches next goal → next ∈ visited ∨ .across next ∈ visits
  begun : start ∈ visited ∨ .reached start ∈ visits
  /-- Before a boundary is visited, the walk for consumed input has the same visits to make. -/
  refused : visited.any automaton.allowsLineBreak = false → ∃ checker : Checker,
    checker.Reliable automaton goal ∧
      (Checker.walkConsuming automaton goal checker visited visits).answer = .ok false

end

section

variable {automaton : Automaton} {start goal : StateId}

theorem EntersFreely.not_entersConsuming {id : StateId} (free : automaton.EntersFreely id) :
    ¬ automaton.EntersConsuming id := by
  intro consumes
  rcases free with epsilon | negation
  · cases epsilon.symm.trans consumes
  · cases negation.symm.trans consumes

/-- In a plain automaton every state is entered freely or as a character. -/
theorem Plain.enters (plain : automaton.Plain) {id : StateId} {state : State}
    (found : automaton.state id = .ok state) :
    automaton.EntersFreely id ∨ automaton.EntersConsuming id := by
  have member := mem_ids_of_state found
  have entered : automaton.transition id = .ok state.transition := by
    rw [transition, found]
    rfl
  cases how : state.transition with
  | epsilon => exact Or.inl (Or.inl (how ▸ entered))
  | negation => exact Or.inl (Or.inr (how ▸ entered))
  | character => exact Or.inr (by rw [EntersConsuming, entered, how])
  | backReference => exact absurd (how ▸ entered) (plain.references id member)
  | lookaroundBacktracking => exact absurd (how ▸ entered) (plain.lookbehinds id member)

/-- Before a boundary is visited, the visits that can be made without consuming input are free. -/
theorem isFree_of_canCross {visited : List StateId} {visit : Visit}
    (crosses : automaton.canCross visited visit = .ok true)
    (unmet : visited.any automaton.allowsLineBreak = false) : automaton.IsFree visit := by
  cases visit with
  | reached id => trivial
  | across id =>
    have enters := (canCross_across crosses).mp rfl
    refine (enters.resolve_right fun breaks => ?_).not_entersConsuming
    cases unmet.symm.trans (isFinalLineBreak_iff.mp breaks).2

/-! ### The steps of the walk -/

section

variable {visited : List StateId} {visit : Visit} {pending : List Visit}
  (covering : automaton.Covering start goal visited (visit :: pending))

include covering

theorem Covering.reaches_visit : automaton.Reaches start visit.state := by
  rcases covering.waiting List.mem_cons_self with rfl | ⟨id, next, rfl, member, moves⟩
  · exact .refl
  · exact (covering.reaches member).tail moves

/-- A visit can be dropped if its state was visited before, or the goal is out of reach behind each
edge that the visit stands for. -/
theorem Covering.drop
    (needless : visit.state ∈ visited ∨ ∃ next, visit = .across next ∧
      ∀ id, automaton.Follows id next → ¬ automaton.Reaches next goal)
    (refused : visited.any automaton.allowsLineBreak = false → ∃ checker : Checker,
      checker.Reliable automaton goal ∧
        (Checker.walkConsuming automaton goal checker visited pending).answer = .ok false) :
    automaton.Covering start goal visited pending := by
  refine { covering with
    waiting := fun member => covering.waiting (List.mem_cons_of_mem _ member)
    closed := fun {id next} member follows reaches => ?_
    begun := ?_
    refused := refused }
  · rcases covering.closed member follows reaches with old | waits
    · exact Or.inl old
    · rcases List.mem_cons.mp waits with rfl | later
      · rcases needless with seen | ⟨same, across, outOfReach⟩
        · exact Or.inl seen
        · cases across
          exact absurd reaches (outOfReach id follows)
      · exact Or.inr later
  · rcases covering.begun with old | waits
    · exact Or.inl old
    · rcases List.mem_cons.mp waits with rfl | later
      · exact Or.inl (needless.resolve_right fun ⟨_, across, _⟩ => by cases across)
      · exact Or.inr later

/-- Both walks drop a visit to a state that was visited before. -/
theorem Covering.drop_visited (linked : automaton.LinkedFrom start)
    (crosses : automaton.canCross visited visit = .ok true) (seen : visit.state ∈ visited) :
    automaton.Covering start goal visited pending := by
  refine covering.drop (Or.inl seen) fun unmet => ?_
  obtain ⟨checker, reliable, no⟩ := covering.refused unmet
  obtain ⟨state, found⟩ := linked.exists_state covering.reaches_visit
  have free : automaton.crossing visited visit = .ok .free :=
    (crossing_eq_free_iff found).mpr (isFree_of_canCross crosses unmet)
  rw [Checker.walkConsuming_stops free (Or.inr seen)] at no
  exact ⟨checker, reliable, no⟩

/-- An edge that consumes is refused by the walk without consumed input; as long as no boundary was
visited, the other walk has asked whether the goal is behind it, and the answer was no. -/
theorem Covering.drop_blocked (plain : automaton.Plain) (linked : automaton.LinkedFrom start)
    (blocked : automaton.canCross visited visit = .ok false) :
    automaton.Covering start goal visited pending := by
  obtain ⟨id, next, rfl, member, moves⟩ : ∃ id next, visit = .across next ∧ id ∈ visited ∧
      automaton.Moves id next := by
    refine (covering.waiting List.mem_cons_self).resolve_left ?_
    rintro rfl
    cases blocked
  have reachesNext : automaton.Reaches start next := (covering.reaches member).tail moves
  obtain ⟨state, found⟩ := linked.exists_state reachesNext
  have foundThere : automaton.state (Visit.across next).state = .ok state := found
  obtain ⟨notFree, notBreak⟩ := not_or.mp (mt (canCross_across blocked).mpr Bool.false_ne_true)
  have consumes : automaton.EntersConsuming next := (plain.enters found).resolve_left notFree
  have asked : automaton.crossing visited (.across next) = .ok .consuming :=
    (crossing_eq_consuming_iff foundThere).mpr
      ⟨fun quiet => quiet consumes, Bool.eq_false_iff.mpr notBreak⟩
  -- The walk for consumed input ends with the first yes, and it has ended with no.
  have outOfReach (unmet : visited.any automaton.allowsLineBreak = false) :
      ¬ automaton.Reaches next goal ∧ ∃ checker : Checker, checker.Reliable automaton goal ∧
        (Checker.walkConsuming automaton goal checker visited pending).answer = .ok false := by
    obtain ⟨checker, reliable, no⟩ := covering.refused unmet
    have linkedNext := linked.reaches reachesNext
    obtain ⟨answer, answered, right⟩ := reliable.canReach linkedNext
    cases answer with
    | true =>
      rw [Checker.walkConsuming_answered asked (by simp [answered])] at no
      cases answered.symm.trans no
    | false =>
      rw [Checker.walkConsuming_refused asked answered] at no
      exact ⟨fun reaches => Bool.false_ne_true (right.mpr reaches), _,
        reliable.refused linkedNext answered, no⟩
  refine covering.drop (Or.inr ⟨next, rfl, fun _ follows => ?_⟩) fun unmet => (outOfReach unmet).2
  -- A line break is refused only while no boundary was visited, so the question was asked.
  have mayBreak := follows.2.resolve_left notFree
  refine (outOfReach (Bool.eq_false_iff.mpr fun met => ?_)).1
  exact notBreak (isFinalLineBreak_iff.mpr ⟨mayBreak, met⟩)

/-- Both walks go on from a state in the same way. -/
theorem Covering.enter (plain : automaton.Plain)
    (crosses : automaton.canCross visited visit = .ok true) (other : visit.state ≠ goal)
    (unseen : visit.state ∉ visited) {nexts : List StateId}
    (offered : automaton.successors visit.state = .ok nexts) :
    automaton.Covering start goal (visit.state :: visited) (nexts.map .across ++ pending) := by
  refine ⟨?missed, ?reaches, ?waiting, ?closed, ?begun, ?refused⟩
  case missed => exact List.not_mem_cons_of_ne_of_not_mem other.symm covering.missed
  case reaches =>
    exact List.forall_mem_cons.mpr ⟨covering.reaches_visit, fun id => covering.reaches⟩ _
  case waiting =>
    intro further member
    rcases List.mem_append.mp member with new | later
    · obtain ⟨next, inNexts, rfl⟩ := List.mem_map.mp new
      exact Or.inr ⟨visit.state, next, rfl, List.mem_cons_self, nexts, offered, inNexts⟩
    · refine (covering.waiting (List.mem_cons_of_mem _ later)).imp_right ?_
      rintro ⟨id, next, same, old, moves⟩
      exact ⟨id, next, same, List.mem_cons_of_mem _ old, moves⟩
  case closed =>
    intro id next member follows reaches
    rcases List.mem_cons.mp member with rfl | old
    · obtain ⟨found, offeredToo, inNexts⟩ := follows.1
      cases offered.symm.trans offeredToo
      exact Or.inr (List.mem_append_left _ (List.mem_map_of_mem inNexts))
    · rcases covering.closed old follows reaches with seen | waits
      · exact Or.inl (List.mem_cons_of_mem _ seen)
      · rcases List.mem_cons.mp waits with rfl | later
        · exact Or.inl List.mem_cons_self
        · exact Or.inr (List.mem_append_right _ later)
  case begun =>
    rcases covering.begun with seen | waits
    · exact Or.inl (List.mem_cons_of_mem _ seen)
    · rcases List.mem_cons.mp waits with rfl | later
      · exact Or.inl List.mem_cons_self
      · exact Or.inr (List.mem_append_right _ later)
  case refused =>
    intro unmet
    obtain ⟨-, before⟩ := Bool.or_eq_false_iff.mp (List.any_cons ▸ unmet)
    obtain ⟨checker, reliable, no⟩ := covering.refused before
    obtain ⟨state, found⟩ := exists_state_of_successors offered
    have free : automaton.crossing visited visit = .ok .free :=
      (crossing_eq_free_iff found).mpr (isFree_of_canCross crosses before)
    have brought :=
      visitsPast_of_not_lookAround (plain.lookArounds.isLookAround visit.state) offered
    rw [Checker.walkConsuming_enters free other unseen brought] at no
    exact ⟨checker, reliable, no⟩

end

/-! ### The end of the walk -/

/-- What holds when the walk without consumed input has ended with no. -/
theorem Covering.exists_end (plain : automaton.Plain) (linked : automaton.LinkedFrom start)
    {visited : List StateId} {visits : List Visit}
    (covering : automaton.Covering start goal visited visits)
    (no : automaton.walkWithoutConsuming goal false visited visits = .ok false) :
    ∃ final, automaton.Covering start goal final [] := by
  induction visited, visits using walkWithoutConsuming.induct automaton goal false with
  | case1 visited => exact ⟨visited, covering⟩
  | case2 visited visit pending fault refused =>
    obtain ⟨state, found⟩ := linked.exists_state covering.reaches_visit
    obtain ⟨crosses, asked⟩ := exists_canCross found visited
    cases refused.symm.trans asked
  | case3 visited visit pending blocked inductionHypothesis =>
    rw [walkWithoutConsuming_blocked blocked] at no
    exact inductionHypothesis (covering.drop_blocked plain linked blocked) no
  | case4 visited visit pending crosses reached =>
    cases (walkWithoutConsuming_arrives crosses reached).symm.trans no
  | case5 visited visit pending crosses other fault failed =>
    obtain ⟨state, found⟩ := linked.exists_state covering.reaches_visit
    have asked : ∃ stops, automaton.stopsAt false visited visit.state = .ok stops :=
      exists_stopsAt found visited
    obtain ⟨stops, answered⟩ := asked
    cases failed.symm.trans answered
  | case6 visited visit pending crosses other stops inductionHypothesis =>
    rw [walkWithoutConsuming_stops crosses other stops] at no
    have seen : visit.state ∈ visited :=
      (stopsAt_eq_ok_true stops).resolve_right fun stuck => stuck fun strict => by cases strict
    exact inductionHypothesis (covering.drop_visited linked crosses seen) no
  | case7 visited visit pending crosses other goesOn fault failed =>
    obtain ⟨nexts, offered⟩ := linked _ covering.reaches_visit
    cases failed.symm.trans offered
  | case8 visited visit pending crosses other goesOn nexts offered inductionHypothesis =>
    rw [walkWithoutConsuming_enters crosses other goesOn offered] at no
    have unseen := (stopsAt_eq_ok_false goesOn).1
    exact inductionHypothesis (covering.enter plain crosses other unseen offered) no

/-- Then no path leads to the goal on which every character may be a line break. -/
theorem Covering.not_follows {visited : List StateId}
    (covering : automaton.Covering start goal visited []) :
    ¬ ReflTransGen automaton.Follows start goal := by
  have held {id : StateId} (follows : ReflTransGen automaton.Follows start id)
      (onward : automaton.Reaches id goal) : id ∈ visited := by
    induction follows with
    | refl => exact covering.begun.resolve_right List.not_mem_nil
    | tail _ step inductionHypothesis =>
      have seen := inductionHypothesis (.head step.1 onward)
      exact (covering.closed seen step onward).resolve_right List.not_mem_nil
  exact fun follows => covering.missed (held follows .refl)

theorem covering_start {checker : Checker} (reliable : checker.Reliable automaton goal)
    (no : (checker.canReachConsuming automaton start goal).answer = .ok false) :
    automaton.Covering start goal [] [.reached start] where
  missed := List.not_mem_nil
  reaches member := absurd member List.not_mem_nil
  waiting member := Or.inl (List.mem_singleton.mp member)
  closed member := absurd member List.not_mem_nil
  begun := Or.inr (List.mem_singleton_self _)
  refused _ := ⟨checker, reliable, no⟩

/-! ### Paths -/

/-- What is entered along a path is the first step and what is entered along the rest. -/
theorem charactersEntered_step {id next : StateId} {visited : List StateId}
    (rest : automaton.Walk next visited goal) :
    automaton.charactersEntered (id :: visited) =
      if automaton.EntersConsuming next then next :: automaton.charactersEntered visited
      else automaton.charactersEntered visited := by
  obtain ⟨further, rfl⟩ := rest.exists_tail
  simp [charactersEntered, List.filter_cons]

section

variable (plain : automaton.Plain) (linked : automaton.LinkedFrom start)

include plain linked

theorem Plain.moves_follows {next : StateId} (moves : automaton.Moves start next)
    (quiet : ¬ automaton.EntersConsuming next ∨ automaton.mayBreakLine next = true) :
    automaton.Follows start next := by
  obtain ⟨state, found⟩ := linked.exists_state (.single moves)
  exact ⟨moves, quiet.imp_left (plain.enters found).resolve_right⟩

/-- Where every character may be a line break, nothing has to be consumed. -/
theorem Walk.follows {visited : List StateId} (walk : automaton.Walk start visited goal)
    (breaks : ∀ character ∈ automaton.charactersEntered visited,
      automaton.mayBreakLine character = true) :
    ReflTransGen automaton.Follows start goal := by
  induction walk with
  | stop => exact .refl
  | @step id next goal visited moves rest inductionHypothesis =>
    rw [charactersEntered_step rest] at breaks
    by_cases consumes : automaton.EntersConsuming next
    · rw [if_pos consumes] at breaks
      obtain ⟨here, later⟩ := List.forall_mem_cons.mp breaks
      exact .head (plain.moves_follows linked moves (Or.inr here))
        (inductionHypothesis (linked.moves moves) later)
    · rw [if_neg consumes] at breaks
      exact .head (plain.moves_follows linked moves (Or.inl consumes))
        (inductionHypothesis (linked.moves moves) breaks)

/-- What the walk for consumed input passes to is followed without consuming. -/
theorem Passes.follows (passes : automaton.Passes goal start goal) :
    ReflTransGen automaton.Follows start goal := by
  induction passes using ReflTransGen.head_induction_on with
  | refl => exact .refl
  | head step _ inductionHypothesis =>
    obtain ⟨moves, quiet⟩ := plain.lookArounds.passesTo_iff.mp step.2
    exact .head (plain.moves_follows linked moves (Or.inl quiet))
      (inductionHypothesis (linked.moves moves))

omit linked in
/-- If the first character of a path counts, or there is none, the walk for consumed input passes
to the goal or consumes. -/
theorem Walk.passes_or_consumingPath {counts : StateId → Prop} {visited : List StateId}
    (walk : automaton.Walk start visited goal)
    (counted : ∀ character later, automaton.charactersEntered visited = character :: later →
      automaton.mayBreakLine character = true → ∀ id, counts id) :
    automaton.Passes goal start goal ∨ automaton.ConsumingPath goal start counts := by
  induction walk with
  | stop => exact Or.inl .refl
  | @step id next goal visited moves rest inductionHypothesis =>
    rw [charactersEntered_step rest] at counted
    by_cases arrived : id = goal
    · exact Or.inl (arrived ▸ .refl)
    · by_cases consumes : automaton.EntersConsuming next
      · rw [if_pos consumes] at counted
        exact Or.inr ⟨id, next, .refl, arrived, plain.lookArounds.consumesAt_iff.mpr
          ⟨moves, consumes⟩, fun breaks => counted next _ rfl breaks id, rest.reaches⟩
      · rw [if_neg consumes] at counted
        have step : automaton.PassesTo id next :=
          plain.lookArounds.passesTo_iff.mpr ⟨moves, consumes⟩
        rcases inductionHypothesis counted with passes | ⟨before, consumed, passes, consuming⟩
        · exact Or.inl (.head ⟨arrived, step⟩ passes)
        · exact Or.inr ⟨before, consumed, .head ⟨arrived, step⟩ passes, consuming⟩

/-- If both walks say no, every path to the goal begins to consume with a possible line break, and
an end boundary can be met before. -/
theorem Walk.missed {visited : List StateId} (walk : automaton.Walk start visited goal)
    (unfollowed : ¬ ReflTransGen automaton.Follows start goal)
    (unconsumed : ¬ automaton.ConsumingPath goal start
      fun _ => ¬ automaton.PassesBoundary goal start) :
    automaton.PassesBoundary goal start ∧
      ∃ lineBreak later, automaton.charactersEntered visited = lineBreak :: later ∧
        automaton.mayBreakLine lineBreak = true ∧
        ∃ character ∈ later, automaton.mayBreakLine character = false := by
  have refuted (counted : ∀ character later,
      automaton.charactersEntered visited = character :: later →
        automaton.mayBreakLine character = true → ¬ automaton.PassesBoundary goal start) :
      False := by
    rcases walk.passes_or_consumingPath plain fun character later split breaks _ =>
      counted character later split breaks with passes | consumes
    · exact unfollowed (passes.follows plain linked)
    · exact unconsumed consumes
  refine ⟨by_contra fun never => refuted fun _ _ _ _ => never, ?_⟩
  obtain ⟨other, member, noBreak⟩ : ∃ character ∈ automaton.charactersEntered visited,
      automaton.mayBreakLine character = false := by
    by_contra none
    exact unfollowed (walk.follows plain linked fun character member =>
      Bool.of_not_eq_false fun noBreak => none ⟨character, member, noBreak⟩)
  cases characters : automaton.charactersEntered visited with
  | nil => exact absurd (characters ▸ member) List.not_mem_nil
  | cons first later =>
    have breaks : automaton.mayBreakLine first = true := by
      refine Bool.of_not_eq_false fun noBreakFirst => refuted fun character rest split breaks => ?_
      cases characters.symm.trans split
      cases noBreakFirst.symm.trans breaks
    refine ⟨first, later, rfl, breaks, other, ?_, noBreak⟩
    rcases List.mem_cons.mp (characters ▸ member) with rfl | inLater
    · cases noBreak.symm.trans breaks
    · exact inLater

end

end

end Automaton

/-! ### The answers -/

/-- In a plain automaton a goal is found with or without consumed input only if it can be reached;
and if it can be reached it is found, unless an end boundary can be met before anything is consumed
and every path to the goal enters a possible line break as its first character and a character that
is none later on. -/
theorem reachable_with_or_without_consuming {automaton : Automaton} {checker : Checker}
    {start goal : StateId} (linked : automaton.LinkedFrom start) (plain : automaton.Plain)
    (empty : checker.memory = []) (enough : automaton.size ≤ checker.limit) :
    ∃ without consuming, automaton.canReachWithoutConsuming start goal = .ok without ∧
      (checker.canReachConsuming automaton start goal).answer = .ok consuming ∧
      (without = true ∨ consuming = true → automaton.Reaches start goal) ∧
      (automaton.Reaches start goal → without = true ∨ consuming = true ∨
        automaton.PassesBoundary goal start ∧
          ∀ ⦃visited : List StateId⦄, automaton.Walk start visited goal →
            ∃ lineBreak later, automaton.charactersEntered visited = lineBreak :: later ∧
              automaton.mayBreakLine lineBreak = true ∧
              ∃ character ∈ later, automaton.mayBreakLine character = false) := by
  have between : automaton.AnswersBetween false start goal
      (automaton.canReachWithoutConsuming start goal) :=
    Automaton.answersBetween_walk linked Automaton.exploring_start
  obtain ⟨without, askedWithout, -, possible⟩ := between
  obtain ⟨consuming, askedConsuming, complete, sound⟩ :=
    Checker.answersConsuming_of_memory_nil goal linked empty enough
  refine ⟨without, consuming, askedWithout, askedConsuming, fun yes => ?_, fun reaches => ?_⟩
  · rcases yes with found | found
    · exact Automaton.reaches_of_possible (possible found)
    · exact (sound found).reaches linked
  cases without with
  | true => exact Or.inl rfl
  | false =>
    cases consuming with
    | true => exact Or.inr (Or.inl rfl)
    | false =>
      have reliable : checker.Reliable automaton goal :=
        Checker.reliable_of_memory_nil empty enough
      obtain ⟨final, covered⟩ := (Automaton.covering_start reliable askedConsuming).exists_end plain
        linked askedWithout
      have unconsumed := mt complete Bool.false_ne_true
      obtain ⟨rest, anyWalk⟩ := reaches.exists_walk
      refine Or.inr (Or.inr ⟨?_, fun visited walk => ?_⟩)
      · exact (anyWalk.missed plain linked covered.not_follows unconsumed).1
      · exact (walk.missed plain linked covered.not_follows unconsumed).2

/-- In `$\n` the final state is found although it comes after a boundary. -/
theorem boundaryBefore_reachable_with_or_without_consuming :
    ∃ pattern, boundaryBefore? = some pattern ∧ pattern.automaton.size = 5 ∧
      pattern.automaton.LinkedFrom pattern.start ∧ pattern.automaton.Plain ∧
      ∃ without consuming,
        pattern.automaton.canReachWithoutConsuming pattern.start pattern.final = .ok without ∧
        ((Checker.withLimit true 5).canReachConsuming pattern.automaton pattern.start
          pattern.final).answer = .ok consuming ∧
        (without = true ∨ consuming = true →
          pattern.automaton.Reaches pattern.start pattern.final) ∧
        (pattern.automaton.Reaches pattern.start pattern.final → without = true ∨
          consuming = true ∨ pattern.automaton.PassesBoundary pattern.final pattern.start ∧
            ∀ ⦃visited : List StateId⦄,
              pattern.automaton.Walk pattern.start visited pattern.final →
              ∃ lineBreak later,
                pattern.automaton.charactersEntered visited = lineBreak :: later ∧
                pattern.automaton.mayBreakLine lineBreak = true ∧
                ∃ character ∈ later, pattern.automaton.mayBreakLine character = false) := by
  have computed : (boundaryBefore?.map fun pattern =>
      (pattern.automaton.allLinked && pattern.automaton.ids.contains pattern.start,
        pattern.automaton.size, decide pattern.automaton.Plain)) = some (true, 5, true) := by
    decide +kernel
  obtain ⟨pattern, built, facts⟩ := Option.map_eq_some_iff.mp computed
  simp only [Prod.mk.injEq, decide_eq_true_iff] at facts
  obtain ⟨checked, size, plain⟩ := facts
  have linked := Automaton.linkedFrom_of_check checked
  exact ⟨pattern, built, size, linked, plain,
    reachable_with_or_without_consuming linked plain rfl (Nat.le_of_eq size)⟩

/-! ### A goal that is missed -/

/-- The calls that build `$\na`. -/
def breakBetweenCalls : List Call :=
  [.construct ⟨⟨0, 1⟩, .empty, .leaf (.boundary .lineEnd)⟩,
    .construct ⟨⟨1, 3⟩, .empty, .leaf (.character ⟨10, true⟩)⟩,
    .construct ⟨⟨3, 4⟩, .empty, .leaf (.character ⟨97, false⟩)⟩,
    .construct ⟨⟨0, 4⟩, .empty, .sequence [⟨0⟩, ⟨1⟩, ⟨2⟩]⟩]

/-- The pattern `$\na`. -/
def breakBetween? : Option Pattern :=
  finishedPattern? ⟨"$\\na", .java, []⟩ breakBetweenCalls ⟨3⟩ .empty

/-- In `$\na` the final state can be reached, but is found neither with nor without consumed
input. -/
theorem reachable_missed_by_both :
    ∃ pattern, breakBetween? = some pattern ∧ pattern.automaton.size = 6 ∧
      pattern.automaton.allLinked = true ∧ pattern.automaton.Plain ∧
      pattern.automaton.Reaches pattern.start pattern.final ∧
      pattern.automaton.canReachWithoutConsuming pattern.start pattern.final = .ok false ∧
      ((Checker.withLimit true 6).canReachConsuming pattern.automaton pattern.start
        pattern.final).answer = .ok false := by
  have computed : (breakBetween?.map fun pattern =>
      (pattern.automaton.allLinked, pattern.automaton.size, decide pattern.automaton.Plain,
        pattern.automaton.canReachWithoutConsuming pattern.start pattern.final,
        ((Checker.withLimit true 6).canReachConsuming pattern.automaton pattern.start
          pattern.final).answer)) = some (true, 6, true, .ok false, .ok false) := by
    decide +kernel
  have leads : (breakBetween?.map fun pattern =>
      decide (List.IsChain pattern.automaton.Moves
        [pattern.start, ⟨3⟩, ⟨0⟩, ⟨1⟩, ⟨2⟩, pattern.final])) = some true := by decide +kernel
  obtain ⟨pattern, built, facts⟩ := Option.map_eq_some_iff.mp computed
  simp only [Prod.mk.injEq, decide_eq_true_iff] at facts
  obtain ⟨allLinked, size, plain, without, consuming⟩ := facts
  rw [built, Option.map_some, Option.some.injEq, decide_eq_true_iff] at leads
  have reaches : pattern.automaton.Reaches pattern.start pattern.final :=
    List.relationReflTransGen_of_exists_isChain_cons _ leads rfl
  exact ⟨pattern, built, size, allLinked, plain, reaches, without, consuming⟩

end PatternGraph
