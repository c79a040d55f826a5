/-
This file says what becomes of the answers when one checker serves two automata. An entry is kept
under a pair of handles, and both automata have small indices for handles, so what was found out
about one of them is taken for granted of the other. The answer to a query is the one it would have
been without the queries about the other automaton if none of those for the same goal can come to a
handle that the queries about this one can come to. Otherwise it may be wrong, although every entry
is right for the automaton that it was made for.

The proof runs two checkers side by side. They need to agree only where the search can go, and it
cannot go past its goal. The one with less room left determines whether the memory of either becomes
full, and while it does not the searches take the same steps.
-/

import PatternGraph.Proofs.Reach.History

namespace PatternGraph

open Relation

/-- The states that a query can come to before its goal. -/
def Automaton.Ahead (automaton : Automaton) (query : Query) : StateId → Prop :=
  automaton.OpenPath (· ≠ query.goal) query.start

/-- The states that a query, or one for the same goal passed the first automaton before it, can come
to before the goal. -/
def Automaton.Foreseen (first : Automaton) (passed : List (Query ⊕ Query)) (query : Query)
    (id : StateId) : Prop :=
  ∃ own, (own = query ∨ .inl own ∈ passed) ∧ own.goal = query.goal ∧ first.Ahead own id

/-- No query for the same goal passed the second automaton comes to their handles before it. -/
def Automaton.Separate (first second : Automaton) (passed : List (Query ⊕ Query)) (query : Query) :
    Prop :=
  ∀ foreign, .inr foreign ∈ passed → foreign.goal = query.goal →
    ∀ id, first.Foreseen passed query id → second.Ahead foreign id → id = query.goal

namespace Checker

/-- The checker after some queries, those on the left passed the first automaton and those on the
right passed the second. -/
def afterMixed (checker : Checker) (first second : Automaton) : List (Query ⊕ Query) → Checker
  | [] => checker
  | .inl query :: rest => (checker.ask first query).checker.afterMixed first second rest
  | .inr query :: rest => (checker.ask second query).checker.afterMixed first second rest

section

variable {automaton : Automaton} {goal : StateId} {visits : StateId → Prop}

/-- A search for the goal does not leave a set of states. -/
def Confined (automaton : Automaton) (goal : StateId) (visits : StateId → Prop) : Prop :=
  ∀ ⦃id next : StateId⦄, visits id → id ≠ goal → automaton.Moves id next → visits next

/-- The frames of a search are in the set, and so are the successors that wait in them. -/
def Framed (goal : StateId) (visits : StateId → Prop) (frames : List Frame) : Prop :=
  ∀ frame ∈ frames, visits frame.state ∧ frame.state ≠ goal ∧
    ∀ next ∈ frame.remaining, visits next

theorem descend_fault {checker : Checker} {state successor : StateId} {remaining : List StateId}
    {outer : List Frame} (unanswered : (checker.consult successor goal).answer? = none)
    {fault : Fault} (failed : automaton.successors successor = .error fault) :
    descend automaton goal checker (⟨state, successor :: remaining⟩ :: outer) =
      ⟨.error fault, checker.mark successor goal, []⟩ := by
  rw [descend]
  dsimp only
  split
  · rename_i other
    cases unanswered.symm.trans other
  · rename_i other
    cases unanswered.symm.trans other
  · split
    · rename_i other
      cases failed.symm.trans other
      rfl
    · rename_i other
      cases failed.symm.trans other

theorem Framed.pass {state successor : StateId} {remaining : List StateId} {outer : List Frame}
    (framed : Framed goal visits (⟨state, successor :: remaining⟩ :: outer)) :
    Framed goal visits (⟨state, remaining⟩ :: outer) := by
  obtain ⟨⟨visited, apart, waiting⟩, others⟩ := List.forall_mem_cons.mp framed
  exact List.forall_mem_cons.mpr ⟨⟨visited, apart, (List.forall_mem_cons.mp waiting).2⟩, others⟩

theorem Framed.visits_successor {state successor : StateId} {remaining : List StateId}
    {outer : List Frame}
    (framed : Framed goal visits (⟨state, successor :: remaining⟩ :: outer)) :
    visits successor :=
  (framed _ List.mem_cons_self).2.2 successor List.mem_cons_self

theorem Framed.cons {state : StateId} {nexts : List StateId} {frames : List Frame}
    (framed : Framed goal visits frames) (confined : Confined automaton goal visits)
    (visited : visits state) (apart : state ≠ goal)
    (found : automaton.successors state = .ok nexts) :
    Framed goal visits (⟨state, nexts⟩ :: frames) :=
  List.forall_mem_cons.mpr
    ⟨⟨visited, apart, fun _ isNext => confined visited apart ⟨nexts, found, isNext⟩⟩, framed⟩

theorem framed_start {start : StateId} {nexts : List StateId}
    (confined : Confined automaton goal visits) (begins : visits start) (apart : start ≠ goal)
    (found : automaton.successors start = .ok nexts) : Framed goal visits [⟨start, nexts⟩] :=
  Framed.cons (fun _ member => absurd member List.not_mem_nil) confined begins apart found

theorem canReach_of_fault {checker : Checker} {start : StateId}
    (unanswered : (checker.consult start goal).answer? = none) {fault : Fault}
    (failed : automaton.successors start = .error fault) :
    checker.canReach automaton start goal = ⟨.error fault, checker.mark start goal, []⟩ := by
  simp only [canReach, unanswered, failed]

/-! ### What a search keeps -/

/-- A property of checkers that no step of a search for the goal in the set takes away. -/
structure Kept (goal : StateId) (visits : StateId → Prop) (motive : Checker → Prop) : Prop where
  consult {checker : Checker} {id : StateId} : motive checker →
    motive (checker.consult id goal).checker
  mark {checker : Checker} {id : StateId} : visits id → id ≠ goal → motive checker →
    motive (checker.mark id goal)
  settle {checker : Checker} {starts : List StateId} :
    (∀ start ∈ starts, visits start ∧ start ≠ goal) → motive checker →
    motive (checker.settle goal starts)

section

variable {motive : Checker → Prop} (kept : Kept goal visits motive)
  (confined : Confined automaton goal visits)

include kept confined

theorem Kept.descend {checker : Checker} {frames : List Frame}
    (framed : Framed goal visits frames) (holds : motive checker) :
    motive (descend automaton goal checker frames).checker := by
  induction checker, frames using descend.induct automaton goal with
  | case1 checker =>
    rw [Checker.descend]
    exact holds
  | case2 checker state outer inductionHypothesis =>
    rw [descend_exhausted]
    exact inductionHypothesis (List.forall_mem_cons.mp framed).2 holds
  | case3 checker state successor remaining outer consulted answered =>
    rw [descend_yes answered]
    refine kept.settle (fun start isStart => ?_) (kept.consult holds)
    have isFramed : start ∈ List.map Frame.state (⟨state, successor :: remaining⟩ :: outer) :=
      isStart
    obtain ⟨frame, inFrames, rfl⟩ := List.mem_map.mp isFramed
    exact (framed frame inFrames).imp_right And.left
  | case4 checker state successor remaining outer consulted answered inductionHypothesis =>
    rw [descend_no answered]
    exact inductionHypothesis framed.pass (kept.consult holds)
  | case5 checker state successor remaining outer consulted unanswered fault failed =>
    rw [descend_fault unanswered failed]
    exact kept.mark framed.visits_successor (knownAnswer?_of_unanswered unanswered).1 holds
  | case6 checker state successor remaining outer consulted unanswered nexts found
      inductionHypothesis =>
    rw [descend_enter unanswered found]
    have apart := (knownAnswer?_of_unanswered unanswered).1
    have visited := framed.visits_successor
    exact inductionHypothesis (framed.pass.cons confined visited apart found)
      (kept.mark visited apart holds)

theorem Kept.canReach {checker : Checker} {start : StateId} (begins : visits start)
    (holds : motive checker) : motive (checker.canReach automaton start goal).checker := by
  cases consulted : (checker.consult start goal).answer? with
  | some answer =>
    rw [canReach_of_consult consulted]
    exact kept.consult holds
  | none =>
    have apart := (knownAnswer?_of_unanswered consulted).1
    cases found : automaton.successors start with
    | error fault =>
      rw [canReach_of_fault consulted found]
      exact kept.mark begins apart holds
    | ok nexts =>
      rw [canReach_of_unanswered consulted found]
      exact kept.descend confined (framed_start confined begins apart found)
        (kept.mark begins apart holds)

end

theorem kept_length (length : Nat) : Kept goal visits (length ≤ ·.memory.length) where
  consult grown := by rwa [consult_memory]
  mark _ _ grown := Nat.le_succ_of_le grown
  settle _ grown := by rwa [memory_settle, List.length_map]

theorem kept_limit (limit : Nat) : Kept goal visits (·.limit = limit) where
  consult same := (consult_settings ..).1.trans same
  mark _ _ same := same
  settle _ same := same

/-- An entry stays as it is if it is for another goal, or for a state that the search does not come
to before its goal. -/
theorem kept_knownAnswer? {id other : StateId} (unentered : other = goal → visits id → id = goal)
    (known : Option Bool) : Kept goal visits (·.knownAnswer? id other = known) where
  consult same := (knownAnswer?_eq_of_memory (consult_memory ..) id other).trans same
  mark visited apart same := by
    rw [knownAnswer?_mark, if_neg, same]
    rintro ⟨rfl, rfl⟩
    exact apart (unentered rfl visited)
  settle settled same := by
    rw [knownAnswer?_settle, if_neg, same]
    rintro ⟨rfl, isStart⟩
    obtain ⟨visited, apart⟩ := settled id isStart
    exact apart (unentered rfl visited)

/-! ### Two searches side by side -/

/-- The second checker knows what the first one knows of the set, and has at least as much room. -/
structure Shadows (goal : StateId) (visits : StateId → Prop) (checker other : Checker) :
    Prop where
  known {id : StateId} : visits id →
    other.knownAnswer? id goal = checker.knownAnswer? id goal
  room : other.memory.length + checker.limit ≤ checker.memory.length + other.limit

theorem answer?_consult {checker : Checker} (unfilled : checker.memory.length < checker.limit)
    (start goal : StateId) : (checker.consult start goal).answer? =
      if start = goal then some true else checker.knownAnswer? start goal := by
  unfold consult
  split
  · rfl
  · cases checker.knownAnswer? start goal with
    | some answer => rfl
    | none =>
      have notFull : checker.isFull = false := decide_eq_false (Nat.not_le_of_lt unfilled)
      simp [notFull]

namespace Shadows

variable {checker other : Checker} (shadows : Shadows goal visits checker other)

include shadows

theorem answer? (unfilled : checker.memory.length < checker.limit) {id : StateId}
    (visited : visits id) :
    (other.consult id goal).answer? = (checker.consult id goal).answer? := by
  have unfilledToo : other.memory.length < other.limit := by
    have room := shadows.room
    omega
  rw [answer?_consult unfilled, answer?_consult unfilledToo, shadows.known visited]

theorem consult (asked : StateId) :
    Shadows goal visits (checker.consult asked goal).checker
      (other.consult asked goal).checker where
  known visited := by
    rw [knownAnswer?_eq_of_memory (consult_memory ..), shadows.known visited,
      knownAnswer?_eq_of_memory (consult_memory checker asked goal)]
  room := by
    rw [consult_memory, consult_memory, (consult_settings ..).1, (consult_settings ..).1]
    exact shadows.room

theorem mark (entered : StateId) :
    Shadows goal visits (checker.mark entered goal) (other.mark entered goal) where
  known visited := by rw [knownAnswer?_mark, knownAnswer?_mark, shadows.known visited]
  room := by
    have room := shadows.room
    simp only [Checker.mark, List.length_cons]
    omega

theorem settle (starts : List StateId) :
    Shadows goal visits (checker.settle goal starts) (other.settle goal starts) where
  known visited := by rw [knownAnswer?_settle, knownAnswer?_settle, shadows.known visited]
  room := by
    rw [memory_settle, memory_settle, List.length_map, List.length_map]
    exact shadows.room

end Shadows

/-- The searches take the same steps as long as the checker with less room does not run out of it.
The induction is on the steps of that one. -/
theorem shadows_descend {checker : Checker} {frames : List Frame}
    (confined : Confined automaton goal visits) (framed : Framed goal visits frames)
    (unfilled : (descend automaton goal checker frames).checker.memory.length < checker.limit)
    {other : Checker} (shadows : Shadows goal visits checker other) :
    (descend automaton goal other frames).answer = (descend automaton goal checker frames).answer ∧
      Shadows goal visits (descend automaton goal checker frames).checker
        (descend automaton goal other frames).checker := by
  have grown := (kept_length _).descend confined framed (Nat.le_refl checker.memory.length)
  have unfilledBefore := Nat.lt_of_le_of_lt grown unfilled
  clear grown
  revert other
  induction checker, frames using descend.induct automaton goal with
  | case1 checker =>
    intro other shadows
    rw [descend, descend]
    exact ⟨rfl, shadows⟩
  | case2 checker state outer inductionHypothesis =>
    intro other shadows
    rw [descend_exhausted] at unfilled
    rw [descend_exhausted, descend_exhausted]
    exact inductionHypothesis (List.forall_mem_cons.mp framed).2 unfilled unfilledBefore shadows
  | case3 checker state successor remaining outer consulted answered =>
    intro other shadows
    have answeredToo := (shadows.answer? unfilledBefore framed.visits_successor).trans answered
    rw [descend_yes answered, descend_yes answeredToo]
    exact ⟨rfl, (shadows.consult successor).settle _⟩
  | case4 checker state successor remaining outer consulted answered inductionHypothesis =>
    intro other shadows
    have answeredToo := (shadows.answer? unfilledBefore framed.visits_successor).trans answered
    rw [descend_no answered] at unfilled
    rw [descend_no answered, descend_no answeredToo]
    have limit := (consult_settings checker successor goal).1
    refine inductionHypothesis framed.pass ?_ ?_ (shadows.consult successor)
    · exact limit ▸ unfilled
    · rwa [consult_memory, limit]
  | case5 checker state successor remaining outer consulted unanswered fault failed =>
    intro other shadows
    have unansweredToo := (shadows.answer? unfilledBefore framed.visits_successor).trans unanswered
    rw [descend_fault unanswered failed, descend_fault unansweredToo failed]
    exact ⟨rfl, shadows.mark successor⟩
  | case6 checker state successor remaining outer consulted unanswered nexts found
      inductionHypothesis =>
    intro other shadows
    have visited := framed.visits_successor
    have unansweredToo := (shadows.answer? unfilledBefore visited).trans unanswered
    rw [descend_enter unanswered found] at unfilled
    rw [descend_enter unanswered found, descend_enter unansweredToo found]
    have apart := (knownAnswer?_of_unanswered unanswered).1
    have inside := framed.pass.cons confined visited apart found
    have grown := (kept_length _).descend confined inside
      (Nat.le_refl (checker.mark successor goal).memory.length)
    have unfilledInside := Nat.lt_of_le_of_lt grown unfilled
    exact inductionHypothesis inside unfilled unfilledInside (shadows.mark successor)

section

variable {checker other : Checker} {start : StateId} (confined : Confined automaton goal visits)
  (begins : visits start)

include confined begins

theorem shadows_canReach
    (unfilled : (checker.canReach automaton start goal).checker.memory.length < checker.limit)
    (shadows : Shadows goal visits checker other) :
    (other.canReach automaton start goal).answer =
        (checker.canReach automaton start goal).answer ∧
      Shadows goal visits (checker.canReach automaton start goal).checker
        (other.canReach automaton start goal).checker := by
  have grown := (kept_length checker.memory.length).canReach confined begins (Nat.le_refl _)
  have same := shadows.answer? (Nat.lt_of_le_of_lt grown unfilled) begins
  cases consulted : (checker.consult start goal).answer? with
  | some answer =>
    rw [canReach_of_consult consulted, canReach_of_consult (same.trans consulted)]
    exact ⟨rfl, shadows.consult start⟩
  | none =>
    have apart := (knownAnswer?_of_unanswered consulted).1
    cases found : automaton.successors start with
    | error fault =>
      rw [canReach_of_fault consulted found, canReach_of_fault (same.trans consulted) found]
      exact ⟨rfl, shadows.mark start⟩
    | ok nexts =>
      rw [canReach_of_unanswered consulted found] at unfilled
      rw [canReach_of_unanswered consulted found,
        canReach_of_unanswered (same.trans consulted) found]
      exact shadows_descend confined (framed_start confined begins apart found) unfilled
        (shadows.mark start)

/-- Whichever checker has less room, they answer alike and still know the same of the set if neither
runs out of it. -/
theorem canReach_congr
    (same : ∀ {id}, visits id → other.knownAnswer? id goal = checker.knownAnswer? id goal)
    (unfilled : (checker.canReach automaton start goal).checker.memory.length < checker.limit)
    (unfilledOther : (other.canReach automaton start goal).checker.memory.length < other.limit) :
    (other.canReach automaton start goal).answer =
        (checker.canReach automaton start goal).answer ∧
      ∀ {id}, visits id → (other.canReach automaton start goal).checker.knownAnswer? id goal =
        (checker.canReach automaton start goal).checker.knownAnswer? id goal := by
  rcases Nat.le_total (other.memory.length + checker.limit)
    (checker.memory.length + other.limit) with moreRoom | lessRoom
  · obtain ⟨answers, shadows⟩ := shadows_canReach confined begins unfilled ⟨same, moreRoom⟩
    exact ⟨answers, shadows.known⟩
  · obtain ⟨answers, shadows⟩ := shadows_canReach confined begins unfilledOther
      ⟨fun visited => (same visited).symm, lessRoom⟩
    exact ⟨answers.symm, fun visited => (shadows.known visited).symm⟩

end

end

/-! ### The answer of a checker that has room left -/

theorem Leads.of_known {first second : Checker} {automaton : Automaton} {goal id : StateId}
    (same : ∀ other, second.knownAnswer? other goal = first.knownAnswer? other goal)
    (leads : first.Leads automaton goal id) : second.Leads automaton goal id := by
  induction leads with
  | here => exact .here
  | known yes => exact .known ((same _).trans yes)
  | move unknown moves rest inductionHypothesis =>
    exact .move ((same _).trans unknown) moves inductionHypothesis

/-- As long as its memory is not full a checker answers as one with room for everything would, whose
answer says whether there is a path that meets no entry but perhaps a yes at its end. -/
theorem canReach_eq_ok_iff_leads_of_unfilled {automaton : Automaton} {checker : Checker}
    {start goal : StateId} (linked : automaton.LinkedFrom start)
    (unfilled : (checker.canReach automaton start goal).checker.memory.length < checker.limit) :
    ∃ answer, (checker.canReach automaton start goal).answer = .ok answer ∧
      (answer = true ↔ checker.Leads automaton goal start) := by
  let roomier : Checker :=
    { checker with limit := checker.limit + checker.memory.length + automaton.size }
  have confined : Confined automaton goal fun _ => True := fun _ _ _ _ _ => trivial
  have shadows : Shadows goal (fun _ => True) checker roomier :=
    ⟨fun _ => rfl, by simp only [roomier]; omega⟩
  have roomy : roomier.Roomy automaton goal := by
    have atMost : automaton.unexplored (fun _ => 1) (roomier.remembers goal) ≤ automaton.size := by
      rw [Automaton.unexplored, weightUnseen_one, ← Automaton.length_ids]
      exact List.length_filter_le _ _
    simp only [Roomy, roomier] at atMost ⊢
    omega
  obtain ⟨answer, answered, leads⟩ := canReach_eq_ok_iff_leads linked roomy
  have sameAnswer := (shadows_canReach confined trivial unfilled shadows).1
  refine ⟨answer, sameAnswer.symm.trans answered, leads.trans ⟨?_, ?_⟩⟩
  · exact Leads.of_known fun _ => rfl
  · exact Leads.of_known fun _ => rfl

/-! ### Queries about two automata -/

section

variable {first second : Automaton} {checker : Checker}

theorem confined_ahead (automaton : Automaton) (query : Query) :
    Confined automaton query.goal (automaton.Ahead query) :=
  fun _ _ ahead apart moves => ahead.tail ⟨apart, moves⟩

theorem kept_ask {motive : Checker → Prop} {query : Query} {automaton : Automaton}
    (kept : Kept query.goal (automaton.Ahead query) motive) (holds : motive checker) :
    motive (checker.ask automaton query).checker :=
  kept.canReach (confined_ahead automaton query) .refl holds

theorem limit_ask (automaton : Automaton) (query : Query) :
    (checker.ask automaton query).checker.limit = checker.limit :=
  kept_ask (kept_limit _) rfl

theorem length_le_ask (automaton : Automaton) (query : Query) :
    checker.memory.length ≤ (checker.ask automaton query).checker.memory.length :=
  kept_ask (kept_length _) (Nat.le_refl _)

theorem length_le_afterMixed (passed : List (Query ⊕ Query)) :
    checker.memory.length ≤ (checker.afterMixed first second passed).memory.length := by
  induction passed generalizing checker with
  | nil => exact Nat.le_refl _
  | cons asked rest inductionHypothesis =>
    cases asked <;> exact Nat.le_trans (length_le_ask _ _) inductionHypothesis

theorem limit_afterMixed (passed : List (Query ⊕ Query)) :
    (checker.afterMixed first second passed).limit = checker.limit := by
  induction passed generalizing checker with
  | nil => rfl
  | cons asked rest inductionHypothesis =>
    cases asked <;> exact inductionHypothesis.trans (limit_ask _ _)

/-- Beside the queries about the second automaton the checker still knows what it would know without
them of a set that those about the first do not leave and the others do not enter. -/
theorem known_afterMixed {goal : StateId} {visits : StateId → Prop} {other : Checker}
    {passed : List (Query ⊕ Query)} (confined : Confined first goal visits)
    (inside : ∀ own, .inl own ∈ passed → own.goal = goal → visits own.start)
    (outside : ∀ foreign, .inr foreign ∈ passed → foreign.goal = goal →
      ∀ id, visits id → second.Ahead foreign id → id = goal)
    (same : ∀ {id}, visits id → other.knownAnswer? id goal = checker.knownAnswer? id goal)
    (unfilled : (checker.afterMixed first second passed).memory.length < checker.limit)
    (unfilledOther :
      (other.afterMixed first second (passed.filter Sum.isLeft)).memory.length < other.limit)
    {id : StateId} (visited : visits id) :
    (other.afterMixed first second (passed.filter Sum.isLeft)).knownAnswer? id goal =
      (checker.afterMixed first second passed).knownAnswer? id goal := by
  induction passed generalizing checker other with
  | nil => exact same visited
  | cons asked rest inductionHypothesis =>
    have insideRest (own : Query) (member : .inl own ∈ rest) :=
      inside own (List.mem_cons_of_mem _ member)
    have outsideRest (foreign : Query) (member : .inr foreign ∈ rest) :=
      outside foreign (List.mem_cons_of_mem _ member)
    cases asked with
    | inl own =>
      rw [List.filter_cons_of_pos rfl] at unfilledOther ⊢
      refine inductionHypothesis insideRest outsideRest (fun {id} visited => ?_)
        (Nat.lt_of_lt_of_eq unfilled (limit_ask first own).symm)
        (Nat.lt_of_lt_of_eq unfilledOther (limit_ask first own).symm)
      by_cases sameGoal : own.goal = goal
      · subst sameGoal
        have begins := inside own List.mem_cons_self rfl
        have unfilledHere := Nat.lt_of_le_of_lt (length_le_afterMixed rest) unfilled
        have unfilledThere :=
          Nat.lt_of_le_of_lt (length_le_afterMixed (rest.filter Sum.isLeft)) unfilledOther
        exact (canReach_congr confined begins same unfilledHere unfilledThere).2 visited
      · have unentered (sameToo : goal = own.goal) : first.Ahead own id → id = own.goal :=
          absurd sameToo.symm sameGoal
        rw [kept_ask (kept_knownAnswer? unentered _) (same visited)]
        exact (kept_ask (kept_knownAnswer? unentered _) rfl).symm
    | inr foreign =>
      rw [List.filter_cons_of_neg Bool.false_ne_true] at unfilledOther ⊢
      refine inductionHypothesis insideRest outsideRest (fun {id} visited => ?_)
        (Nat.lt_of_lt_of_eq unfilled (limit_ask second foreign).symm) unfilledOther
      rw [same visited]
      refine (kept_ask (kept_knownAnswer? (fun sameGoal ahead => ?_) _) rfl).symm
      exact sameGoal ▸ outside foreign List.mem_cons_self sameGoal.symm id visited ahead

theorem confined_foreseen (passed : List (Query ⊕ Query)) (query : Query) :
    Confined first query.goal (first.Foreseen passed query) := by
  rintro id next ⟨own, earlier, sameGoal, ahead⟩ apart moves
  exact ⟨own, earlier, sameGoal, ahead.tail ⟨sameGoal ▸ apart, moves⟩⟩

end

end Checker

/-- As long as the memory is not full, neither with the queries about the second automaton nor
without them, a query about the first is answered with yes exactly if a path leads to the goal past
what is remembered, whichever automaton that was found out about. If the queries about the second
come to none of the handles in question, the answer is the one without them. -/
theorem answer_beside_queries {first second : Automaton} {checker : Checker}
    {passed : List (Query ⊕ Query)} {query : Query} (linked : first.LinkedFrom query.start)
    (unfilled : ((checker.afterMixed first second passed).ask first query).checker.memory.length <
      checker.limit)
    (unfilledAlone : ((checker.afterMixed first second (passed.filter Sum.isLeft)).ask first
      query).checker.memory.length < checker.limit) :
    let shared := checker.afterMixed first second passed
    let alone := checker.afterMixed first second (passed.filter Sum.isLeft)
    ∃ answer right, (shared.ask first query).answer = .ok answer ∧
      (alone.ask first query).answer = .ok right ∧
      (answer = true ↔ shared.Leads first query.goal query.start) ∧
      (right = true ↔ alone.Leads first query.goal query.start) ∧
      (first.Separate second passed query → answer = right) := by
  intro shared alone
  have limit : shared.limit = checker.limit := Checker.limit_afterMixed passed
  have limitAlone : alone.limit = checker.limit := Checker.limit_afterMixed _
  have room : (shared.ask first query).checker.memory.length < shared.limit := limit ▸ unfilled
  have roomAlone : (alone.ask first query).checker.memory.length < alone.limit :=
    limitAlone ▸ unfilledAlone
  obtain ⟨answer, answered, leads⟩ := Checker.canReach_eq_ok_iff_leads_of_unfilled linked room
  obtain ⟨right, answeredAlone, leadsAlone⟩ :=
    Checker.canReach_eq_ok_iff_leads_of_unfilled linked roomAlone
  refine ⟨answer, right, answered, answeredAlone, leads, leadsAlone, fun separate => ?_⟩
  have confined : Checker.Confined first query.goal (first.Foreseen passed query) :=
    Checker.confined_foreseen passed query
  have begins : first.Foreseen passed query query.start := ⟨query, Or.inl rfl, rfl, .refl⟩
  have inside (own : Query) (member : .inl own ∈ passed) (sameGoal : own.goal = query.goal) :
      first.Foreseen passed query own.start := ⟨own, Or.inr member, sameGoal, .refl⟩
  have known {id : StateId} (foreseen : first.Foreseen passed query id) :=
    Checker.known_afterMixed confined inside separate (fun _ => rfl)
      (Nat.lt_of_le_of_lt (Checker.length_le_ask first query) unfilled)
      (Nat.lt_of_le_of_lt (Checker.length_le_ask first query) unfilledAlone) foreseen
  have answers := (Checker.canReach_congr confined begins known room roomAlone).1
  exact Except.ok.inj (answered.symm.trans (answers.symm.trans answeredAlone))

/-- A query whose start leads to the goal alone comes to nothing else. -/
theorem Automaton.Ahead.eq_start_or_eq_goal {automaton : Automaton} {query : Query} {id : StateId}
    (ahead : automaton.Ahead query id)
    (direct : automaton.successors query.start = .ok [query.goal]) :
    id = query.start ∨ id = query.goal := by
  induction ahead with
  | refl => exact Or.inl rfl
  | tail _ step inductionHypothesis =>
    obtain ⟨apart, nexts, found, isNext⟩ := step
    obtain rfl := inductionHypothesis.resolve_right apart
    cases direct.symm.trans found
    exact Or.inr (List.mem_singleton.mp isNext)

/-- The pattern `a`. -/
def letterPattern? : Option Pattern :=
  finishedPattern? ⟨"a", .java, []⟩
    [.construct ⟨⟨0, 1⟩, .empty, .leaf (.character ⟨97, false⟩)⟩] ⟨0⟩ .empty

theorem exists_letterPattern : ∃ pattern, letterPattern? = some pattern ∧
    pattern.automaton.size = 3 ∧ pattern.automaton.allLinked := by
  have computed : (letterPattern?.map fun pattern =>
      (pattern.automaton.size, pattern.automaton.allLinked)) = some (3, true) := by decide +kernel
  obtain ⟨pattern, built, facts⟩ := Option.map_eq_some_iff.mp computed
  exact ⟨pattern, built, congrArg Prod.fst facts, congrArg Prod.snd facts⟩

/-- The handles in question are those of the start state and the repetition of `a*` and those of the
character and the final state of `a`. The one they have in common is the goal. -/
theorem star_answer_beside_queries :
    ∃ star letter, starPattern? = some star ∧ letterPattern? = some letter ∧
      let passed : List (Query ⊕ Query) := [.inl ⟨⟨1⟩, ⟨2⟩⟩, .inr ⟨⟨0⟩, ⟨1⟩⟩]
      let unused := Checker.withLimit false Checker.defaultLimit
      let shared := unused.afterMixed star.automaton letter.automaton passed
      let alone := unused.afterMixed star.automaton letter.automaton (passed.filter Sum.isLeft)
      ∃ answer right, (shared.ask star.automaton ⟨⟨3⟩, ⟨1⟩⟩).answer = .ok answer ∧
        (alone.ask star.automaton ⟨⟨3⟩, ⟨1⟩⟩).answer = .ok right ∧ answer = right := by
  obtain ⟨star, builtStar, size, linked⟩ := exists_starPattern
  obtain ⟨letter, builtLetter, -, -⟩ := exists_letterPattern
  refine ⟨star, letter, builtStar, builtLetter, ?_⟩
  intro passed unused shared alone
  have computed : (starPattern?.bind fun star => letterPattern?.map fun letter =>
      let shared := unused.afterMixed star.automaton letter.automaton passed
      let alone := unused.afterMixed star.automaton letter.automaton (passed.filter Sum.isLeft)
      (star.automaton.successors ⟨3⟩, letter.automaton.successors ⟨0⟩,
        (shared.ask star.automaton ⟨⟨3⟩, ⟨1⟩⟩).checker.memory.length,
        (alone.ask star.automaton ⟨⟨3⟩, ⟨1⟩⟩).checker.memory.length)) =
      some (.ok [⟨1⟩], .ok [⟨1⟩], 5, 4) := by
    decide +kernel
  rw [builtStar, builtLetter] at computed
  obtain ⟨direct, directLetter, length, lengthAlone⟩ := by
    simpa only [Option.bind_some, Option.map_some, Option.some.injEq, Prod.mk.injEq] using computed
  have askable : star.automaton.Askable ⟨⟨3⟩, ⟨1⟩⟩ :=
    askable_of_allLinked linked (by rw [size]; decide)
  obtain ⟨answer, right, answered, answeredAlone, -, -, same⟩ :=
    @answer_beside_queries star.automaton letter.automaton unused passed ⟨⟨3⟩, ⟨1⟩⟩ askable.1
      (length.trans_lt (by decide)) (lengthAlone.trans_lt (by decide))
  refine ⟨answer, right, answered, answeredAlone, same ?_⟩
  rintro foreign member - id ⟨own, earlier, sameGoal, ahead⟩ aheadForeign
  obtain rfl : foreign = ⟨⟨0⟩, ⟨1⟩⟩ := by simpa [passed] using member
  obtain rfl : own = ⟨⟨3⟩, ⟨1⟩⟩ := by
    rcases earlier with isQuery | before
    · exact isQuery
    · obtain rfl : own = ⟨⟨1⟩, ⟨2⟩⟩ := by simpa [passed] using before
      cases sameGoal
  rcases ahead.eq_start_or_eq_goal direct with rfl | isGoal
  · exact (aheadForeign.eq_start_or_eq_goal directLetter).resolve_left (by decide)
  · exact isGoal

/-- In `a` the state 2 is the start state, to which no character leads, and in `a*` it is the final
state. What is found out about `a` makes the checker deny that `a*` can come to an end. -/
theorem entry_answers_for_other_automaton :
    ∃ star letter, starPattern? = some star ∧ letterPattern? = some letter ∧
      star.automaton.allLinked ∧ letter.automaton.allLinked ∧
      let passed : List (Query ⊕ Query) := [.inr ⟨⟨0⟩, ⟨2⟩⟩]
      let unused := Checker.withLimit false Checker.defaultLimit
      let shared := unused.afterMixed star.automaton letter.automaton passed
      let alone := unused.afterMixed star.automaton letter.automaton (passed.filter Sum.isLeft)
      (shared.ask star.automaton ⟨⟨0⟩, ⟨2⟩⟩).answer = .ok false ∧
        (alone.ask star.automaton ⟨⟨0⟩, ⟨2⟩⟩).answer = .ok true ∧
        (shared.ask star.automaton ⟨⟨0⟩, ⟨2⟩⟩).checker.memory.length < Checker.defaultLimit ∧
        (alone.ask star.automaton ⟨⟨0⟩, ⟨2⟩⟩).checker.memory.length < Checker.defaultLimit := by
  obtain ⟨star, builtStar, -, linkedStar⟩ := exists_starPattern
  obtain ⟨letter, builtLetter, -, linkedLetter⟩ := exists_letterPattern
  refine ⟨star, letter, builtStar, builtLetter, linkedStar, linkedLetter, ?_⟩
  intro passed unused shared alone
  have computed : (starPattern?.bind fun star => letterPattern?.map fun letter =>
      let shared := unused.afterMixed star.automaton letter.automaton passed
      let alone := unused.afterMixed star.automaton letter.automaton (passed.filter Sum.isLeft)
      let asked := shared.ask star.automaton ⟨⟨0⟩, ⟨2⟩⟩
      let askedAlone := alone.ask star.automaton ⟨⟨0⟩, ⟨2⟩⟩
      (asked.answer, askedAlone.answer, asked.checker.memory.length,
        askedAlone.checker.memory.length)) = some (.ok false, .ok true, 2, 3) := by
    decide +kernel
  rw [builtStar, builtLetter] at computed
  obtain ⟨no, yes, length, lengthAlone⟩ := by
    simpa only [Option.bind_some, Option.map_some, Option.some.injEq, Prod.mk.injEq] using computed
  exact ⟨no, yes, length.trans_lt (by decide), lengthAlone.trans_lt (by decide)⟩

end PatternGraph
