/-
This file follows a checker through a run of queries, which may be about different automata, from an
empty memory on and without clearing it. The memory never outgrows its limit, no answer that was
given is ever taken back, and the full memory is reported once at most.

Entries are made before a search goes on and changed when it succeeds, so the first and the last of
these are said of every moment of the run, with the records up to that moment. The moments follow
the recursion of the searches: a pair is entered, a successor is answered from the memory, and after
a success the states of the frames are settled one after the other. `Since` is what holds between
two moments, and it composes.

An answer may come from an entry or from the full memory. An entry that a completed query has left
is never changed, because a later search settles only pairs that it has entered itself. And once the
memory is full nothing is searched any more, so what was unknown then stays unknown.
-/

import PatternGraph.Proofs.Reach.Capacity
import PatternGraph.Proofs.Reach.Sharing

namespace PatternGraph

/-- A question put to a checker about an automaton. -/
inductive Demand
  | reach (automaton : Automaton) (query : Query)
  | reachConsuming (automaton : Automaton) (query : Query)

namespace Checker

/-! ### The moments of a search -/

section

variable (automaton : Automaton) (goal : StateId)

/-- The moments of a search that goes on with the given checker and frames: what was recorded so far
and the checker as it is then. -/
inductive Moment : Checker → List Frame → List LogRecord → Checker → Prop
  | now (checker : Checker) (frames : List Frame) : Moment checker frames [] checker
  | leave {checker moment : Checker} {state : StateId} {outer : List Frame}
    {records : List LogRecord} (later : Moment checker outer records moment) :
    Moment checker (⟨state, []⟩ :: outer) records moment
  /-- The states of the frames are settled from the innermost to the outermost. -/
  | settle {checker : Checker} {state successor : StateId} {remaining : List StateId}
    {outer : List Frame} (answered : (checker.consult successor goal).answer? = some true)
    {settled : List StateId} (first : settled <+: state :: outer.map Frame.state) :
    Moment checker (⟨state, successor :: remaining⟩ :: outer)
      (checker.consult successor goal).records
      ((checker.consult successor goal).checker.settle goal settled)
  | skip {checker moment : Checker} {state successor : StateId} {remaining : List StateId}
    {outer : List Frame} {records : List LogRecord}
    (answered : (checker.consult successor goal).answer? = some false)
    (later : Moment (checker.consult successor goal).checker (⟨state, remaining⟩ :: outer) records
      moment) :
    Moment checker (⟨state, successor :: remaining⟩ :: outer)
      ((checker.consult successor goal).records ++ records) moment
  | enter {checker : Checker} {state successor : StateId} {remaining : List StateId}
    {outer : List Frame} (unanswered : (checker.consult successor goal).answer? = none) :
    Moment checker (⟨state, successor :: remaining⟩ :: outer) [] (checker.mark successor goal)
  | expand {checker moment : Checker} {state successor : StateId} {remaining nexts : List StateId}
    {outer : List Frame} {records : List LogRecord}
    (unanswered : (checker.consult successor goal).answer? = none)
    (found : automaton.successors successor = .ok nexts)
    (later : Moment (checker.mark successor goal)
      (⟨successor, nexts⟩ :: ⟨state, remaining⟩ :: outer) records moment) :
    Moment checker (⟨state, successor :: remaining⟩ :: outer) records moment

/-- The moments of a query. -/
inductive QueryMoment (start : StateId) (checker : Checker) : List LogRecord → Checker → Prop
  | now : QueryMoment start checker [] checker
  | consult : QueryMoment start checker (checker.consult start goal).records
      (checker.consult start goal).checker
  | enter (unanswered : (checker.consult start goal).answer? = none) :
    QueryMoment start checker [] (checker.mark start goal)
  | expand {nexts : List StateId} {records : List LogRecord} {moment : Checker}
    (unanswered : (checker.consult start goal).answer? = none)
    (found : automaton.successors start = .ok nexts)
    (later : Moment automaton goal (checker.mark start goal) [⟨start, nexts⟩] records moment) :
    QueryMoment start checker records moment

/-- The moments of a walk for consumed input. -/
inductive WalkMoment : Checker → List StateId → List Visit → List LogRecord → Checker → Prop
  | now (checker : Checker) (visited : List StateId) (visits : List Visit) :
    WalkMoment checker visited visits [] checker
  | blocked {checker moment : Checker} {visited : List StateId} {visit : Visit}
    {pending : List Visit} {records : List LogRecord}
    (blocked : automaton.crossing visited visit = .ok .blocked)
    (later : WalkMoment checker visited pending records moment) :
    WalkMoment checker visited (visit :: pending) records moment
  | ask {checker moment : Checker} {visited : List StateId} {visit : Visit}
    {pending : List Visit} {records : List LogRecord}
    (consumes : automaton.crossing visited visit = .ok .consuming)
    (asking : QueryMoment automaton goal visit.state checker records moment) :
    WalkMoment checker visited (visit :: pending) records moment
  | refused {checker moment : Checker} {visited : List StateId} {visit : Visit}
    {pending : List Visit} {records : List LogRecord}
    (consumes : automaton.crossing visited visit = .ok .consuming)
    (refused : (checker.canReach automaton visit.state goal).answer = .ok false)
    (later : WalkMoment (checker.canReach automaton visit.state goal).checker visited pending
      records moment) :
    WalkMoment checker visited (visit :: pending)
      ((checker.canReach automaton visit.state goal).records ++ records) moment
  | stop {checker moment : Checker} {visited : List StateId} {visit : Visit}
    {pending : List Visit} {records : List LogRecord}
    (free : automaton.crossing visited visit = .ok .free)
    (stops : visit.state = goal ∨ visit.state ∈ visited)
    (later : WalkMoment checker visited pending records moment) :
    WalkMoment checker visited (visit :: pending) records moment
  | enter {checker moment : Checker} {visited : List StateId} {visit : Visit}
    {pending visits : List Visit} {records : List LogRecord}
    (free : automaton.crossing visited visit = .ok .free)
    (other : visit.state ≠ goal) (unseen : visit.state ∉ visited)
    (found : automaton.visitsPast visit.state = .ok visits)
    (later : WalkMoment checker (visit.state :: visited) (visits ++ pending) records moment) :
    WalkMoment checker visited (visit :: pending) records moment

end

section

variable {automaton : Automaton} {goal start : StateId}

/-! ### The last moment -/

/-- The end of a search is one of its moments. -/
theorem moment_descend (checker : Checker) (frames : List Frame) :
    Moment automaton goal checker frames (descend automaton goal checker frames).records
      (descend automaton goal checker frames).checker := by
  induction checker, frames using descend.induct automaton goal with
  | case1 checker =>
    rw [descend]
    exact .now checker []
  | case2 checker state outer inductionHypothesis =>
    rw [descend_exhausted]
    exact .leave inductionHypothesis
  | case3 checker state successor remaining outer consulted answered =>
    rw [descend_yes answered]
    exact .settle answered (List.prefix_refl _)
  | case4 checker state successor remaining outer consulted answered inductionHypothesis =>
    rw [descend_no answered]
    exact .skip answered inductionHypothesis
  | case5 checker state successor remaining outer consulted unanswered fault failed =>
    rw [descend_fault unanswered failed]
    exact .enter unanswered
  | case6 checker state successor remaining outer consulted unanswered nexts found
      inductionHypothesis =>
    rw [descend_enter unanswered found]
    exact .expand unanswered found inductionHypothesis

/-- The end of a query is one of its moments. -/
theorem queryMoment_canReach (checker : Checker) :
    QueryMoment automaton goal start checker (checker.canReach automaton start goal).records
      (checker.canReach automaton start goal).checker := by
  cases consulted : (checker.consult start goal).answer? with
  | some answer =>
    rw [canReach_of_consult consulted]
    exact .consult
  | none =>
    cases found : automaton.successors start with
    | error fault =>
      rw [canReach_of_fault consulted found]
      exact .enter consulted
    | ok nexts =>
      rw [canReach_of_unanswered consulted found]
      exact .expand consulted found (moment_descend _ _)

/-- The end of a walk is one of its moments. -/
theorem walkMoment_walkConsuming (checker : Checker) (visited : List StateId)
    (visits : List Visit) :
    WalkMoment automaton goal checker visited visits
      (walkConsuming automaton goal checker visited visits).records
      (walkConsuming automaton goal checker visited visits).checker := by
  induction checker, visited, visits using walkConsuming.induct automaton goal with
  | case1 checker visited =>
    rw [walkConsuming]
    exact .now checker visited []
  | case2 checker visited visit pending fault refused =>
    simp only [walkConsuming, refused]
    exact .now checker visited _
  | case3 checker visited visit pending blocked inductionHypothesis =>
    rw [walkConsuming_blocked blocked]
    exact .blocked blocked inductionHypothesis
  | case4 checker visited visit pending consumes reached no inductionHypothesis =>
    rw [walkConsuming_refused consumes no]
    exact .refused consumes no inductionHypothesis
  | case5 checker visited visit pending consumes reached other =>
    rw [walkConsuming_answered consumes other]
    exact .ask consumes (queryMoment_canReach checker)
  | case6 checker visited visit pending free stops inductionHypothesis =>
    have stopsHere : visit.state = goal ∨ visit.state ∈ visited := by simpa using stops
    rw [walkConsuming_stops free stopsHere]
    exact .stop free stopsHere inductionHypothesis
  | case7 checker visited visit pending free goesOn fault failed =>
    rw [walkConsuming]
    simp only [free, dif_neg goesOn]
    split
    · exact .now checker visited _
    · rename_i found
      cases failed.symm.trans found
  | case8 checker visited visit pending free goesOn nexts found inductionHypothesis =>
    obtain ⟨other, unseen⟩ : visit.state ≠ goal ∧ visit.state ∉ visited := by simpa using goesOn
    rw [walkConsuming_enters free other unseen found]
    exact .enter free other unseen found inductionHypothesis

/-! ### From one moment to another -/

/-- What holds of a checker at a later moment, when the records have been made. -/
structure Since (before : Checker) (records : List LogRecord) (after : Checker) : Prop where
  limit : after.limit = before.limit
  defaultAnswer : after.defaultAnswer = before.defaultAnswer
  bounded : before.memory.length ≤ before.limit → after.memory.length ≤ before.limit
  /-- The full memory is reported if and only if it was not reported before. -/
  reported : records = [] ∧ after.warned = before.warned ∨
    before.warned = false ∧ records = [before.fullRecord] ∧ after.warned = true

namespace Since

theorem refl (checker : Checker) : checker.Since [] checker :=
  ⟨rfl, rfl, id, Or.inl ⟨rfl, rfl⟩⟩

theorem trans {before middle after : Checker} {first second : List LogRecord}
    (since : before.Since first middle) (then_since : middle.Since second after) :
    before.Since (first ++ second) after where
  limit := then_since.limit.trans since.limit
  defaultAnswer := then_since.defaultAnswer.trans since.defaultAnswer
  bounded fits := by
    have fitsThen := since.bounded fits
    rw [← since.limit] at fitsThen ⊢
    exact then_since.bounded fitsThen
  reported := by
    have sameRecord : middle.fullRecord = before.fullRecord := by
      rw [fullRecord, fullRecord, since.limit, since.defaultAnswer]
    rcases since.reported with ⟨rfl, same⟩ | ⟨unwarned, rfl, warned⟩
    · rw [← same, ← sameRecord, List.nil_append]
      exact then_since.reported
    · rcases then_since.reported with ⟨rfl, same⟩ | ⟨unwarnedThen, -⟩
      · exact Or.inr ⟨unwarned, rfl, same.trans warned⟩
      · cases warned.symm.trans unwarnedThen

end Since

theorem since_consult (checker : Checker) (start goal : StateId) :
    checker.Since (checker.consult start goal).records (checker.consult start goal).checker := by
  obtain ⟨limit, defaultAnswer⟩ := consult_settings checker start goal
  refine ⟨limit, defaultAnswer, fun fits => ?_, ?_⟩
  · rwa [consult_memory]
  · unfold consult
    split
    · exact Or.inl ⟨rfl, rfl⟩
    · split
      · exact Or.inl ⟨rfl, rfl⟩
      · split
        · cases warned : checker.warned with
          | true => exact Or.inl ⟨rfl, rfl⟩
          | false => exact Or.inr ⟨rfl, rfl, rfl⟩
        · exact Or.inl ⟨rfl, rfl⟩

/-- A pair is searched only while there is room. -/
theorem isFull_of_unanswered {checker : Checker}
    (unanswered : (checker.consult start goal).answer? = none) : checker.isFull = false := by
  unfold consult at unanswered
  split at unanswered
  · cases unanswered
  · split at unanswered
    · cases unanswered
    · split at unanswered
      · cases unanswered
      · rename_i unfilled
        exact Bool.eq_false_iff.mpr unfilled

theorem since_mark {checker : Checker}
    (unanswered : (checker.consult start goal).answer? = none) :
    checker.Since [] (checker.mark start goal) where
  limit := rfl
  defaultAnswer := rfl
  bounded _ := by
    have unfilled := isFull_of_unanswered unanswered
    rw [isFull, decide_eq_false_iff_not] at unfilled
    exact Nat.lt_of_not_le unfilled
  reported := Or.inl ⟨rfl, rfl⟩

theorem since_settle (checker : Checker) (goal : StateId) (starts : List StateId) :
    checker.Since [] (checker.settle goal starts) where
  limit := rfl
  defaultAnswer := rfl
  bounded fits := by rwa [memory_settle, List.length_map]
  reported := Or.inl ⟨rfl, rfl⟩

variable {checker moment : Checker} {records : List LogRecord}

theorem Moment.since {frames : List Frame}
    (during : Moment automaton goal checker frames records moment) :
    checker.Since records moment := by
  induction during with
  | now checker frames => exact .refl checker
  | leave _ inductionHypothesis => exact inductionHypothesis
  | @settle checker state successor remaining outer answered settled first =>
    have settles := since_settle (checker.consult successor goal).checker goal settled
    have whole := (since_consult checker successor goal).trans settles
    rwa [List.append_nil] at whole
  | skip answered _ inductionHypothesis => exact (since_consult ..).trans inductionHypothesis
  | enter unanswered => exact since_mark unanswered
  | expand unanswered found _ inductionHypothesis =>
    exact (since_mark unanswered).trans inductionHypothesis

theorem QueryMoment.since (during : QueryMoment automaton goal start checker records moment) :
    checker.Since records moment := by
  cases during with
  | now => exact .refl checker
  | consult => exact since_consult checker start goal
  | enter unanswered => exact since_mark unanswered
  | expand unanswered found later => exact (since_mark unanswered).trans later.since

theorem WalkMoment.since {visited : List StateId} {visits : List Visit}
    (during : WalkMoment automaton goal checker visited visits records moment) :
    checker.Since records moment := by
  induction during with
  | now checker visited visits => exact .refl checker
  | ask consumes asking => exact asking.since
  | refused consumes refused _ inductionHypothesis =>
    exact (queryMoment_canReach _).since.trans inductionHypothesis
  | blocked _ _ inductionHypothesis => exact inductionHypothesis
  | stop _ _ _ inductionHypothesis => exact inductionHypothesis
  | enter _ _ _ _ _ inductionHypothesis => exact inductionHypothesis

end

/-! ### Answers that stand -/

/-- The checker has an answer to the query without a search. -/
def Answers (checker : Checker) (query : Query) (answer : Bool) : Prop :=
  (checker.consult query.start query.goal).answer? = some answer

section

variable {automaton : Automaton} {checker : Checker} {query : Query} {answer : Bool}

/-- The answer comes from an entry, or from the full memory. -/
theorem answers_iff_of_ne (apart : query.start ≠ query.goal) :
    checker.Answers query answer ↔
      checker.knownAnswer? query.start query.goal = some answer ∨
        checker.knownAnswer? query.start query.goal = none ∧ checker.isFull = true ∧
          checker.defaultAnswer = answer := by
  rw [Answers, consult, if_neg apart]
  cases checker.knownAnswer? query.start query.goal with
  | some known => simp
  | none => cases checker.isFull <;> simp

/-- Only the memory and the settings matter to an answer. -/
theorem Answers.congr {other : Checker} (answers : checker.Answers query answer)
    (memory : other.memory = checker.memory) (limit : other.limit = checker.limit)
    (defaultAnswer : other.defaultAnswer = checker.defaultAnswer) :
    other.Answers query answer := by
  by_cases apart : query.start = query.goal
  · rw [Answers, consult, if_pos apart] at answers ⊢
    exact answers
  · rw [answers_iff_of_ne apart, knownAnswer?_eq_of_memory memory, isFull, memory, limit,
      defaultAnswer]
    exact (answers_iff_of_ne apart).mp answers

theorem Answers.consult (answers : checker.Answers query answer) (start goal : StateId) :
    (checker.consult start goal).checker.Answers query answer := by
  obtain ⟨limit, defaultAnswer⟩ := consult_settings checker start goal
  exact answers.congr (consult_memory checker start goal) limit defaultAnswer

/-- No query takes an answer back. -/
theorem Answers.canReach (answers : checker.Answers query answer) {start goal : StateId}
    (linked : automaton.LinkedFrom start) :
    (checker.canReach automaton start goal).checker.Answers query answer := by
  cases consulted : (checker.consult start goal).answer? with
  | some other =>
    rw [canReach_of_consult consulted]
    exact answers.consult start goal
  | none =>
    by_cases apart : query.start = query.goal
    · rw [Answers, Checker.consult, if_pos apart] at answers ⊢
      exact answers
    -- There is room, so the answer is an entry, and it is older than the search.
    · have known : checker.knownAnswer? query.start query.goal = some answer := by
        refine ((answers_iff_of_ne apart).mp answers).resolve_right fun byDefault => ?_
        cases (isFull_of_unanswered consulted).symm.trans byDefault.2.1
      have concluded : Concluded automaton goal checker checker []
          (checker.canReach automaton start goal) := concluded_canReach linked
      refine (answers_iff_of_ne apart).mpr (Or.inl ?_)
      by_cases same : query.goal = goal
      · subst same
        exact concluded.kept known
      · exact (concluded.others same).trans known

/-- A completed query leaves its answer behind. -/
theorem exists_answers_ask (checker : Checker) (linked : automaton.LinkedFrom query.start) :
    ∃ answer, (checker.ask automaton query).answer = .ok answer ∧
      (checker.ask automaton query).checker.Answers query answer := by
  unfold ask
  cases consulted : (checker.consult query.start query.goal).answer? with
  | some answer =>
    have answers : checker.Answers query answer := consulted
    rw [canReach_of_consult consulted]
    exact ⟨answer, rfl, answers.consult query.start query.goal⟩
  | none =>
    obtain ⟨nexts, concluded⟩ := concluded_of_unanswered linked consulted
    obtain ⟨answer, answered⟩ := concluded.answered
    have apart := (knownAnswer?_of_unanswered consulted).1
    exact ⟨answer, answered,
      (answers_iff_of_ne apart).mpr (Or.inl (concluded.settled answered rfl))⟩

/-- The same query gets the answer that the checker has. -/
theorem Answers.ask (answers : checker.Answers query answer) (automaton : Automaton) :
    (checker.ask automaton query).answer = .ok answer := by
  rw [Checker.ask, canReach_of_consult answers]

end

end Checker

/-! ### Runs -/

namespace Demand

/-- What comes of the demand. -/
def search (checker : Checker) : Demand → Search
  | reach automaton query => checker.ask automaton query
  | reachConsuming automaton query => checker.canReachConsuming automaton query.start query.goal

/-- Everything that can be reached from the start of the query is linked. -/
def Linked : Demand → Prop
  | reach automaton query | reachConsuming automaton query => automaton.LinkedFrom query.start

/-- The moments while the demand is met. -/
def Moment (checker : Checker) : Demand → List LogRecord → Checker → Prop
  | reach automaton query => Checker.QueryMoment automaton query.goal query.start checker
  | reachConsuming automaton query =>
    Checker.WalkMoment automaton query.goal checker [] [.reached query.start]

theorem moment_search (demand : Demand) (checker : Checker) :
    demand.Moment checker (demand.search checker).records (demand.search checker).checker := by
  cases demand with
  | reach automaton query => exact Checker.queryMoment_canReach checker
  | reachConsuming automaton query => exact Checker.walkMoment_walkConsuming checker [] _

theorem Moment.since {demand : Demand} {checker moment : Checker} {records : List LogRecord}
    (during : demand.Moment checker records moment) : checker.Since records moment := by
  cases demand with
  | reach automaton query => exact Checker.QueryMoment.since during
  | reachConsuming automaton query => exact Checker.WalkMoment.since during

end Demand

namespace Checker

/-- The checker after some demands, the first of them met first. -/
def meet (checker : Checker) (demands : List Demand) : Checker :=
  demands.foldl (fun met demand => (demand.search met).checker) checker

/-- The records of a run. -/
def log (checker : Checker) : List Demand → List LogRecord
  | [] => []
  | demand :: rest =>
    (demand.search checker).records ++ (demand.search checker).checker.log rest

/-- The moments of a run: those of its demands, with the records of the demands before. -/
inductive RunMoment : Checker → List Demand → List LogRecord → Checker → Prop
  | now (checker : Checker) (demands : List Demand) : RunMoment checker demands [] checker
  | during {checker moment : Checker} {demand : Demand} {rest : List Demand}
    {records : List LogRecord} (during : demand.Moment checker records moment) :
    RunMoment checker (demand :: rest) records moment
  | later {checker moment : Checker} {demand : Demand} {rest : List Demand}
    {records : List LogRecord}
    (later : RunMoment (demand.search checker).checker rest records moment) :
    RunMoment checker (demand :: rest) ((demand.search checker).records ++ records) moment

/-- The end of a run is one of its moments. -/
theorem runMoment_log (checker : Checker) (demands : List Demand) :
    RunMoment checker demands (checker.log demands) (checker.meet demands) := by
  induction demands generalizing checker with
  | nil => exact .now checker []
  | cons demand rest inductionHypothesis => exact .later (inductionHypothesis _)

theorem RunMoment.since {checker moment : Checker} {demands : List Demand}
    {records : List LogRecord} (during : RunMoment checker demands records moment) :
    checker.Since records moment := by
  induction during with
  | now checker demands => exact .refl checker
  | during asking => exact asking.since
  | @later checker moment demand rest records _ inductionHypothesis =>
    exact (demand.moment_search checker).since.trans inductionHypothesis

/-- No run takes an answer back. -/
theorem Answers.meet {checker : Checker} {query : Query} {answer : Bool}
    (answers : checker.Answers query answer) {demands : List Demand}
    (linked : ∀ demand ∈ demands, demand.Linked) :
    (checker.meet demands).Answers query answer := by
  induction demands generalizing checker with
  | nil => exact answers
  | cons demand rest inductionHypothesis =>
    obtain ⟨first, others⟩ := List.forall_mem_cons.mp linked
    refine inductionHypothesis ?_ others
    cases demand with
    | reach automaton asked => exact answers.canReach first
    | reachConsuming automaton asked =>
      exact canReachConsuming_preserves (motive := fun met => met.Answers query answer)
        (fun linked answers => answers.canReach linked) first answers

/-- What holds of a run of a checker. -/
structure Steady (checker : Checker) (demands : List Demand) : Prop where
  /-- At every moment of the run the memory is within its limit. -/
  bounded {records : List LogRecord} {moment : Checker} :
    RunMoment checker demands records moment → moment.memory.length ≤ checker.limit
  /-- The answer to a query is repeated whenever the query is made again. -/
  repeated {earlier between later : List Demand} {first second : Automaton} {query : Query} :
    demands = earlier ++ .reach first query :: between ++ .reach second query :: later →
      ∃ answer, ((checker.meet earlier).ask first query).answer = .ok answer ∧
        ((checker.meet (earlier ++ .reach first query :: between)).ask second query).answer =
          .ok answer
  /-- At no moment has the full memory been reported twice. -/
  reported {records : List LogRecord} {moment : Checker} :
    RunMoment checker demands records moment → records = [] ∨ records = [checker.fullRecord]
  /-- The end of the run is one of its moments. -/
  ended : RunMoment checker demands (checker.log demands) (checker.meet demands)

end Checker

/-- Every run of linked queries that begins with an empty memory is steady. -/
theorem run_is_steady {checker : Checker} (empty : checker.memory = []) {demands : List Demand}
    (linked : ∀ demand ∈ demands, demand.Linked) : checker.Steady demands where
  bounded during := during.since.bounded (by rw [empty]; exact Nat.zero_le _)
  repeated {earlier between later first second query} split := by
    have linkedFirst : first.LinkedFrom query.start :=
      linked (.reach first query) (by simp [split])
    have linkedBetween : ∀ demand ∈ between, demand.Linked :=
      fun demand member => linked demand (by simp [split, member])
    obtain ⟨answer, answered, answers⟩ :=
      (checker.meet earlier).exists_answers_ask linkedFirst
    refine ⟨answer, answered, ?_⟩
    have stands := answers.meet linkedBetween
    rw [Checker.meet, List.foldl_append, List.foldl_cons]
    exact stands.ask second
  reported during := by
    rcases during.since.reported with ⟨none, -⟩ | ⟨-, once, -⟩
    · exact Or.inl none
    · exact Or.inr once
  ended := checker.runMoment_log demands

/-- With room for two entries the memory is full before the second query of this run begins. -/
theorem loop_run_is_steady :
    ∃ loop star, loopPattern? = some loop ∧ starPattern? = some star ∧
      let checker := Checker.withLimit true 2
      let demands : List Demand := [.reach loop.automaton ⟨⟨9⟩, ⟨10⟩⟩,
        .reachConsuming star.automaton ⟨⟨3⟩, ⟨2⟩⟩, .reach loop.automaton ⟨⟨9⟩, ⟨10⟩⟩]
      (∀ demand ∈ demands, demand.Linked) ∧ checker.Steady demands ∧
        checker.log demands = [checker.fullRecord] := by
  obtain ⟨loop, builtLoop, -, linkedLoop⟩ := exists_linked_loopPattern
  obtain ⟨star, builtStar, size, linkedStar⟩ := exists_starPattern
  have askable : star.automaton.Askable ⟨⟨3⟩, ⟨2⟩⟩ :=
    askable_of_allLinked linkedStar (by rw [size]; decide)
  have computed : (loopPattern?.bind fun loop => starPattern?.map fun star =>
      (Checker.withLimit true 2).log [.reach loop.automaton ⟨⟨9⟩, ⟨10⟩⟩,
        .reachConsuming star.automaton ⟨⟨3⟩, ⟨2⟩⟩, .reach loop.automaton ⟨⟨9⟩, ⟨10⟩⟩]) =
      some [(Checker.withLimit true 2).fullRecord] := by decide +kernel
  rw [builtLoop, builtStar, Option.bind_some, Option.map_some, Option.some.injEq] at computed
  have linked : ∀ demand ∈ [Demand.reach loop.automaton ⟨⟨9⟩, ⟨10⟩⟩,
      .reachConsuming star.automaton ⟨⟨3⟩, ⟨2⟩⟩, .reach loop.automaton ⟨⟨9⟩, ⟨10⟩⟩],
      demand.Linked := by
    simp only [List.forall_mem_cons, Demand.Linked]
    exact ⟨linkedLoop ⟨9⟩ (by decide), askable.1, linkedLoop ⟨9⟩ (by decide),
      fun _ member => absurd member List.not_mem_nil⟩
  exact ⟨loop, star, builtLoop, builtStar, linked, run_is_steady rfl linked, computed⟩

end PatternGraph
