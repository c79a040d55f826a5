/-
This file says how the answer to a reachability query depends on the queries before it. An answer
yes is always right. An answer no can be wrong: a search that ends with yes leaves the entry no
behind at states that it turned away from because a loop led back to a state under expansion, and
such a state may well reach the goal by way of the loop. A later query is turned away wrongly if
every path to the goal meets such an entry first, and only then.

Entries for other goals play no part, and neither do searches that ended with no, since everything
they entered is closed under successors. So answers are right until a query for the same goal is
answered with yes.
-/

import PatternGraph.Proofs.Reach.Search
import PatternGraph.Proofs.Run

namespace PatternGraph

open Relation

/-- A question for a checker. -/
structure Query where
  start : StateId
  goal : StateId

/-- A query for a state of the automaton, from a state from which everything that can be reached is
linked. -/
def Automaton.Askable (automaton : Automaton) (query : Query) : Prop :=
  automaton.LinkedFrom query.start ∧ query.goal ∈ automaton.ids

namespace Checker

def ask (checker : Checker) (automaton : Automaton) (query : Query) : Search :=
  checker.canReach automaton query.start query.goal

/-- The checker after some queries. -/
def afterAll (checker : Checker) (automaton : Automaton) : List Query → Checker
  | [] => checker
  | query :: rest => (checker.ask automaton query).checker.afterAll automaton rest

/-- Of the queries, those for the goal from another state are all answered with no. -/
def Refuses (checker : Checker) (automaton : Automaton) (goal : StateId) : List Query → Prop
  | [] => True
  | query :: rest =>
    (query.goal = goal → query.start = goal ∨ (checker.ask automaton query).answer = .ok false) ∧
      (checker.ask automaton query).checker.Refuses automaton goal rest

section

variable {automaton : Automaton} {checker : Checker}

/-- What holds of a checker that has been used for one automaton only. -/
structure Honest (checker : Checker) (automaton : Automaton) : Prop where
  tidy : checker.Tidy automaton
  yes {id goal : StateId} : checker.knownAnswer? id goal = some true → automaton.Reaches id goal

/-- The entries no for the goal are right. -/
def Truthful (checker : Checker) (automaton : Automaton) (goal : StateId) : Prop :=
  ∀ id, checker.knownAnswer? id goal = some false → ¬ automaton.Reaches id goal

/-- The entries yes are right. -/
def Sincere (checker : Checker) (automaton : Automaton) : Prop :=
  ∀ id goal, checker.knownAnswer? id goal = some true → automaton.Reaches id goal

theorem Sincere.reaches (sincere : checker.Sincere automaton) {id goal : StateId}
    (leads : checker.Leads automaton goal id) : automaton.Reaches id goal := by
  induction leads with
  | here => exact .refl
  | known yes => exact sincere _ _ yes
  | move unknown moves rest inductionHypothesis => exact .head moves inductionHypothesis

theorem Honest.sincere (honest : checker.Honest automaton) : checker.Sincere automaton :=
  fun _ _ => honest.yes

theorem Honest.reaches (honest : checker.Honest automaton) {id goal : StateId}
    (leads : checker.Leads automaton goal id) : automaton.Reaches id goal :=
  honest.sincere.reaches leads

theorem Truthful.leads {goal : StateId} (truthful : checker.Truthful automaton goal)
    {id : StateId} (reaches : automaton.Reaches id goal) : checker.Leads automaton goal id := by
  induction reaches using ReflTransGen.head_induction_on with
  | refl => exact .here
  | @head id next moves rest inductionHypothesis =>
    cases known : checker.knownAnswer? id goal with
    | none => exact .move known moves inductionHypothesis
    | some answer =>
      cases answer with
      | true => exact .known known
      | false => exact absurd (.head moves rest) (truthful id known)

/-! ### An empty memory -/

theorem sincere_of_memory_nil (empty : checker.memory = []) : checker.Sincere automaton := by
  intro id goal known
  rw [knownAnswer?_of_memory_nil empty] at known
  cases known

theorem truthful_of_memory_nil (empty : checker.memory = []) (goal : StateId) :
    checker.Truthful automaton goal := by
  intro id known
  rw [knownAnswer?_of_memory_nil empty] at known
  cases known

/-! ### One query -/

/-- A query keeps the entries yes right, unless it is answered with yes because the memory is
full. -/
theorem Sincere.canReach {start goal : StateId} (sincere : checker.Sincere automaton)
    (linked : automaton.LinkedFrom start) (avoids : checker.Avoids automaton goal true) :
    (checker.canReach automaton start goal).checker.Sincere automaton := by
  have concluded : Concluded automaton goal checker checker []
      (checker.canReach automaton start goal) := concluded_canReach linked
  intro id other known
  by_cases same : other = goal
  · subst same
    cases was : checker.knownAnswer? id other with
    | none => exact sincere.reaches (concluded.found avoids was known)
    | some answer =>
      cases (concluded.kept was).symm.trans known
      exact sincere _ _ was
  · rw [concluded.others same] at known
    exact sincere _ _ known

/-- A query that is answered with no leaves only entries no that are right, since what it entered is
closed under successors. -/
theorem Truthful.canReach {start goal : StateId} (truthful : checker.Truthful automaton goal)
    (linked : automaton.LinkedFrom start) (roomy : checker.Roomy automaton goal)
    (answered : (checker.canReach automaton start goal).answer = .ok false) :
    (checker.canReach automaton start goal).checker.Truthful automaton goal := by
  have concluded : Concluded automaton goal checker checker []
      (checker.canReach automaton start goal) := concluded_canReach linked
  intro id known
  cases was : checker.knownAnswer? id goal with
  | none =>
    have closed := (concluded.exhausted answered).not_leads (Or.inr roomy) was known
    exact fun reaches => closed (truthful.leads reaches)
  | some answer =>
    cases (concluded.kept was).symm.trans known
    exact truthful id was

section

variable {query : Query} (askable : automaton.Askable query)

include askable

theorem settings_ask : (checker.ask automaton query).checker.limit = checker.limit :=
  (concluded_canReach askable.1).limit

theorem Honest.ask (honest : checker.Honest automaton)
    (enough : automaton.size * automaton.size ≤ checker.limit) :
    (checker.ask automaton query).checker.Honest automaton := by
  have concluded : Concluded automaton query.goal checker checker []
      (checker.ask automaton query) := concluded_canReach askable.1
  have roomy := honest.tidy.roomy askable.2 enough
  have sincere := honest.sincere.canReach askable.1 (Or.inr roomy)
  exact ⟨concluded.tidy honest.tidy askable.2, sincere _ _⟩

/-- A query that is answered with no leaves only entries that are right. -/
theorem Truthful.ask {goal : StateId} (truthful : checker.Truthful automaton goal)
    (honest : checker.Honest automaton)
    (enough : automaton.size * automaton.size ≤ checker.limit)
    (refused : query.goal = goal →
      query.start = goal ∨ (checker.ask automaton query).answer = .ok false) :
    (checker.ask automaton query).checker.Truthful automaton goal := by
  have concluded : Concluded automaton query.goal checker checker []
      (checker.ask automaton query) := concluded_canReach askable.1
  intro id known
  by_cases same : goal = query.goal
  · subst same
    rcases refused rfl with trivially | answered
    · have consulted : (checker.consult query.start query.goal).answer? = some true := by
        rw [consult, if_pos trivially]
      rw [Checker.ask, canReach_of_consult consulted,
        knownAnswer?_eq_of_memory (consult_memory ..)] at known
      exact truthful id known
    · exact truthful.canReach askable.1 (honest.tidy.roomy askable.2 enough) answered id known
  · rw [concluded.others same] at known
    exact truthful id known

end

/-! ### Many queries -/

section

variable {earlier : List Query} (askable : ∀ asked ∈ earlier, automaton.Askable asked)

include askable

theorem limit_afterAll : (checker.afterAll automaton earlier).limit = checker.limit := by
  induction earlier generalizing checker with
  | nil => rfl
  | cons query rest inductionHypothesis =>
    obtain ⟨first, others⟩ := List.forall_mem_cons.mp askable
    exact (inductionHypothesis others).trans (settings_ask first)

theorem Honest.afterAll (honest : checker.Honest automaton)
    (enough : automaton.size * automaton.size ≤ checker.limit) :
    (checker.afterAll automaton earlier).Honest automaton := by
  induction earlier generalizing checker with
  | nil => exact honest
  | cons query rest inductionHypothesis =>
    obtain ⟨first, others⟩ := List.forall_mem_cons.mp askable
    refine inductionHypothesis others (honest.ask first enough) ?_
    rwa [settings_ask first]

theorem Truthful.afterAll {goal : StateId} (truthful : checker.Truthful automaton goal)
    (honest : checker.Honest automaton)
    (enough : automaton.size * automaton.size ≤ checker.limit)
    (refuses : checker.Refuses automaton goal earlier) :
    (checker.afterAll automaton earlier).Truthful automaton goal := by
  induction earlier generalizing checker with
  | nil => exact truthful
  | cons query rest inductionHypothesis =>
    obtain ⟨first, others⟩ := List.forall_mem_cons.mp askable
    obtain ⟨refused, refusesOthers⟩ := refuses
    refine inductionHypothesis others (truthful.ask first honest enough refused)
      (honest.ask first enough) ?_ refusesOthers
    rwa [settings_ask first]

end

theorem honest_withLimit (automaton : Automaton) (defaultAnswer : Bool) (limit : Nat) :
    (withLimit defaultAnswer limit).Honest automaton :=
  ⟨⟨List.nodup_nil, fun _ member => absurd member List.not_mem_nil⟩,
    sincere_of_memory_nil rfl _ _⟩

theorem truthful_withLimit (automaton : Automaton) (defaultAnswer : Bool) (limit : Nat)
    (goal : StateId) : (withLimit defaultAnswer limit).Truthful automaton goal :=
  truthful_of_memory_nil rfl goal

end

end Checker

/-! ### The answer after other queries -/

/-- A checker with room for all pairs answers every query, and without earlier queries the answer is
whether the goal can be reached. After earlier queries it is yes only if that is right. It is the
same as without them exactly if a goal that can be reached is led to by a path without entries,
which is so as long as no earlier query for the goal was answered with yes. -/
theorem answer_after_queries {automaton : Automaton} {defaultAnswer : Bool} {limit : Nat}
    {earlier : List Query} {query : Query}
    (enough : automaton.size * automaton.size ≤ limit)
    (askable : ∀ asked ∈ query :: earlier, automaton.Askable asked) :
    let unused := Checker.withLimit defaultAnswer limit
    let used := unused.afterAll automaton earlier
    ∃ answer right, (used.ask automaton query).answer = .ok answer ∧
      (unused.ask automaton query).answer = .ok right ∧
      (right = true ↔ automaton.Reaches query.start query.goal) ∧
      (answer = true → right = true) ∧
      (answer = right ↔ (automaton.Reaches query.start query.goal →
        used.Leads automaton query.goal query.start)) ∧
      (unused.Refuses automaton query.goal earlier → answer = right) := by
  intro unused used
  obtain ⟨⟨linked, member⟩, others⟩ := List.forall_mem_cons.mp askable
  have honest : unused.Honest automaton := Checker.honest_withLimit automaton defaultAnswer limit
  have stillHonest : used.Honest automaton := honest.afterAll others enough
  have stillEnough : automaton.size * automaton.size ≤ used.limit := by
    rwa [Checker.limit_afterAll others]
  obtain ⟨answer, answered, asked⟩ :=
    Checker.canReach_eq_ok_iff_leads linked (stillHonest.tidy.roomy member stillEnough)
  obtain ⟨right, answeredRight, afresh⟩ :=
    Checker.canReach_eq_ok_iff_leads linked (honest.tidy.roomy member enough)
  have isRight : right = true ↔ automaton.Reaches query.start query.goal := by
    rw [afresh]
    exact ⟨honest.reaches, (Checker.truthful_withLimit automaton defaultAnswer limit _).leads⟩
  have sound : answer = true → right = true :=
    fun yes => isRight.mpr (stillHonest.reaches (asked.mp yes))
  have agrees : answer = right ↔ (automaton.Reaches query.start query.goal →
      used.Leads automaton query.goal query.start) := by
    rw [← isRight, ← asked]
    cases answer <;> cases right <;> simp at sound ⊢
  refine ⟨answer, right, answered, answeredRight, isRight, sound, agrees, fun refuses => ?_⟩
  have truthful := (Checker.truthful_withLimit automaton defaultAnswer limit query.goal).afterAll
    others honest enough refuses
  exact agrees.mpr truthful.leads

/-- The calls that build `a*`. -/
def starCalls : List Call :=
  [.construct ⟨⟨0, 1⟩, .empty, .leaf (.character ⟨97, false⟩)⟩,
    .construct ⟨⟨0, 2⟩, .empty, .repetition ⟨0⟩ ⟨⟨1, 2⟩, .greedy, .sign .star⟩⟩]

/-- The pattern `a*`. -/
def starPattern? : Option Pattern := finishedPattern? ⟨"a*", .java, []⟩ starCalls ⟨1⟩ .empty

theorem exists_starPattern : ∃ pattern, starPattern? = some pattern ∧
    pattern.automaton.size = 5 ∧ pattern.automaton.allLinked := by
  have computed : (starPattern?.map fun pattern =>
      (pattern.automaton.size, pattern.automaton.allLinked)) = some (5, true) := by decide +kernel
  obtain ⟨pattern, built, facts⟩ := Option.map_eq_some_iff.mp computed
  exact ⟨pattern, built, congrArg Prod.fst facts, congrArg Prod.snd facts⟩

theorem askable_of_allLinked {automaton : Automaton} (linked : automaton.allLinked) {query : Query}
    (inside : query.start.index < automaton.size ∧ query.goal.index < automaton.size) :
    automaton.Askable query := by
  have member {id : StateId} (small : id.index < automaton.size) : id ∈ automaton.ids :=
    List.mem_map.mpr ⟨id.index, List.mem_range.mpr small, rfl⟩
  exact ⟨Automaton.linkedFrom_of_allLinked linked (member inside.1), member inside.2⟩

theorem star_answer_after_queries :
    ∃ pattern, starPattern? = some pattern ∧
      let unused := Checker.withLimit false Checker.defaultLimit
      let used := unused.afterAll pattern.automaton [⟨⟨1⟩, ⟨2⟩⟩]
      ∃ answer right, (used.ask pattern.automaton ⟨⟨0⟩, ⟨2⟩⟩).answer = .ok answer ∧
        (unused.ask pattern.automaton ⟨⟨0⟩, ⟨2⟩⟩).answer = .ok right ∧
        (right = true ↔ pattern.automaton.Reaches ⟨0⟩ ⟨2⟩) ∧
        (answer = right ↔ (pattern.automaton.Reaches ⟨0⟩ ⟨2⟩ →
          used.Leads pattern.automaton ⟨2⟩ ⟨0⟩)) := by
  obtain ⟨pattern, built, size, linked⟩ := exists_starPattern
  have enough : pattern.automaton.size * pattern.automaton.size ≤ Checker.defaultLimit := by
    rw [size]
    decide
  have askable : ∀ asked ∈ [(⟨⟨0⟩, ⟨2⟩⟩ : Query), ⟨⟨1⟩, ⟨2⟩⟩], pattern.automaton.Askable asked := by
    refine List.forall_mem_cons.mpr ⟨?_, List.forall_mem_singleton.mpr ?_⟩ <;>
      exact askable_of_allLinked linked (by rw [size]; decide)
  obtain ⟨answer, right, answered, answeredRight, isRight, -, agrees, -⟩ :=
    @answer_after_queries pattern.automaton false Checker.defaultLimit _ _ enough askable
  exact ⟨pattern, built, answer, right, answered, answeredRight, isRight, agrees⟩

/-- In `a*` the query whether the final state can be reached from the repetition turns away from the
character, which is still under expansion when the loop comes back to the repetition. Afterwards the
same question about the character is answered with no, although it is right to answer yes. -/
theorem reachable_refused_after_query :
    ∃ pattern, starPattern? = some pattern ∧
      pattern.automaton.size * pattern.automaton.size < Checker.defaultLimit ∧
      (∀ asked ∈ [(⟨⟨0⟩, ⟨2⟩⟩ : Query), ⟨⟨1⟩, ⟨2⟩⟩], pattern.automaton.Askable asked) ∧
      let unused := Checker.withLimit false Checker.defaultLimit
      let used := unused.afterAll pattern.automaton [⟨⟨1⟩, ⟨2⟩⟩]
      (used.ask pattern.automaton ⟨⟨0⟩, ⟨2⟩⟩).answer = .ok false ∧
        (unused.ask pattern.automaton ⟨⟨0⟩, ⟨2⟩⟩).answer = .ok true := by
  have computed : (starPattern?.map fun pattern =>
      let unused := Checker.withLimit false Checker.defaultLimit
      let used := unused.afterAll pattern.automaton [⟨⟨1⟩, ⟨2⟩⟩]
      ((used.ask pattern.automaton ⟨⟨0⟩, ⟨2⟩⟩).answer,
        (unused.ask pattern.automaton ⟨⟨0⟩, ⟨2⟩⟩).answer)) = some (.ok false, .ok true) := by
    decide +kernel
  obtain ⟨pattern, built, size, linked⟩ := exists_starPattern
  rw [built, Option.map_some, Option.some.injEq, Prod.mk.injEq] at computed
  refine ⟨pattern, built, ?_, ?_, computed⟩
  · rw [size]
    decide
  · refine List.forall_mem_cons.mpr ⟨?_, List.forall_mem_singleton.mpr ?_⟩ <;>
      exact askable_of_allLinked linked (by rw [size]; decide)

end PatternGraph
