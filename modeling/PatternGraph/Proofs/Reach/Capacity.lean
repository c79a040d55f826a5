/-
This file says what the size of the memory does to the answers of a checker.

A query that begins with an empty memory enters each state at most once, so room for all states is
room enough: the answer then says whether the goal can be reached, whatever the default answer is
and however the successors run in loops. With less room the memory may become full in the middle of
a search, and from then on unknown states are answered by default. Such an answer is passed on to
the states under expansion and remembered for them, but it is passed on unchanged. A checker that
answers no by default therefore never says yes wrongly, and this holds for its whole life, since an
entry yes is made only for states that reach the goal. A checker that answers yes by default never
says no wrongly as long as it began with an empty memory; later queries would also meet the entries
no that loops leave behind.
-/

import PatternGraph.Proofs.Reach.Consuming
import PatternGraph.Proofs.Reach.History

namespace PatternGraph

/-- What a checker can be asked to do. -/
inductive Request
  | reach (query : Query)
  | reachConsuming (query : Query)
  | clear

/-- The queries start at states from which everything that can be reached is linked. -/
def Request.Admissible (automaton : Automaton) : Request → Prop
  | reach query | reachConsuming query => automaton.LinkedFrom query.start
  | clear => True

namespace Checker

/-- The checker after a request. -/
def serve (checker : Checker) (automaton : Automaton) : Request → Checker
  | .reach query => (checker.ask automaton query).checker
  | .reachConsuming query =>
    (checker.canReachConsuming automaton query.start query.goal).checker
  | .clear => checker.clear

/-- The checker after some requests, the first of them served first. -/
def serveAll (checker : Checker) (automaton : Automaton) (requests : List Request) : Checker :=
  requests.foldl (fun served request => served.serve automaton request) checker

section

variable {automaton : Automaton} {checker : Checker}

/-- What every query and clearing keep, a whole life of the checker keeps. -/
theorem serveAll_preserves {motive : Checker → Prop}
    (query : ∀ {checker : Checker} {start goal : StateId}, automaton.LinkedFrom start →
      motive checker → motive (checker.canReach automaton start goal).checker)
    (clear : ∀ {checker : Checker}, motive checker → motive checker.clear)
    {requests : List Request} (admissible : ∀ request ∈ requests, request.Admissible automaton)
    (holds : motive checker) : motive (checker.serveAll automaton requests) := by
  induction requests generalizing checker with
  | nil => exact holds
  | cons request rest inductionHypothesis =>
    obtain ⟨first, others⟩ := List.forall_mem_cons.mp admissible
    refine inductionHypothesis others ?_
    cases request with
    | reach asked => exact query first holds
    | reachConsuming asked => exact canReachConsuming_preserves query first holds
    | clear => exact clear holds

/-- A checker that answers no by default and whose entries yes are right. -/
structure Cautious (checker : Checker) (automaton : Automaton) : Prop where
  refuses : checker.defaultAnswer = false
  sincere : checker.Sincere automaton

theorem Cautious.canReach {start goal : StateId} (cautious : checker.Cautious automaton)
    (linked : automaton.LinkedFrom start) :
    (checker.canReach automaton start goal).checker.Cautious automaton := by
  have concluded : Concluded automaton goal checker checker []
      (checker.canReach automaton start goal) := concluded_canReach linked
  have avoids : checker.Avoids automaton goal true := Or.inl (by simp [cautious.refuses])
  exact ⟨concluded.defaultAnswer.trans cautious.refuses, cautious.sincere.canReach linked avoids⟩

theorem Cautious.clear (cautious : checker.Cautious automaton) :
    checker.clear.Cautious automaton :=
  ⟨checker.defaultAnswer_clear.trans cautious.refuses, sincere_of_memory_nil checker.memory_clear⟩

theorem Cautious.serveAll (cautious : checker.Cautious automaton) {requests : List Request}
    (admissible : ∀ request ∈ requests, request.Admissible automaton) :
    (checker.serveAll automaton requests).Cautious automaton :=
  serveAll_preserves (motive := fun served => served.Cautious automaton)
    (fun linked cautious => cautious.canReach linked) Cautious.clear admissible cautious

/-- Without entries, to lead to the goal is to reach it. -/
theorem leads_iff_reaches_of_memory_nil (empty : checker.memory = []) {id goal : StateId} :
    checker.Leads automaton goal id ↔ automaton.Reaches id goal :=
  ⟨(sincere_of_memory_nil empty).reaches, (truthful_of_memory_nil empty goal).leads⟩

end

end Checker

/-! ### Enough room -/

/-- A checker with an empty memory that has room for all states answers whether the goal can be
reached. -/
theorem canReach_eq_ok_iff_reaches {automaton : Automaton} {checker : Checker}
    {start goal : StateId} (linked : automaton.LinkedFrom start) (empty : checker.memory = [])
    (enough : automaton.size ≤ checker.limit) :
    ∃ answer, (checker.canReach automaton start goal).answer = .ok answer ∧
      (answer = true ↔ automaton.Reaches start goal) := by
  obtain ⟨answer, answered, leads⟩ :=
    Checker.canReach_eq_ok_iff_leads linked (Checker.roomy_of_memory_nil empty enough)
  exact ⟨answer, answered, leads.trans (Checker.leads_iff_reaches_of_memory_nil empty)⟩

theorem exists_linked_loopPattern :
    ∃ pattern, loopPattern? = some pattern ∧ pattern.automaton.size = 12 ∧
      ∀ id : StateId, id.index < 12 → pattern.automaton.LinkedFrom id := by
  have computed : (loopPattern?.map fun pattern =>
      (pattern.automaton.size, pattern.automaton.allLinked)) = some (12, true) := by decide +kernel
  obtain ⟨pattern, built, facts⟩ := Option.map_eq_some_iff.mp computed
  obtain ⟨size, linked⟩ := Prod.mk.inj facts
  refine ⟨pattern, built, size, fun id small => ?_⟩
  have inside : id.index < pattern.automaton.size := size ▸ small
  have askable : pattern.automaton.Askable ⟨id, id⟩ := askable_of_allLinked linked ⟨inside, inside⟩
  exact askable.1

/-- The second checker has answered a query about the final state and was cleared. -/
theorem loop_canReach_eq_ok_iff_reaches :
    ∃ pattern, loopPattern? = some pattern ∧ pattern.automaton.size = 12 ∧
      let unused := Checker.withLimit true 12
      let cleared := (unused.canReach pattern.automaton ⟨6⟩ pattern.final).checker.clear
      (∃ answer, (unused.canReach pattern.automaton ⟨1⟩ ⟨2⟩).answer = .ok answer ∧
        (answer = true ↔ pattern.automaton.Reaches ⟨1⟩ ⟨2⟩)) ∧
      ∃ answer, (cleared.canReach pattern.automaton ⟨7⟩ ⟨6⟩).answer = .ok answer ∧
        (answer = true ↔ pattern.automaton.Reaches ⟨7⟩ ⟨6⟩) := by
  obtain ⟨pattern, built, size, linked⟩ := exists_linked_loopPattern
  refine ⟨pattern, built, size, ?_, ?_⟩
  · exact canReach_eq_ok_iff_reaches (linked ⟨1⟩ (by decide)) rfl (Nat.le_of_eq size)
  · refine canReach_eq_ok_iff_reaches (linked ⟨7⟩ (by decide)) (Checker.memory_clear _) ?_
    have limit : ((Checker.withLimit true 12).canReach pattern.automaton ⟨6⟩
        pattern.final).checker.limit = 12 :=
      (Checker.concluded_canReach (linked ⟨6⟩ (by decide))).limit
    rw [Checker.limit_clear, limit, size]

/-! ### Too little room -/

/-- Whatever the limit is, a checker that began with an empty memory and answers no by default never
says wrongly that the goal can be reached, whatever it was asked before; and one that answers yes
by default never says wrongly that it cannot, as long as its memory is still empty. -/
theorem limited_answer_errs_by_default {automaton : Automaton} {start goal : StateId}
    (linked : automaton.LinkedFrom start) {checker : Checker} (empty : checker.memory = []) :
    (checker.defaultAnswer = false →
      ∀ requests : List Request, (∀ request ∈ requests, request.Admissible automaton) →
        ∃ answer, ((checker.serveAll automaton requests).canReach automaton start goal).answer =
            .ok answer ∧
          (answer = true → automaton.Reaches start goal)) ∧
    (checker.defaultAnswer = true →
      ∃ answer, (checker.canReach automaton start goal).answer = .ok answer ∧
        (automaton.Reaches start goal → answer = true)) := by
  have answers (asked : Checker) :
      ∃ answer, (asked.canReach automaton start goal).answer = .ok answer :=
    (Checker.concluded_canReach linked).answered
  refine ⟨fun refuses requests admissible => ?_, fun accepts => ?_⟩
  · have fresh : checker.Cautious automaton := ⟨refuses, Checker.sincere_of_memory_nil empty⟩
    have cautious := fresh.serveAll admissible
    obtain ⟨answer, answered⟩ := answers (checker.serveAll automaton requests)
    refine ⟨answer, answered, fun yes => ?_⟩
    subst yes
    have avoids : (checker.serveAll automaton requests).Avoids automaton goal true :=
      Or.inl (by simp [cautious.refuses])
    exact cautious.sincere.reaches (Checker.leads_of_canReach linked avoids answered)
  · obtain ⟨answer, answered⟩ := answers checker
    refine ⟨answer, answered, fun reaches => ?_⟩
    cases answer with
    | true => rfl
    | false =>
      have avoids : checker.Avoids automaton goal false := Or.inl (by simp [accepts])
      have leads := (Checker.leads_iff_reaches_of_memory_nil empty).mpr reaches
      exact absurd leads (Checker.not_leads_of_canReach linked avoids answered)

/-- With room for two entries the memory becomes full in the middle of every search. -/
theorem loop_limited_answer_errs_by_default :
    ∃ pattern, loopPattern? = some pattern ∧
      let refusing := (Checker.withLimit false 2).serveAll pattern.automaton
        [.reach ⟨⟨6⟩, ⟨0⟩⟩, .clear, .reachConsuming ⟨⟨1⟩, ⟨7⟩⟩, .reach ⟨⟨5⟩, ⟨0⟩⟩]
      (∃ answer, (refusing.canReach pattern.automaton ⟨9⟩ ⟨10⟩).answer = .ok answer ∧
        (answer = true → pattern.automaton.Reaches ⟨9⟩ ⟨10⟩)) ∧
      ∃ answer, ((Checker.withLimit true 2).canReach pattern.automaton ⟨9⟩ ⟨10⟩).answer =
          .ok answer ∧
        (pattern.automaton.Reaches ⟨9⟩ ⟨10⟩ → answer = true) := by
  obtain ⟨pattern, built, size, linked⟩ := exists_linked_loopPattern
  have start := linked ⟨9⟩ (by decide)
  refine ⟨pattern, built, ?_, ?_⟩
  · refine (limited_answer_errs_by_default start rfl).1 rfl _ ?_
    simp only [List.forall_mem_cons, Request.Admissible]
    exact ⟨linked ⟨6⟩ (by decide), trivial, linked ⟨1⟩ (by decide), linked ⟨5⟩ (by decide),
      fun _ member => absurd member List.not_mem_nil⟩
  · exact (limited_answer_errs_by_default start rfl).2 rfl

end PatternGraph
