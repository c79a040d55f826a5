/-
This file defines what a builder may do to an automaton. A run is a list of calls, carried out one
after the other from the automaton of which nothing has been built; it ends early with the first
call that fails. The calls may name any handles, and a run is judged by what it leaves alone.

A call `Returns` when it reports no fault and every state it leaves has a handle: handles are kept
in 32 bits, and adding a state beyond that many is refused. Setting a group that cannot be set
answers with an error and changes nothing, so it ends no run.

`performAll_preserves` is how a property of all automata that a run can lead to is proved: it holds
at the beginning, construction keeps it, and so does a new group for a back-reference, of which
resolving all references is a repetition.
-/

import PatternGraph.Pattern
import PatternGraph.Proofs.Assembly

namespace PatternGraph

/-- A call of the builder. -/
inductive Call
  | construct (construction : Construction)
  | setGroup (reference : StateId) (group : Option StateId)
  | resolve

/-- The children that a call gives to a new node. -/
def Call.children : Call → List StateId
  | construct construction => construction.form.children
  | _ => []

/-- A step returns when it has an answer and all states it leaves have handles. -/
def Outcome.Returns {α : Type} (outcome : Outcome α) (answer : α) : Prop :=
  outcome.answer = .ok answer ∧ outcome.automaton.size ≤ StateId.bound

namespace Automaton

/-- Carries out one call. The answer is the handle of the node that was built. -/
def perform (automaton : Automaton) : Call → Outcome (Option StateId)
  | .construct construction =>
    let built := automaton.construct construction
    { built with answer := built.answer.map some }
  | .setGroup reference group =>
    .success ((automaton.setGroup reference group).toOption.getD automaton) none
  | .resolve => automaton.resolveReferences.answering none

/-- Carries out calls in order, up to the first that fails. -/
def performAll (automaton : Automaton) : List Call → Outcome Unit
  | [] => .success automaton ()
  | call :: rest =>
    let performed := automaton.perform call
    match performed.answer with
    | .error fault => { performed with answer := .error fault }
    | .ok _ =>
      let after := performed.automaton.performAll rest
      { after with records := performed.records ++ after.records }

end Automaton

/-- A pattern is finished when a run that returned was followed by finishing, and that returned
too. -/
def Pattern.Finished (pattern : Pattern) : Prop :=
  ∃ (source : Source) (calls : List Call) (root : StateId) (flags : FlagSet),
    let built := (Automaton.ofSource source).performAll calls
    built.Returns () ∧ (built.automaton.finish root flags).Returns pattern

/-- The pattern that a run and finishing lead to, if both return. -/
def finishedPattern? (source : Source) (calls : List Call) (root : StateId) (flags : FlagSet) :
    Option Pattern :=
  let built := (Automaton.ofSource source).performAll calls
  let finished := built.automaton.finish root flags
  match built.answer, finished.answer with
  | .ok (), .ok pattern =>
    if built.automaton.size ≤ StateId.bound ∧ finished.automaton.size ≤ StateId.bound then
      some pattern
    else none
  | _, _ => none

theorem finished_of_finishedPattern? {source : Source} {calls : List Call} {root : StateId}
    {flags : FlagSet} {pattern : Pattern}
    (found : finishedPattern? source calls root flags = some pattern) : pattern.Finished := by
  unfold finishedPattern? at found
  dsimp only at found
  split at found
  · rename_i performed answered
    split at found
    · rename_i small
      cases found
      exact ⟨source, calls, root, flags, ⟨performed, small.1⟩, ⟨answered, small.2⟩⟩
    · cases found
  · cases found

/-- The calls that build `a(b|c)*d`. -/
def loopCalls : List Call :=
  let character (beginning : Int) (codePoint : Nat) : Call :=
    .construct ⟨⟨beginning, beginning + 1⟩, .empty, .leaf (.character ⟨codePoint, false⟩)⟩
  [character 0 97, character 2 98, character 4 99,
    .construct ⟨⟨2, 5⟩, .empty, .disjunction [⟨1⟩, ⟨2⟩] []⟩,
    .construct ⟨⟨1, 6⟩, .empty, .capturingGroup none 1 ⟨3⟩⟩,
    .construct ⟨⟨1, 7⟩, .empty, .repetition ⟨4⟩ ⟨⟨6, 7⟩, .greedy, .sign .star⟩⟩,
    character 7 100,
    .construct ⟨⟨0, 8⟩, .empty, .sequence [⟨0⟩, ⟨6⟩, ⟨7⟩]⟩]

def loopSource : Source := ⟨"a(b|c)*d", .java, []⟩

/-- The pattern `a(b|c)*d`. -/
def loopPattern? : Option Pattern := finishedPattern? loopSource loopCalls ⟨9⟩ .empty

theorem exists_loopPattern : ∃ pattern, loopPattern? = some pattern :=
  Option.isSome_iff_exists.mp (by decide +kernel)

namespace Automaton

/-! ### What a run keeps -/

section

variable {motive : Automaton → Prop}
  (construct : ∀ automaton construction id, motive automaton →
    (automaton.construct construction).answer = .ok id →
    motive (automaton.construct construction).automaton)
  (regroup : ∀ automaton id group, motive automaton → motive (automaton.regrouped id group))

include regroup

theorem setGroup_preserves {automaton : Automaton} (holds : motive automaton) (id : StateId)
    (group : Option StateId) :
    motive ((automaton.setGroup id group).toOption.getD automaton) := by
  cases set : automaton.setGroup id group with
  | error fault => exact holds
  | ok changed =>
    have same : changed = automaton.regrouped id group := setGroup_eq_ok set
    exact same ▸ regroup automaton id group holds

theorem resolveOne_preserves {automaton : Automaton} (holds : motive automaton) (id : StateId) :
    motive (automaton.resolveOne id).1 := by
  unfold resolveOne
  split
  · exact holds
  · split
    · exact setGroup_preserves regroup holds id _
    · exact holds

theorem resolveEach_preserves {automaton : Automaton} (holds : motive automaton)
    (ids : List StateId) : motive (automaton.resolveEach ids).1 := by
  induction ids generalizing automaton with
  | nil => exact holds
  | cons id rest inductionHypothesis =>
    exact inductionHypothesis (resolveOne_preserves regroup holds id)

include construct

theorem perform_preserves {automaton : Automaton} (holds : motive automaton) {call : Call}
    {answer : Option StateId} (performed : (automaton.perform call).answer = .ok answer) :
    motive (automaton.perform call).automaton := by
  cases call with
  | construct construction =>
    obtain ⟨id, built, -⟩ := exists_of_map_eq_ok performed
    exact construct automaton construction id holds built
  | setGroup reference group => exact setGroup_preserves regroup holds reference group
  | resolve => exact resolveEach_preserves regroup holds automaton.ids

/-- What construction and regrouping keep holds after every run that had it at the beginning. -/
theorem performAll_preserves {automaton : Automaton} (holds : motive automaton)
    {calls : List Call} (performed : (automaton.performAll calls).answer = .ok ()) :
    motive (automaton.performAll calls).automaton := by
  induction calls generalizing automaton with
  | nil => exact holds
  | cons call rest inductionHypothesis =>
    cases first : (automaton.perform call).answer with
    | error fault => simp [performAll, first] at performed
    | ok answer =>
      simp only [performAll, first] at performed ⊢
      exact inductionHypothesis (perform_preserves construct regroup holds first) performed

end

end Automaton

end PatternGraph
