/-
This file defines what a step of construction leaves behind. Linking can fail half way, after glue
was added and continuations were stored, and its caller decides whether to keep that work. So an
outcome carries the automaton as the step left it whether the step succeeded or not, and the log
records of the work that was done.
-/

import PatternGraph.Automaton.Basic
import PatternGraph.LogRecord

namespace PatternGraph

/-- The answer of a step, the automaton it left and the records it gave rise to, oldest first. -/
structure Outcome (α : Type) where
  answer : Except Fault α
  automaton : Automaton
  records : List LogRecord

namespace Outcome

/-- A step that succeeded without anything to record. -/
def success {α : Type} (automaton : Automaton) (answer : α) : Outcome α :=
  ⟨.ok answer, automaton, []⟩

/-- A step that failed without anything to record. -/
def failure {α : Type} (automaton : Automaton) (fault : Fault) : Outcome α :=
  ⟨.error fault, automaton, []⟩

/-- The same step with another answer where it succeeded. -/
def answering {α β : Type} (outcome : Outcome α) (answer : β) : Outcome β :=
  { outcome with answer := outcome.answer.map fun _ => answer }

/-- The same step after one record. -/
def preceded {α : Type} (outcome : Outcome α) (record : LogRecord) : Outcome α :=
  { outcome with records := record :: outcome.records }

end Outcome

end PatternGraph
