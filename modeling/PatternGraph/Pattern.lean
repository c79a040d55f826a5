/-
This file finishes a pattern. Finishing adds a final and a start state, both with the flags that are
active before the first character, and links the root to the final state, from where linking reaches
everything that was still open. A finished pattern is only read from there on.
-/

import PatternGraph.Automaton.Successors
import PatternGraph.Construction

namespace PatternGraph

/-- A linked automaton together with the states where it begins and ends. -/
structure Pattern where
  automaton : Automaton
  root : StateId
  start : StateId
  final : StateId

/-- The flags in effect before the first character of the pattern. -/
def Pattern.initialFlags (pattern : Pattern) : Except Fault FlagSet :=
  pattern.automaton.flags pattern.start

namespace Automaton

/-- The summary of a finished pattern. -/
def finishRecord (automaton : Automaton) (root : StateId) : LogRecord where
  level := .debug
  message := "linked regex `" ++ automaton.source.text ++ "`: " ++ toString automaton.size ++
    " states, root " ++ root.render

/-- Links everything below a root. The automaton is that of the pattern if finishing succeeds, and
otherwise shows how far linking came. -/
def finish (automaton : Automaton) (root : StateId) (flags : FlagSet) : Outcome Pattern :=
  match automaton.tree root with
  | .error fault => .failure automaton fault
  | .ok _ =>
    let ended := automaton.push (.final flags)
    let started := ended.push (.start root flags)
    let linked := started.setContinuation root automaton.nextId
    match linked.answer with
    | .error fault => { linked with answer := .error fault }
    | .ok () =>
      { answer := .ok ⟨linked.automaton, root, ended.nextId, automaton.nextId⟩
        automaton := linked.automaton
        records := linked.records ++ [linked.automaton.finishRecord root] }

end Automaton

end PatternGraph
