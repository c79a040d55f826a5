/-
This file resolves back-references. Numbers and names of groups need not be unique; of several
capturing groups with the same number, or the same name, the one built last is meant. A reference
that has a group number is looked up by it and every other reference by its name, and one that finds
no group is left as it was and warned about.
-/

import PatternGraph.Automaton.Outcome

namespace PatternGraph

/-- The same state with the group of its back-reference replaced. -/
def State.referringTo (group : Option StateId) : State → State
  | .tree treeNode =>
    match treeNode.node with
    | .leaf (.backReference reference) =>
      .tree { treeNode with node := .leaf (.backReference { reference with group }) }
    | _ => .tree treeNode
  | glue => glue

namespace Automaton

/-- The back-reference that a state is. -/
def reference? (automaton : Automaton) (id : StateId) : Option BackReference :=
  match (automaton.tree? id).map TreeNode.node with
  | some (.leaf (.backReference reference)) => some reference
  | _ => none

/-- Sets or clears the group of a back-reference. -/
def setGroup (automaton : Automaton) (id : StateId) (group : Option StateId) :
    Except Fault Automaton :=
  (automaton.tree id).bind fun _ =>
    match automaton.reference? id with
    | some _ =>
      .ok { automaton with states := automaton.states.modify id.index (State.referringTo group) }
    | none => .error (.notBackReference id)

/-- Whether a state is a capturing group that a test on its name and number accepts. -/
def isGroupWith (automaton : Automaton) (accepts : Option String → Nat → Bool) (id : StateId) :
    Bool :=
  match (automaton.tree? id).map TreeNode.node with
  | some (.capturingGroup _ name number) => accepts name number
  | _ => false

/-- The capturing group that a reference means: the last one with its number, or for a reference
without number the last one with its name. -/
def target? (automaton : Automaton) (reference : BackReference) : Option StateId :=
  automaton.ids.reverse.find? <| automaton.isGroupWith fun name number =>
    match reference.groupNumber? with
    | some wanted => number == wanted
    | none => name == some reference.groupName

/-- Resolves one reference, if the state is one, and tells whether it was resolved. -/
def resolveOne (automaton : Automaton) (id : StateId) : Automaton × Nat × List LogRecord :=
  match automaton.reference? id with
  | none => (automaton, 0, [])
  | some reference =>
    match automaton.target? reference with
    | some group => (((automaton.setGroup id (some group)).toOption).getD automaton, 1, [])
    | none =>
      let message := "back-reference " ++ id.render ++ " `" ++ automaton.text id ++
        "` names no capturing group"
      (automaton, 0, [⟨.warn, message⟩])

/-- Resolves the references among the given states, in order. -/
def resolveEach (automaton : Automaton) : List StateId → Automaton × Nat × List LogRecord
  | [] => (automaton, 0, [])
  | id :: rest =>
    let (changed, resolved, records) := automaton.resolveOne id
    let (final, resolvedAfter, recordsAfter) := changed.resolveEach rest
    (final, resolved + resolvedAfter, records ++ recordsAfter)

/-- Links every back-reference to the capturing group it means and answers with the number of those
that mean one. -/
def resolveReferences (automaton : Automaton) : Outcome Nat :=
  let (resolved, count, records) := automaton.resolveEach automaton.ids
  let summary := "resolved " ++ toString count ++ " back-references"
  ⟨.ok count, resolved, records ++ [⟨.debug, summary⟩]⟩

end Automaton

end PatternGraph
