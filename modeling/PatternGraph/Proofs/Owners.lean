/-
This file proves that a question which glue passes on to its owner is answered as following the
owners answers it. Handles are not checked, so a chain of owners may run in a circle; then nobody
answers, and `ask` gives up. Any other chain ends with a state that answers or refuses. It passes no
state twice, since a state names the same owner whenever it is asked, and so it is not longer than
the arena allows: the count that `ask` begins with cuts off nothing but circles.

What a state says of its own is then its answer, and what its owner answers is the answer of glue.
-/

import Mathlib.Data.List.Perm.Subperm
import PatternGraph.Proofs.Arena

namespace PatternGraph

/-- The states that are asked one after the other, each naming the next one as its owner, and what
the last one says. -/
inductive Asked {α : Type} (reply : StateId → Except Fault (Reply α)) :
    StateId → List StateId → Except Fault α → Prop
  | refused {id : StateId} {fault : Fault} (said : reply id = .error fault) :
    Asked reply id [id] (.error fault)
  | answered {id : StateId} {answer : α} (said : reply id = .ok (.answer answer)) :
    Asked reply id [id] (.ok answer)
  | passed {id owner : StateId} {rest : List StateId} {result : Except Fault α}
    (said : reply id = .ok (.owner owner)) (asked : Asked reply owner rest result) :
    Asked reply id (id :: rest) result

namespace Asked

variable {α : Type} {reply : StateId → Except Fault (Reply α)} {id : StateId}
  {states : List StateId} {result : Except Fault α}

/-- What a state says settles who is asked next. -/
theorem unique (asked : Asked reply id states result) {others : List StateId}
    {other : Except Fault α} (also : Asked reply id others other) :
    states = others ∧ result = other := by
  induction asked generalizing others other with
  | refused said =>
    cases also with
    | refused same =>
      cases said.symm.trans same
      exact ⟨rfl, rfl⟩
    | answered same | passed same => cases said.symm.trans same
  | answered said =>
    cases also with
    | answered same =>
      cases said.symm.trans same
      exact ⟨rfl, rfl⟩
    | refused same | passed same => cases said.symm.trans same
  | passed said _ inductionHypothesis =>
    cases also with
    | passed same rest =>
      cases said.symm.trans same
      obtain ⟨rfl, rfl⟩ := inductionHypothesis rest
      exact ⟨rfl, rfl⟩
    | refused same | answered same => cases said.symm.trans same

/-- Whoever is asked on the way is asked for what is left of it. -/
theorem exists_suffix (asked : Asked reply id states result) {member : StateId}
    (passes : member ∈ states) : ∃ rest, rest <:+ states ∧ Asked reply member rest result := by
  induction asked with
  | refused said =>
    obtain rfl := List.mem_singleton.mp passes
    exact ⟨_, List.suffix_refl _, .refused said⟩
  | answered said =>
    obtain rfl := List.mem_singleton.mp passes
    exact ⟨_, List.suffix_refl _, .answered said⟩
  | passed said further inductionHypothesis =>
    rcases List.mem_cons.mp passes with rfl | later
    · exact ⟨_, List.suffix_refl _, .passed said further⟩
    · obtain ⟨rest, suffix, asked⟩ := inductionHypothesis later
      exact ⟨rest, suffix.trans (List.suffix_cons _ _), asked⟩

/-- A state that were asked twice would be asked again and again. -/
theorem nodup (asked : Asked reply id states result) : states.Nodup := by
  induction asked with
  | refused said => exact List.nodup_singleton _
  | answered said => exact List.nodup_singleton _
  | passed said further inductionHypothesis =>
    refine List.nodup_cons.mpr ⟨fun again => ?_, inductionHypothesis⟩
    obtain ⟨rest, suffix, asked⟩ := further.exists_suffix again
    have same := (asked.unique (.passed said further)).1
    exact absurd (same ▸ suffix.length_le) (Nat.not_succ_le_self _)

/-- Whoever is asked before the last one names an owner. -/
theorem names_owner (asked : Asked reply id states result) :
    ∀ member ∈ states.dropLast, ∃ owner, reply member = .ok (.owner owner) := by
  induction asked with
  | refused said => simp
  | answered said => simp
  | @passed id owner rest result said further inductionHypothesis =>
    have nonempty : rest ≠ [] := by cases further <;> exact List.cons_ne_nil _ _
    rw [List.dropLast_cons_of_ne_nil nonempty, List.forall_mem_cons]
    exact ⟨⟨owner, said⟩, inductionHypothesis⟩

theorem follow_eq_some (asked : Asked reply id states result) {count : Nat}
    (enough : states.length ≤ count) : follow reply count id = some result := by
  induction asked generalizing count with
  | refused said =>
    cases count with
    | zero => cases enough
    | succ count => rw [follow, said]
  | answered said =>
    cases count with
    | zero => cases enough
    | succ count => rw [follow, said]
  | passed said _ inductionHypothesis =>
    cases count with
    | zero => cases enough
    | succ count =>
      rw [follow, said]
      exact inductionHypothesis (Nat.le_of_succ_le_succ enough)

end Asked

theorem exists_asked_of_follow {α : Type} {reply : StateId → Except Fault (Reply α)} {count : Nat}
    {id : StateId} {result : Except Fault α} (followed : follow reply count id = some result) :
    ∃ states, Asked reply id states result := by
  induction count generalizing id with
  | zero => cases followed
  | succ count inductionHypothesis =>
    rw [follow] at followed
    cases said : reply id with
    | error fault =>
      rw [said] at followed
      cases followed
      exact ⟨_, .refused said⟩
    | ok replied =>
      rw [said] at followed
      cases replied with
      | answer answer =>
        cases followed
        exact ⟨_, .answered said⟩
      | owner owner =>
        obtain ⟨rest, asked⟩ := inductionHypothesis followed
        exact ⟨_, .passed said asked⟩

namespace Automaton

/-- Only states that exist name an owner. -/
def Grounds {α : Type} (automaton : Automaton) (reply : StateId → Except Fault (Reply α)) : Prop :=
  ∀ ⦃id owner⦄, reply id = .ok (.owner owner) → id ∈ automaton.ids

section

variable {α : Type} {automaton : Automaton} {reply : StateId → Except Fault (Reply α)}
  {id owner : StateId} {states : List StateId}

/-- Asking finds the end of every chain that has one. -/
theorem ask_eq (grounds : automaton.Grounds reply) {result : Except Fault α}
    (asked : Asked reply id states result) : automaton.ask reply id = result := by
  have present : states.dropLast ⊆ automaton.ids := fun member passes => by
    obtain ⟨owner, said⟩ := asked.names_owner member passes
    exact grounds said
  have distinct : states.dropLast.Nodup := asked.nodup.sublist (List.dropLast_sublist _)
  have enough : states.length ≤ automaton.size + 1 := by
    have fits := (distinct.subperm present).length_le
    rw [List.length_dropLast, length_ids] at fits
    omega
  rw [ask, asked.follow_eq_some enough, Option.getD_some]

/-- And it has no other answers. -/
theorem ask_eq_ok_iff (grounds : automaton.Grounds reply) {answer : α} :
    automaton.ask reply id = .ok answer ↔ ∃ states, Asked reply id states (.ok answer) := by
  refine ⟨fun answered => ?_, fun ⟨states, asked⟩ => ask_eq grounds asked⟩
  unfold ask at answered
  cases followed : follow reply (automaton.size + 1) id with
  | none =>
    rw [followed] at answered
    cases answered
  | some result =>
    rw [followed, Option.getD_some] at answered
    exact answered ▸ exists_asked_of_follow followed

/-- A state that passes the question on has the answer of its owner. -/
theorem ask_eq_ask_owner (grounds : automaton.Grounds reply)
    (said : reply id = .ok (.owner owner)) {result : Except Fault α}
    (asked : Asked reply owner states result) :
    automaton.ask reply id = automaton.ask reply owner := by
  rw [ask_eq grounds (.passed said asked), ask_eq grounds asked]

end

end Automaton

namespace State

/-- Whether the state has no continuation but that of its owner. -/
def borrowsContinuation : State → Bool
  | .branch .. | .endOfCapturingGroup _ | .endOfLookaround _ | .endOfConditional _ => true
  | _ => false

/-- The continuation of glue that was added with one. -/
def ownContinuation? : State → Option StateId
  | .endOfRepetition _ next | .negation _ next | .startOfLookBehind _ next | .start next _ =>
    some next
  | _ => none

variable {state : State} {id owner : StateId}

theorem continuationReply_eq_owner_iff : state.continuationReply id = .ok (.owner owner) ↔
    state.owner? = some owner ∧ state.borrowsContinuation = true := by
  cases state with
  | tree treeNode =>
    cases stored : treeNode.continuation <;> simp [continuationReply, stored, owner?]
  | _ => simp [continuationReply, owner?, borrowsContinuation]

theorem continuationReply_eq_answer_iff {answer : Option StateId} :
    state.continuationReply id = .ok (.answer answer) ↔
      (∃ treeNode next, state = .tree treeNode ∧ treeNode.continuation = some next ∧
        answer = some next) ∨
      (∃ next, state.ownContinuation? = some next ∧ answer = some next) ∨
      (∃ flags, state = .final flags) ∧ answer = none := by
  cases state with
  | tree treeNode =>
    cases stored : treeNode.continuation <;>
      simp [continuationReply, stored, ownContinuation?, eq_comm]
  | _ => simp [continuationReply, ownContinuation?, eq_comm]

theorem flagsReply_eq_owner_iff :
    state.flagsReply = .owner owner ↔ state.owner? = some owner := by
  cases state <;> simp [flagsReply, owner?]

end State

namespace Automaton

variable {automaton : Automaton} {id owner next : StateId} {state : State} {treeNode : TreeNode}

/-! ### What follows a state -/

theorem continuationReply_of_state? (found : automaton.state? id = some state) :
    automaton.continuationReply id = state.continuationReply id := by
  rw [continuationReply, found]

theorem exists_state_of_continuationReply {reply : Reply (Option StateId)}
    (said : automaton.continuationReply id = .ok reply) :
    ∃ state, automaton.state? id = some state ∧ state.continuationReply id = .ok reply := by
  rw [continuationReply] at said
  cases found : automaton.state? id with
  | none => simp [found] at said
  | some state =>
    rw [found] at said
    exact ⟨state, rfl, said⟩

theorem grounds_continuationReply (automaton : Automaton) :
    automaton.Grounds automaton.continuationReply := fun id owner said => by
  obtain ⟨state, found, -⟩ := exists_state_of_continuationReply said
  exact mem_ids_iff.mpr ⟨state, found⟩

theorem asked_of_stored (isTree : automaton.tree? id = some treeNode)
    (stored : treeNode.continuation = some next) :
    Asked automaton.continuationReply id [id] (.ok (some next)) := by
  refine .answered ?_
  rw [continuationReply_of_state? (tree?_eq_some_iff.mp isTree)]
  simp only [State.continuationReply, stored]

theorem asked_of_unset (isTree : automaton.tree? id = some treeNode)
    (unset : treeNode.continuation = none) :
    Asked automaton.continuationReply id [id] (.error (.notLinked id)) := by
  refine .refused ?_
  rw [continuationReply_of_state? (tree?_eq_some_iff.mp isTree)]
  simp only [State.continuationReply, unset]

theorem continuation_of_stored (isTree : automaton.tree? id = some treeNode)
    (stored : treeNode.continuation = some next) :
    automaton.continuation id = .ok (some next) :=
  ask_eq automaton.grounds_continuationReply (asked_of_stored isTree stored)

theorem continuation_of_unset (isTree : automaton.tree? id = some treeNode)
    (unset : treeNode.continuation = none) :
    automaton.continuation id = .error (.notLinked id) :=
  ask_eq automaton.grounds_continuationReply (asked_of_unset isTree unset)

theorem continuation_of_own (found : automaton.state? id = some state)
    (own : state.ownContinuation? = some next) :
    automaton.continuation id = .ok (some next) := by
  refine ask_eq automaton.grounds_continuationReply (.answered ?_)
  rw [continuationReply_of_state? found, State.continuationReply_eq_answer_iff]
  exact .inr (.inl ⟨next, own, rfl⟩)

theorem continuation_of_final {flags : FlagSet}
    (found : automaton.state? id = some (.final flags)) : automaton.continuation id = .ok none :=
  ask_eq automaton.grounds_continuationReply (.answered (continuationReply_of_state? found))

/-- Glue without a continuation of its own continues as its owner does. -/
theorem continuation_of_borrows (found : automaton.state? id = some state)
    (owned : state.owner? = some owner) (borrows : state.borrowsContinuation)
    (isTree : automaton.tree? owner = some treeNode) :
    automaton.continuation id = automaton.continuation owner := by
  have said : automaton.continuationReply id = .ok (.owner owner) :=
    (continuationReply_of_state? found).trans
      (State.continuationReply_eq_owner_iff.mpr ⟨owned, borrows⟩)
  have grounds := automaton.grounds_continuationReply
  cases stored : treeNode.continuation with
  | none => exact ask_eq_ask_owner grounds said (asked_of_unset isTree stored)
  | some next => exact ask_eq_ask_owner grounds said (asked_of_stored isTree stored)

/-- Only the final state says that nothing follows it, and owners that are tree nodes never do. -/
theorem continuation_eq_none_iff
    (owners : ∀ {id owner state}, automaton.state? id = some state → state.owner? = some owner →
      ∃ treeNode, automaton.tree? owner = some treeNode) :
    automaton.continuation id = .ok none ↔ ∃ flags, automaton.state? id = some (.final flags) := by
  refine ⟨fun ends => ?_, fun ⟨flags, found⟩ => continuation_of_final found⟩
  obtain ⟨states, asked⟩ := (ask_eq_ok_iff automaton.grounds_continuationReply).mp ends
  cases asked with
  | answered said =>
    obtain ⟨state, found, same⟩ := exists_state_of_continuationReply said
    rcases State.continuationReply_eq_answer_iff.mp same with
      ⟨_, _, -, -, some⟩ | ⟨_, -, some⟩ | ⟨⟨flags, rfl⟩, -⟩
    · cases some
    · cases some
    · exact ⟨flags, found⟩
  | passed said further =>
    obtain ⟨state, found, same⟩ := exists_state_of_continuationReply said
    obtain ⟨treeNode, isTree⟩ := owners found (State.continuationReply_eq_owner_iff.mp same).1
    cases stored : treeNode.continuation with
    | none => cases (further.unique (asked_of_unset isTree stored)).2
    | some next => cases (further.unique (asked_of_stored isTree stored)).2

/-! ### The flags at a state -/

section

variable {flags : FlagSet}

theorem grounds_flagsReply (automaton : Automaton) :
    automaton.Grounds fun asked => (automaton.state asked).map State.flagsReply := by
  intro id owner said
  obtain ⟨state, found, -⟩ := exists_of_map_eq_ok said
  exact mem_ids_iff.mpr ⟨state, state_eq_ok_iff.mp found⟩

theorem map_flagsReply (found : automaton.state? id = some state) :
    (automaton.state id).map State.flagsReply = .ok state.flagsReply := by
  rw [state_eq_ok_iff.mpr found]
  rfl

theorem asked_of_flagsReply (found : automaton.state? id = some state)
    (said : state.flagsReply = .answer flags) :
    Asked (fun asked => (automaton.state asked).map State.flagsReply) id [id] (.ok flags) :=
  .answered ((map_flagsReply found).trans (congrArg _ said))

theorem flags_of_tree? (isTree : automaton.tree? id = some treeNode) :
    automaton.flags id = .ok treeNode.flags :=
  ask_eq automaton.grounds_flagsReply (asked_of_flagsReply (tree?_eq_some_iff.mp isTree) rfl)

theorem flags_of_start {root : StateId} (found : automaton.state? id = some (.start root flags)) :
    automaton.flags id = .ok flags :=
  ask_eq automaton.grounds_flagsReply (asked_of_flagsReply found rfl)

theorem flags_of_final (found : automaton.state? id = some (.final flags)) :
    automaton.flags id = .ok flags :=
  ask_eq automaton.grounds_flagsReply (asked_of_flagsReply found rfl)

/-- Glue has the flags of its owner. -/
theorem flags_of_owner? (found : automaton.state? id = some state)
    (owned : state.owner? = some owner) (isTree : automaton.tree? owner = some treeNode) :
    automaton.flags id = automaton.flags owner :=
  ask_eq_ask_owner automaton.grounds_flagsReply
    ((map_flagsReply found).trans (congrArg _ (State.flagsReply_eq_owner_iff.mpr owned)))
    (asked_of_flagsReply (tree?_eq_some_iff.mp isTree) rfl)

end

end Automaton

end PatternGraph
