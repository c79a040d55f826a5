/-
This file proves what resolving back-references comes to. Each reference is looked up and linked
before the next one is looked at, so in principle an earlier link could bear on a later look-up. It
does not: a look-up reads nothing but the names and numbers of groups and the text of the reference,
and linking writes neither. So all references find what they would have found at the beginning, in
whatever order they are resolved, and find it again when everything is resolved once more.
-/

import PatternGraph.Proofs.Permanence
import PatternGraph.Proofs.Text.Numerals

namespace PatternGraph

/-- Whether a reference counts as a number: it has no key, and its text is a numeral of that value,
which fits in 32 bits. -/
def BackReference.Numbers (reference : BackReference) (number : Nat) : Prop :=
  reference.key = none ∧ Text.IsNumeral reference.groupName number ∧ number ≤ 2 ^ 32 - 1

/-- Whether a reference calls for a group with a name and a number. A reference that counts as a
number calls for that number; any other calls for its text as a name, and so does one whose digits
are too many for a number. -/
def BackReference.Calls (reference : BackReference) (name : Option String) (number : Nat) : Prop :=
  reference.Numbers number ∨
    (∀ other, ¬ reference.Numbers other) ∧ name = some reference.groupName

/-- The test by which the group of a reference is looked up. -/
def BackReference.accepts (reference : BackReference) (name : Option String) (number : Nat) :
    Bool :=
  match reference.groupNumber? with
  | some wanted => number == wanted
  | none => name == some reference.groupName

namespace BackReference

variable {reference : BackReference} {name : Option String} {number : Nat}

theorem numbers_iff : reference.Numbers number ↔ reference.groupNumber? = some number := by
  rw [Numbers, ← Text.numeral32?_eq_some_iff, groupNumber?, isNumerical,
    Option.ite_none_right_eq_some, Option.isNone_iff_eq_none]

theorem calls_of_number {wanted : Nat} (counts : reference.groupNumber? = some wanted) :
    reference.Calls name number ↔ number = wanted := by
  have numbers : reference.Numbers wanted := numbers_iff.mpr counts
  rw [Calls, or_iff_left fun named => named.1 wanted numbers, numbers_iff, counts,
    Option.some.injEq, eq_comm]

theorem calls_of_name (nameless : reference.groupNumber? = none) :
    reference.Calls name number ↔ name = some reference.groupName := by
  have never (other : Nat) : ¬ reference.Numbers other := by
    rw [numbers_iff, nameless]
    exact nofun
  rw [Calls, or_iff_right (never number), and_iff_right never]

theorem accepts_iff : reference.accepts name number = true ↔ reference.Calls name number := by
  rw [accepts]
  cases counts : reference.groupNumber? with
  | none => rw [calls_of_name counts, beq_iff_eq]
  | some wanted => rw [calls_of_number counts, beq_iff_eq]

end BackReference

namespace Automaton

/-- A capturing group that a reference calls for. -/
def Called (automaton : Automaton) (reference : BackReference) (id : StateId) : Prop :=
  ∃ treeNode body name number, automaton.tree? id = some treeNode ∧
    treeNode.node = .capturingGroup body name number ∧ reference.Calls name number

/-- The capturing group that a reference means is the one built last of those that it calls for. -/
structure Means (automaton : Automaton) (reference : BackReference) (group : StateId) : Prop where
  called : automaton.Called reference group
  last {other : StateId} : automaton.Called reference other → other.index ≤ group.index

/-- The complaint about a reference that calls for no group there is. -/
def warning (automaton : Automaton) (id : StateId) : LogRecord :=
  ⟨.warn, "back-reference " ++ id.render ++ " `" ++ automaton.text id ++
    "` names no capturing group"⟩

/-- What resolving references has to come to. -/
structure Resolution (automaton : Automaton) (outcome : Outcome Nat) : Prop where
  source : outcome.automaton.source = automaton.source
  size : outcome.automaton.size = automaton.size
  linked {id : StateId} {treeNode : TreeNode} {reference : BackReference} :
    automaton.tree? id = some treeNode → treeNode.node = .leaf (.backReference reference) →
    (∃ group, automaton.Called reference group) →
    ∃ group, automaton.Means reference group ∧ outcome.automaton.tree? id =
      some { treeNode with node := .leaf (.backReference { reference with group := some group }) }
  kept {id : StateId} :
    (∀ reference, automaton.reference? id = some reference →
      ∀ group, ¬ automaton.Called reference group) →
    outcome.automaton.state? id = automaton.state? id
  /-- The references that found a group are counted, and the others complained about in order. -/
  report : ∃ found lost : List StateId, found.Nodup ∧ lost.Pairwise (·.index < ·.index) ∧
    (∀ id, id ∈ found ↔ ∃ reference, automaton.reference? id = some reference ∧
      ∃ group, automaton.Called reference group) ∧
    (∀ id, id ∈ lost ↔ ∃ reference, automaton.reference? id = some reference ∧
      ∀ group, ¬ automaton.Called reference group) ∧
    outcome.answer = .ok found.length ∧
    outcome.records = lost.map automaton.warning ++
      [⟨.debug, "resolved " ++ toString found.length ++ " back-references"⟩]
  again : outcome.automaton.resolveReferences = outcome

/-! ### Looking a reference up -/

section

variable {automaton : Automaton} {reference : BackReference} {id group : StateId}

theorem reference?_eq_some_iff {reference : BackReference} :
    automaton.reference? id = some reference ↔ ∃ treeNode, automaton.tree? id = some treeNode ∧
      treeNode.node = .leaf (.backReference reference) := by
  unfold reference?
  cases automaton.tree? id with
  | none => simp
  | some treeNode =>
    obtain ⟨range, flags, node, continuation⟩ := treeNode
    cases node with
    | leaf leaf => cases leaf <;> simp
    | _ => simp

theorem target?_eq (automaton : Automaton) (reference : BackReference) :
    automaton.target? reference =
      automaton.ids.reverse.find? (automaton.isGroupWith reference.accepts) := rfl

theorem isGroupWith_accepts_iff :
    automaton.isGroupWith reference.accepts id = true ↔ automaton.Called reference id := by
  unfold isGroupWith
  cases isTree : automaton.tree? id with
  | none => simp [Called, isTree]
  | some treeNode =>
    rw [Option.map_some]
    cases content : treeNode.node with
    | capturingGroup body name number =>
      refine BackReference.accepts_iff.trans ⟨fun calls => ?_, ?_⟩
      · exact ⟨treeNode, body, name, number, isTree, content, calls⟩
      · rintro ⟨other, otherBody, otherName, otherNumber, same, alsoContent, calls⟩
        rw [isTree] at same
        cases same
        rw [content] at alsoContent
        cases alsoContent
        exact calls
    | _ => simp [Called, isTree, content]

theorem Called.mem_ids (called : automaton.Called reference id) : id ∈ automaton.ids := by
  obtain ⟨treeNode, -, -, -, isTree, -⟩ := called
  exact mem_ids_of_tree (tree_eq_ok_iff.mpr isTree)

/-- The search runs from the end, so it comes to the group that is meant first. -/
theorem means_of_target? (found : automaton.target? reference = some group) :
    automaton.Means reference group := by
  obtain ⟨accepted, before, after, split, skipped⟩ :=
    List.find?_eq_some_iff_append.mp (target?_eq automaton reference ▸ found)
  refine ⟨isGroupWith_accepts_iff.mp accepted, fun {other} called => ?_⟩
  have listed : other ∈ before ++ group :: after :=
    split ▸ List.mem_reverse.mpr called.mem_ids
  have descending : (before ++ group :: after).Pairwise (·.index > ·.index) :=
    split ▸ List.pairwise_reverse.mpr (ids_ascending automaton)
  rcases List.mem_append.mp listed with skippedOver | onward
  · have refused := skipped other skippedOver
    rw [isGroupWith_accepts_iff.mpr called] at refused
    cases refused
  · rcases List.mem_cons.mp onward with rfl | earlier
    · exact Nat.le_refl _
    · have below := List.rel_of_pairwise_cons (List.pairwise_append.mp descending).2.1 earlier
      exact Nat.le_of_lt below

theorem target?_eq_none_iff :
    automaton.target? reference = none ↔ ∀ group, ¬ automaton.Called reference group := by
  rw [target?_eq, List.find?_eq_none]
  constructor
  · exact fun refused group called =>
      refused group (List.mem_reverse.mpr called.mem_ids) (isGroupWith_accepts_iff.mpr called)
  · exact fun uncalled group _ accepted => uncalled group (isGroupWith_accepts_iff.mp accepted)

theorem exists_target?_iff :
    (∃ group, automaton.target? reference = some group) ↔
      ∃ group, automaton.Called reference group := by
  rw [← Option.ne_none_iff_exists', ne_eq, target?_eq_none_iff, not_forall_not]

end

/-! ### What links between references leave alone -/

/-- The group that a state means, if it is a reference that means one. -/
def meant? (automaton : Automaton) (id : StateId) : Option StateId :=
  (automaton.reference? id).bind automaton.target?

/-- Whether a state is a reference that means no group. -/
def isLost (automaton : Automaton) (id : StateId) : Bool :=
  (automaton.reference? id).isSome && (automaton.meant? id).isNone

/-- The state as resolving should leave it. -/
def resolvedState? (automaton : Automaton) (id : StateId) : Option State :=
  match automaton.meant? id with
  | some group => (automaton.state? id).map (State.referringTo (some group))
  | none => automaton.state? id

theorem ids_of_size {first second : Automaton} (same : first.size = second.size) :
    first.ids = second.ids := by rw [ids, ids, same]

/-- No state is new, and none differs in more than the group of a reference. -/
structure Relinked (before after : Automaton) : Prop where
  size : after.size = before.size
  keeps : before.Keeps false true after

theorem Relinked.regrouped {before after : Automaton} (relinked : before.Relinked after)
    (changed : StateId) (group : Option StateId) :
    before.Relinked (after.regrouped changed group) where
  size := (size_regrouped after changed group).trans relinked.size
  keeps := relinked.keeps.trans (keeps_regrouped after changed group)

theorem Relinked.refl (automaton : Automaton) : automaton.Relinked automaton :=
  ⟨rfl, .refl automaton⟩

theorem relinked_resolveOne (automaton : Automaton) (id : StateId) :
    automaton.Relinked (automaton.resolveOne id).1 :=
  resolveOne_preserves (motive := automaton.Relinked)
    (fun _ changed group relinked => relinked.regrouped changed group) (.refl automaton) id

theorem relinked_resolveEach (automaton : Automaton) (ids : List StateId) :
    automaton.Relinked (automaton.resolveEach ids).1 :=
  resolveEach_preserves (motive := automaton.Relinked)
    (fun _ changed group relinked => relinked.regrouped changed group) (.refl automaton) ids

namespace Relinked

variable {before after : Automaton} (relinked : before.Relinked after)

include relinked

theorem tree?_cases (id : StateId) :
    before.tree? id = none ∧ after.tree? id = none ∨
      ∃ treeNode later, before.tree? id = some treeNode ∧ after.tree? id = some later ∧
        treeNode.Evolves false true later := by
  cases found : before.state? id with
  | none =>
    have absent : after.state? id = none := by
      refine state?_eq_none_of_size_le ?_
      rw [relinked.size]
      exact Array.getElem?_eq_none_iff.mp found
    exact Or.inl ⟨by rw [tree?, found]; rfl, by rw [tree?, absent]; rfl⟩
  | some state =>
    obtain ⟨later, alsoFound, evolves⟩ := relinked.keeps.state found
    cases evolves with
    | glue glue =>
      exact Or.inl ⟨(tree?_of_state? found).trans glue, (tree?_of_state? alsoFound).trans glue⟩
    | tree evolves =>
      exact Or.inr ⟨_, _, tree?_eq_some_iff.mpr found, tree?_eq_some_iff.mpr alsoFound, evolves⟩

theorem text (id : StateId) : after.text id = before.text id := by
  unfold Automaton.text
  rcases relinked.tree?_cases id with ⟨was, is⟩ | ⟨treeNode, later, was, is, evolves⟩
  · rw [was, is]
  · rw [was, is, relinked.keeps.source]
    exact congrArg before.source.textAt evolves.range

theorem isGroupWith (accepts : Option String → Nat → Bool) (id : StateId) :
    after.isGroupWith accepts id = before.isGroupWith accepts id := by
  unfold Automaton.isGroupWith
  rcases relinked.tree?_cases id with ⟨was, is⟩ | ⟨treeNode, later, was, is, evolves⟩
  · rw [was, is]
  · rw [was, is, Option.map_some, Option.map_some]
    rcases evolves.node with same | ⟨-, reference, group, content, changed⟩
    · rw [same]
    · rw [content, changed]

theorem target? (reference : BackReference) :
    after.target? reference = before.target? reference := by
  have same : after.isGroupWith reference.accepts = before.isGroupWith reference.accepts :=
    funext (relinked.isGroupWith _)
  rw [target?_eq, target?_eq, same, ids_of_size relinked.size]

theorem reference?_cases (id : StateId) : after.reference? id = before.reference? id ∨
    ∃ reference group, before.reference? id = some reference ∧
      after.reference? id = some { reference with group } := by
  unfold Automaton.reference?
  rcases relinked.tree?_cases id with ⟨was, is⟩ | ⟨treeNode, later, was, is, evolves⟩
  · exact Or.inl (by rw [was, is])
  · rw [was, is, Option.map_some, Option.map_some]
    rcases evolves.node with same | ⟨-, reference, group, content, changed⟩
    · exact Or.inl (by rw [same])
    · exact Or.inr ⟨reference, group, by rw [content], by rw [changed]⟩

theorem meant? (id : StateId) : after.meant? id = before.meant? id := by
  unfold Automaton.meant?
  rcases relinked.reference?_cases id with same | ⟨reference, group, was, is⟩
  · rw [same, funext relinked.target?]
  · rw [was, is, Option.bind_some, Option.bind_some]
    exact relinked.target? reference

theorem isLost (id : StateId) : after.isLost id = before.isLost id := by
  unfold Automaton.isLost
  rw [relinked.meant?]
  rcases relinked.reference?_cases id with same | ⟨reference, group, was, is⟩
  · rw [same]
  · rw [was, is]
    rfl

theorem warning (id : StateId) : after.warning id = before.warning id := by
  rw [Automaton.warning, relinked.text, Automaton.warning]

end Relinked

/-! ### Resolving one reference after the other -/

section

variable {automaton : Automaton} {id : StateId}

theorem resolveOne_of_meant {group : StateId} (means : automaton.meant? id = some group) :
    automaton.resolveOne id = (automaton.regrouped id (some group), 1, []) := by
  obtain ⟨reference, isReference, found⟩ := Option.bind_eq_some_iff.mp means
  have linked : automaton.setGroup id (some group) = .ok (automaton.regrouped id (some group)) := by
    obtain ⟨treeNode, isTree, -⟩ := reference?_eq_some_iff.mp isReference
    unfold setGroup
    rw [tree_eq_ok_iff.mpr isTree, isReference]
    rfl
  simp only [resolveOne, isReference, found, linked]
  rfl

theorem resolveOne_of_unmeant (meansNone : automaton.meant? id = none) :
    automaton.resolveOne id =
      (automaton, 0, if automaton.isLost id then [automaton.warning id] else []) := by
  unfold resolveOne isLost
  cases isReference : automaton.reference? id with
  | none => rfl
  | some reference =>
    have lost : automaton.target? reference = none := by
      rw [← meansNone, meant?, isReference, Option.bind_some]
    rw [meansNone]
    simp only [lost]
    rfl

theorem state?_resolveOne (other : StateId) : (automaton.resolveOne id).1.state? other =
    if other = id then automaton.resolvedState? other else automaton.state? other := by
  cases means : automaton.meant? id with
  | none =>
    rw [resolveOne_of_unmeant means]
    dsimp only
    split
    · rename_i same
      rw [same, resolvedState?, means]
    · rfl
  | some group =>
    rw [resolveOne_of_meant means, state?_regrouped]
    split
    · rename_i same
      rw [same, resolvedState?, means]
    · rfl

theorem resolveEach_cons (automaton : Automaton) (id : StateId) (rest : List StateId) :
    let first := automaton.resolveOne id
    let others := first.1.resolveEach rest
    automaton.resolveEach (id :: rest) =
      (others.1, first.2.1 + others.2.1, first.2.2 ++ others.2.2) := rfl

end

/-- What resolving the references among some states comes to. -/
structure ResolvedAmong (automaton : Automaton) (ids : List StateId)
    (result : Automaton × Nat × List LogRecord) : Prop where
  state (id : StateId) : result.1.state? id =
    if id ∈ ids then automaton.resolvedState? id else automaton.state? id
  count : result.2.1 = (ids.filter fun id => (automaton.meant? id).isSome).length
  records : result.2.2 = (ids.filter automaton.isLost).map automaton.warning

/-- The induction is on the states that are left. What comes before them has linked references, so
the rest is resolved in a relinked automaton, where it finds the same. -/
theorem resolvedAmong_each (automaton : Automaton) {ids : List StateId} (distinct : ids.Nodup) :
    automaton.ResolvedAmong ids (automaton.resolveEach ids) := by
  induction ids generalizing automaton with
  | nil => exact ⟨fun _ => by simp [resolveEach], rfl, rfl⟩
  | cons id rest inductionHypothesis =>
    obtain ⟨fresh, distinctRest⟩ := List.nodup_cons.mp distinct
    have relinked := relinked_resolveOne automaton id
    obtain ⟨state, count, records⟩ := inductionHypothesis (automaton.resolveOne id).1 distinctRest
    refine ⟨fun other => (state other).trans ?_, ?_, ?_⟩
    · rw [resolvedState?, relinked.meant?, state?_resolveOne]
      by_cases same : other = id
      · rw [same, if_neg fresh, if_pos rfl, if_pos List.mem_cons_self]
      · rw [if_neg same]
        simp only [List.mem_cons, same, false_or, resolvedState?]
    · simp only [resolveEach_cons, count, relinked.meant?]
      cases means : automaton.meant? id with
      | none => simp [resolveOne_of_unmeant means, means]
      | some group => simp [resolveOne_of_meant means, means, Nat.add_comm]
    · simp only [resolveEach_cons, records, funext relinked.isLost, funext relinked.warning]
      cases means : automaton.meant? id with
      | none =>
        rw [resolveOne_of_unmeant means, List.filter_cons]
        split <;> rfl
      | some group => simp [resolveOne_of_meant means, isLost, means]

/-! ### Resolving all references -/

theorem resolvedAmong_all (automaton : Automaton) :
    automaton.ResolvedAmong automaton.ids (automaton.resolveEach automaton.ids) :=
  resolvedAmong_each automaton automaton.nodup_ids

theorem state?_resolveReferences (automaton : Automaton) (id : StateId) :
    automaton.resolveReferences.automaton.state? id = automaton.resolvedState? id := by
  refine ((resolvedAmong_all automaton).state id).trans ?_
  split
  · rfl
  · rename_i absent
    have missing : automaton.state? id = none := by
      rw [← Option.not_isSome_iff_eq_none, Option.isSome_iff_exists, ← mem_ids_iff]
      exact absent
    rw [resolvedState?, missing]
    split <;> rfl

/-- Every reference finds what it is linked to already. -/
theorem resolveEach_again (automaton : Automaton) :
    (automaton.resolveEach automaton.ids).1.resolveEach automaton.ids =
      automaton.resolveEach automaton.ids := by
  have relinked := relinked_resolveEach automaton automaton.ids
  obtain ⟨state, count, records⟩ := resolvedAmong_all automaton
  obtain ⟨stateAgain, countAgain, recordsAgain⟩ :=
    resolvedAmong_each (automaton.resolveEach automaton.ids).1 automaton.nodup_ids
  rw [funext relinked.meant?] at countAgain
  rw [funext relinked.isLost, funext relinked.warning] at recordsAgain
  refine Prod.ext (ext_of_state? ?_ fun id => ?_)
    (Prod.ext (countAgain.trans count.symm) (recordsAgain.trans records.symm))
  · exact (relinked_resolveEach _ _).keeps.source
  · refine (stateAgain id).trans ?_
    split
    · rename_i listed
      rw [resolvedState?, relinked.meant?, state, if_pos listed, resolvedState?]
      cases automaton.meant? id with
      | none => rfl
      | some group =>
        simp only [Option.map_map, Function.comp_def, referringTo_referringTo]
    · rfl

section

variable {automaton : Automaton} {id : StateId}

theorem mem_ids_of_reference? {reference : BackReference}
    (isReference : automaton.reference? id = some reference) : id ∈ automaton.ids := by
  obtain ⟨treeNode, isTree, -⟩ := reference?_eq_some_iff.mp isReference
  exact mem_ids_of_tree (tree_eq_ok_iff.mpr isTree)

theorem isSome_meant?_iff : (automaton.meant? id).isSome ↔
    ∃ reference, automaton.reference? id = some reference ∧
      ∃ group, automaton.Called reference group := by
  simp only [← exists_target?_iff, meant?, Option.isSome_iff_exists, Option.bind_eq_some_iff]
  constructor
  · rintro ⟨group, reference, isReference, found⟩
    exact ⟨reference, isReference, group, found⟩
  · rintro ⟨reference, isReference, group, found⟩
    exact ⟨group, reference, isReference, found⟩

theorem isLost_iff : automaton.isLost id ↔
    ∃ reference, automaton.reference? id = some reference ∧
      ∀ group, ¬ automaton.Called reference group := by
  unfold isLost meant?
  cases automaton.reference? id with
  | none => simp
  | some reference => simp [← target?_eq_none_iff]

/-- A reference that calls for groups is linked to the one it means. -/
theorem tree?_resolveReferences_of_called {treeNode : TreeNode} {reference : BackReference}
    (isTree : automaton.tree? id = some treeNode)
    (content : treeNode.node = .leaf (.backReference reference))
    (called : ∃ group, automaton.Called reference group) :
    ∃ group, automaton.Means reference group ∧
      automaton.resolveReferences.automaton.tree? id = some
        { treeNode with
          node := .leaf (.backReference { reference with group := some group }) } := by
  obtain ⟨group, found⟩ := exists_target?_iff.mpr called
  have isReference := reference?_eq_some_iff.mpr ⟨treeNode, isTree, content⟩
  have means : automaton.meant? id = some group := by
    rw [meant?, isReference, Option.bind_some, found]
  refine ⟨group, means_of_target? found, ?_⟩
  rw [tree?_eq_some_iff, state?_resolveReferences, resolvedState?, means,
    tree?_eq_some_iff.mp isTree]
  simp [State.referringTo, content]

/-- Everything else stays as it is. -/
theorem state?_resolveReferences_of_uncalled
    (uncalled : ∀ reference, automaton.reference? id = some reference →
      ∀ group, ¬ automaton.Called reference group) :
    automaton.resolveReferences.automaton.state? id = automaton.state? id := by
  have meansNone : automaton.meant? id = none := by
    rw [← Option.not_isSome_iff_eq_none, isSome_meant?_iff]
    rintro ⟨reference, isReference, group, called⟩
    exact uncalled reference isReference group called
  rw [state?_resolveReferences, resolvedState?, meansNone]

end

theorem resolveReferences_congr {first second : Automaton}
    (same : first.resolveEach first.ids = second.resolveEach second.ids) :
    first.resolveReferences = second.resolveReferences := by
  rw [resolveReferences, same, resolveReferences]

theorem resolveReferences_again (automaton : Automaton) :
    automaton.resolveReferences.automaton.resolveReferences = automaton.resolveReferences := by
  have size : automaton.resolveReferences.automaton.size = automaton.size :=
    (relinked_resolveEach automaton automaton.ids).size
  refine resolveReferences_congr ?_
  rw [ids_of_size size]
  exact resolveEach_again automaton

/-- Whatever numbers and names the groups have and whatever the references were linked to before,
resolving links each reference to the last group that it calls for and nothing else, reports how
many there are and which ones are lost, and has nothing left to do afterwards. -/
theorem references_resolved (automaton : Automaton) :
    automaton.Resolution automaton.resolveReferences := by
  obtain ⟨-, count, records⟩ := resolvedAmong_all automaton
  have relinked := relinked_resolveEach automaton automaton.ids
  refine {
    source := relinked.keeps.source
    size := relinked.size
    linked := tree?_resolveReferences_of_called
    kept := state?_resolveReferences_of_uncalled
    report := ⟨automaton.ids.filter fun id => (automaton.meant? id).isSome,
      automaton.ids.filter automaton.isLost, automaton.nodup_ids.filter _,
      (ids_ascending automaton).filter _, fun id => ?_, fun id => ?_, ?_, ?_⟩
    again := resolveReferences_again automaton }
  · rw [List.mem_filter, isSome_meant?_iff]
    exact and_iff_right_of_imp fun ⟨_, isReference, _⟩ => mem_ids_of_reference? isReference
  · rw [List.mem_filter, isLost_iff]
    exact and_iff_right_of_imp fun ⟨_, isReference, _⟩ => mem_ids_of_reference? isReference
  · exact congrArg Except.ok count
  · rw [← count, ← records]
    rfl

end Automaton

end PatternGraph
