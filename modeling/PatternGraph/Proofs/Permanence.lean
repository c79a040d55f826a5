/-
This file proves that a state stays what it is once it was built. Whatever is asked of an automaton
afterwards, and wherever that fails, each state is found under the handle it had, with the kind, the
range, the flags and the payload it had, and glue with all its fields. Only two things may have
changed: a tree node without continuation may have received one, and a back-reference may refer to
another group. A continuation that is set is there for good.

A failure gives nothing up that was done before it, so what is said of linking has to be said of
every point at which it may stop. It is therefore proved by `linkAll_keeps`, from what one link
keeps, and not by `linkAll_induction`, which needs work that comes to its end.
-/

import PatternGraph.Proofs.Finish

namespace PatternGraph

/-- What can be asked of an automaton. A node that cannot be written, such as a class that lacks its
property, is refused before anything is built. -/
inductive Operation
  | build (asked : Except SyntaxFault Construction)
  | setGroup (reference : StateId) (group : Option StateId)
  | resolve
  | link (id next : StateId)
  | finish (root : StateId) (flags : FlagSet)

namespace Operation

/-- Whether the operation may set continuations. -/
def links : Operation → Bool
  | build _ | link .. | finish .. => true
  | setGroup .. | resolve => false

/-- Whether the operation may change the groups of back-references. -/
def regroups : Operation → Bool
  | setGroup .. | resolve => true
  | build _ | link .. | finish .. => false

end Operation

namespace Automaton

/-- The automaton that an operation leaves, whether it succeeds or fails. -/
def after (automaton : Automaton) : Operation → Automaton
  | .build (.ok construction) => (automaton.construct construction).automaton
  | .build (.error _) => automaton
  | .setGroup reference group => (automaton.setGroup reference group).toOption.getD automaton
  | .resolve => automaton.resolveReferences.automaton
  | .link id next => (automaton.setContinuation id next).automaton
  | .finish root flags => (automaton.finish root flags).automaton

/-- The automaton after some operations, the first of them carried out first. A failure ends
nothing but the operation that failed. -/
def afterAll (automaton : Automaton) (operations : List Operation) : Automaton :=
  operations.foldl after automaton

end Automaton

/-! ### What may become of a state -/

/-- What may become of a tree node: nothing, or it may receive a continuation if there are links to
be made, and refer to another group if groups are to be set. -/
structure TreeNode.Evolves (links regroups : Bool) (before after : TreeNode) : Prop where
  range : after.range = before.range
  flags : after.flags = before.flags
  node : after.node = before.node ∨ regroups ∧ ∃ reference group,
    before.node = .leaf (.backReference reference) ∧
      after.node = .leaf (.backReference { reference with group })
  continuation : after.continuation = before.continuation ∨ links ∧ before.continuation = none

/-- What may become of a state. Glue stays the same. -/
inductive State.Evolves (links regroups : Bool) : State → State → Prop
  | glue {state : State} (glue : state.tree? = none) : Evolves links regroups state state
  | tree {before after : TreeNode} (evolves : before.Evolves links regroups after) :
    Evolves links regroups (.tree before) (.tree after)

/-- Every state is still there, and no more has become of it than may. -/
structure Automaton.Keeps (links regroups : Bool) (before after : Automaton) : Prop where
  source : after.source = before.source
  state {id : StateId} {state : State} : before.state? id = some state →
    ∃ later, after.state? id = some later ∧ state.Evolves links regroups later

section

variable {links regroups : Bool}

theorem TreeNode.Evolves.refl (treeNode : TreeNode) :
    treeNode.Evolves links regroups treeNode :=
  ⟨rfl, rfl, Or.inl rfl, Or.inl rfl⟩

theorem TreeNode.Evolves.trans {before between after : TreeNode}
    (first : before.Evolves links regroups between)
    (second : between.Evolves links regroups after) : before.Evolves links regroups after where
  range := second.range.trans first.range
  flags := second.flags.trans first.flags
  node := by
    rcases first.node with same | ⟨allowed, reference, group, was, became⟩
    · rw [← same]
      exact second.node
    · rcases second.node with same | ⟨-, reference, other, between, became⟩
      · exact Or.inr ⟨allowed, _, group, was, same.trans became⟩
      · rename_i original becameFirst
        cases becameFirst.symm.trans between
        exact Or.inr ⟨allowed, original, other, was, became⟩
  continuation := by
    rcases first.continuation with same | ⟨allowed, unset⟩
    · rw [← same]
      exact second.continuation
    · exact Or.inr ⟨allowed, unset⟩

theorem TreeNode.Evolves.mono {before after : TreeNode}
    (evolves : before.Evolves links regroups after) {mayLink mayRegroup : Bool}
    (linking : links → mayLink) (regrouping : regroups → mayRegroup) :
    before.Evolves mayLink mayRegroup after :=
  ⟨evolves.range, evolves.flags, evolves.node.imp_right (And.imp_left regrouping),
    evolves.continuation.imp_right (And.imp_left linking)⟩

theorem State.Evolves.refl (state : State) : state.Evolves links regroups state := by
  cases state with
  | tree treeNode => exact .tree (.refl treeNode)
  | _ => exact .glue rfl

theorem State.Evolves.trans {before between after : State}
    (first : before.Evolves links regroups between)
    (second : between.Evolves links regroups after) : before.Evolves links regroups after := by
  cases first with
  | glue _ => exact second
  | tree evolves =>
    cases second with
    | glue glue => cases glue
    | tree further => exact .tree (evolves.trans further)

theorem State.Evolves.mono {before after : State} (evolves : before.Evolves links regroups after)
    {mayLink mayRegroup : Bool} (linking : links → mayLink) (regrouping : regroups → mayRegroup) :
    before.Evolves mayLink mayRegroup after := by
  cases evolves with
  | glue glue => exact .glue glue
  | tree evolves => exact .tree (evolves.mono linking regrouping)

namespace Automaton

theorem Keeps.refl (automaton : Automaton) : automaton.Keeps links regroups automaton :=
  ⟨rfl, fun found => ⟨_, found, .refl _⟩⟩

theorem Keeps.trans {before between after : Automaton}
    (first : before.Keeps links regroups between) (second : between.Keeps links regroups after) :
    before.Keeps links regroups after := by
  refine ⟨second.source.trans first.source, fun found => ?_⟩
  obtain ⟨middle, foundBetween, evolves⟩ := first.state found
  obtain ⟨later, foundLater, further⟩ := second.state foundBetween
  exact ⟨later, foundLater, evolves.trans further⟩

theorem Keeps.mono {before after : Automaton} (keeps : before.Keeps links regroups after)
    {mayLink mayRegroup : Bool} (linking : links → mayLink) (regrouping : regroups → mayRegroup) :
    before.Keeps mayLink mayRegroup after := by
  refine ⟨keeps.source, fun found => ?_⟩
  obtain ⟨later, foundLater, evolves⟩ := keeps.state found
  exact ⟨later, foundLater, evolves.mono linking regrouping⟩

/-- A continuation that is set keeps its value. -/
theorem Keeps.continuation {before after : Automaton} (keeps : before.Keeps links regroups after)
    {id next : StateId} {treeNode : TreeNode} (isTree : before.tree? id = some treeNode)
    (continues : treeNode.continuation = some next) :
    ∃ later, after.tree? id = some later ∧ later.continuation = some next := by
  obtain ⟨later, found, evolves⟩ := keeps.state (tree?_eq_some_iff.mp isTree)
  cases evolves with
  | glue glue => cases glue
  | @tree _ later evolves =>
    refine ⟨later, tree?_eq_some_iff.mpr found, ?_⟩
    rcases evolves.continuation with same | ⟨-, unset⟩
    · exact same.trans continues
    · cases continues.symm.trans unset

/-! ### Adding and linking -/

theorem keeps_pushAll (automaton : Automaton) (states : List State) :
    automaton.Keeps links regroups (automaton.pushAll states) := by
  refine ⟨?_, fun found => ⟨_, state?_pushAll_of_some found states, .refl _⟩⟩
  induction states generalizing automaton with
  | nil => rfl
  | cons state rest inductionHypothesis => exact inductionHypothesis (automaton.push state)

theorem source_linkNode (automaton : Automaton) (link : Link) (node : Node) :
    (automaton.linkNode link node).1.source = automaton.source := by
  obtain ⟨stored, isStored, same | ⟨choices, same⟩⟩ := automaton_linkNode automaton link node
  all_goals
    rw [same]
    rcases isStored with rfl | rfl <;> rfl

/-- A link leaves every other state alone, and the node it links had no continuation. -/
theorem keeps_linkNode {automaton : Automaton} {link : Link} {treeNode : TreeNode}
    (linkable : automaton.linkable link.node = .ok treeNode) :
    automaton.Keeps true regroups (automaton.linkNode link treeNode.node).1 := by
  obtain ⟨present, unlinked⟩ := linkable_eq_ok_iff.mp linkable
  have frame := (linkStep_linkNode present).toLinkFrame
  refine ⟨source_linkNode automaton link treeNode.node, fun {id state} found => ?_⟩
  by_cases same : id = link.node
  · subst same
    cases found.symm.trans present
    obtain ⟨continuation, stored⟩ := frame.stored
    have unset : treeNode.continuation = none := by simpa [TreeNode.isLinked] using unlinked
    exact ⟨_, stored, .tree ⟨rfl, rfl, Or.inl rfl, Or.inr ⟨rfl, unset⟩⟩⟩
  · exact ⟨state, frame.kept found same, .refl state⟩

/-- Linking keeps every state, wherever it stops. -/
theorem keeps_linkAll (automaton : Automaton) (links : List Link) :
    automaton.Keeps true regroups (automaton.linkAll links).automaton :=
  linkAll_keeps (motive := fun before after => before.Keeps true regroups after) Keeps.refl
    (fun linkable keeps => (keeps_linkNode linkable).trans keeps) automaton links

/-- So does construction: the chain of a sequence is linked, states are added behind all others, and
the sealed children are linked. -/
theorem keeps_construct (automaton : Automaton) (construction : Construction) :
    automaton.Keeps true regroups (automaton.construct construction).automaton := by
  have chained : automaton.Keeps true regroups
      (automaton.linkAll construction.form.chain).automaton := keeps_linkAll automaton _
  rw [construct_eq]
  dsimp only
  split
  · exact chained
  · split
    · exact chained.trans (keeps_pushAll _ _)
    · rename_i assembly _
      exact (chained.trans (keeps_pushAll _ _)).trans (keeps_linkAll _ assembly.links)

theorem keeps_finish (automaton : Automaton) (root : StateId) (flags : FlagSet) :
    automaton.Keeps true regroups (automaton.finish root flags).automaton := by
  have linked : automaton.Keeps true regroups
      ((automaton.framed root flags).setContinuation root automaton.nextId).automaton :=
    (keeps_pushAll automaton _).trans (keeps_linkAll _ _)
  unfold finish
  split
  · exact .refl automaton
  · dsimp only
    split
    · exact linked
    · exact linked

/-! ### Setting groups -/

/-- A new group is all that changes, and it changes in one back-reference. -/
theorem keeps_regrouped (automaton : Automaton) (changed : StateId) (group : Option StateId) :
    automaton.Keeps links true (automaton.regrouped changed group) := by
  refine ⟨rfl, fun {id state} found => ?_⟩
  rw [state?_regrouped, found, Option.map_some]
  split
  · refine ⟨_, rfl, ?_⟩
    cases state with
    | tree treeNode =>
      unfold State.referringTo
      dsimp only
      split
      · rename_i reference content
        exact .tree ⟨rfl, rfl, Or.inr ⟨rfl, reference, group, content, rfl⟩, Or.inl rfl⟩
      · exact .refl _
    | _ => exact .refl _
  · exact ⟨state, rfl, .refl state⟩

theorem keeps_setGroup (automaton : Automaton) (reference : StateId) (group : Option StateId) :
    automaton.Keeps links true ((automaton.setGroup reference group).toOption.getD automaton) :=
  setGroup_preserves (motive := fun after => automaton.Keeps links true after)
    (fun _ _ _ keeps => keeps.trans (keeps_regrouped _ _ _)) (.refl automaton) reference group

theorem keeps_resolveReferences (automaton : Automaton) :
    automaton.Keeps links true automaton.resolveReferences.automaton :=
  resolveEach_preserves (motive := fun after => automaton.Keeps links true after)
    (fun _ _ _ keeps => keeps.trans (keeps_regrouped _ _ _)) (.refl automaton) automaton.ids

/-! ### Operations -/

/-- What an operation does not say that it may do, it does not do. -/
theorem keeps_after (automaton : Automaton) (operation : Operation) :
    automaton.Keeps operation.links operation.regroups (automaton.after operation) := by
  cases operation with
  | build asked =>
    cases asked with
    | error fault => exact .refl automaton
    | ok construction => exact keeps_construct automaton construction
  | setGroup reference group => exact keeps_setGroup automaton reference group
  | resolve => exact keeps_resolveReferences automaton
  | link id next => exact keeps_linkAll automaton [⟨id, next⟩]
  | finish root flags => exact keeps_finish automaton root flags

theorem keeps_afterAll (automaton : Automaton) (operations : List Operation) :
    automaton.Keeps (operations.any Operation.links) (operations.any Operation.regroups)
      (automaton.afterAll operations) := by
  induction operations generalizing automaton with
  | nil => exact .refl automaton
  | cons operation rest inductionHypothesis =>
    rw [List.any_cons, List.any_cons]
    have first := (keeps_after automaton operation).mono
      (Bool.or_eq_true_iff.mpr ∘ Or.inl (b := rest.any Operation.links))
      (Bool.or_eq_true_iff.mpr ∘ Or.inl (b := rest.any Operation.regroups))
    refine first.trans ((inductionHypothesis (automaton.after operation)).mono ?_ ?_) <;>
      exact Bool.or_eq_true_iff.mpr ∘ Or.inr

end Automaton

end

/-- Built states are permanent. An operation, even if it fails, leaves every state under its handle
and as it was, but for the continuations and the groups that it may set; so does a run of
operations, whichever of them fail; and a continuation that is set is the same after every run. -/
theorem states_permanent (automaton : Automaton) :
    (∀ operation : Operation,
      automaton.Keeps operation.links operation.regroups (automaton.after operation)) ∧
    ∀ operations : List Operation,
      automaton.Keeps (operations.any Operation.links) (operations.any Operation.regroups)
        (automaton.afterAll operations) ∧
      ∀ (id next : StateId) (treeNode : TreeNode), automaton.tree? id = some treeNode →
        treeNode.continuation = some next →
        ∃ later, (automaton.afterAll operations).tree? id = some later ∧
          later.continuation = some next := by
  refine ⟨automaton.keeps_after, fun operations => ?_⟩
  have keeps := automaton.keeps_afterAll operations
  exact ⟨keeps, fun _ _ _ isTree continues => keeps.continuation isTree continues⟩

end PatternGraph
