/-
This file proves that finishing succeeds on trees and only on trees. One direction is a fact about
finished patterns: what was linked without a fault is a tree below the root. For the other direction
the calls of a run have to name their children in an orderly way, each child an existing tree node
that was named nowhere before. Then the arena is a forest at all times, and linking never comes to a
node that is linked already, because the only one to ask for the link of a node is its one parent.
-/

import PatternGraph.Proofs.Finish

namespace PatternGraph

open scoped List

namespace Automaton

/-! ### Forests -/

/-- Every child in the arena is a tree node and is named at one place, and the account of links is
balanced. -/
structure Forest (automaton : Automaton) : Prop where
  balanced : automaton.Balanced [] []
  nodup : automaton.offspring.Nodup
  exists_tree {child : StateId} : child ∈ automaton.offspring →
    ∃ treeNode, automaton.tree? child = some treeNode

/-- The children are tree nodes of the automaton, and no node names any of them yet. -/
def NewChildren (automaton : Automaton) (children : List StateId) : Prop :=
  ∀ child ∈ children,
    (∃ treeNode, automaton.tree? child = some treeNode) ∧ ∀ parent, ¬ automaton.Child parent child

/-- Moreover no child is named twice. -/
def FreshChildren (automaton : Automaton) (children : List StateId) : Prop :=
  children.Nodup ∧ automaton.NewChildren children

/-- Every node that the calls build names only children that are admitted at that time. -/
def Orderly (admits : Automaton → List StateId → Prop) (automaton : Automaton) : List Call → Prop
  | [] => True
  | call :: rest =>
    admits automaton call.children ∧ Orderly admits (automaton.perform call).automaton rest

theorem mem_offspring {automaton : Automaton} {child : StateId} :
    child ∈ automaton.offspring ↔ ∃ parent, automaton.Child parent child := by
  rw [offspring, mem_gather]
  refine exists_congr fun parent => ⟨?_, ?_⟩
  · rintro ⟨state, found, member⟩
    cases state with
    | tree treeNode => exact ⟨treeNode, tree?_eq_some_iff.mpr found, member⟩
    | _ => cases member
  · rintro ⟨treeNode, isTree, member⟩
    exact ⟨.tree treeNode, tree?_eq_some_iff.mp isTree, member⟩

theorem newChildren_iff {automaton : Automaton} {children : List StateId} :
    automaton.NewChildren children ↔
      ∀ child ∈ children, (automaton.tree? child).isSome ∧ child ∉ automaton.offspring := by
  simp only [NewChildren, mem_offspring, not_exists, Option.isSome_iff_exists]

instance (automaton : Automaton) (children : List StateId) :
    Decidable (automaton.NewChildren children) := decidable_of_iff _ newChildren_iff.symm

instance (automaton : Automaton) (children : List StateId) :
    Decidable (automaton.FreshChildren children) :=
  inferInstanceAs (Decidable (_ ∧ _))

instance decidableOrderly (admits : Automaton → List StateId → Prop)
    [∀ automaton children, Decidable (admits automaton children)] :
    ∀ (automaton : Automaton) (calls : List Call), Decidable (Orderly admits automaton calls)
  | _, [] => inferInstanceAs (Decidable True)
  | automaton, call :: rest =>
    have := decidableOrderly admits (automaton.perform call).automaton rest
    inferInstanceAs (Decidable (_ ∧ _))

theorem FreshChildren.nodup_append {automaton : Automaton} {children : List StateId}
    (fresh : automaton.FreshChildren children) (nodup : automaton.offspring.Nodup) :
    (automaton.offspring ++ children).Nodup := by
  refine List.nodup_append.mpr ⟨nodup, fresh.1, fun child named other member same => ?_⟩
  subst same
  obtain ⟨parent, isChild⟩ := mem_offspring.mp named
  exact (fresh.2 child member).2 parent isChild

/-! ### Linking a forest -/

/-- The handle still names a tree node after a link. -/
theorem LinkFrame.exists_tree {before after : Automaton} {link : Link} {treeNode : TreeNode}
    (frame : LinkFrame before link treeNode after) {id : StateId}
    (was : ∃ original, before.tree? id = some original) :
    ∃ linked, after.tree? id = some linked := by
  by_cases same : id = link.node
  · obtain ⟨continuation, stored⟩ := frame.stored
    exact ⟨_, same ▸ tree?_eq_some_iff.mpr stored⟩
  · rwa [frame.tree?_of_ne same]

theorem exists_tree_linkAll {automaton : Automaton} {links : List Link}
    (linked : (automaton.linkAll links).answer = .ok ()) {id : StateId}
    (was : ∃ original, automaton.tree? id = some original) :
    ∃ treeNode, (automaton.linkAll links).automaton.tree? id = some treeNode :=
  linkAll_steps (motive := fun after _ => ∃ treeNode, after.tree? id = some treeNode)
    (fun _ step held => step.toLinkFrame.exists_tree held) was linked

theorem claims_subperm_offspring (automaton : Automaton) :
    automaton.claims.Subperm automaton.offspring := by
  unfold claims offspring gather
  induction automaton.states.toList with
  | nil => exact List.Subperm.refl _
  | cons state rest inductionHypothesis =>
    exact state.claims_subperm_children.append inductionHypothesis

/-- What holds of the arena while links that are owed to distinct tree nodes are made. -/
structure Linking (automaton : Automaton) (owed : List StateId) (pending : List Link) : Prop where
  balanced : automaton.Balanced owed pending
  nodup : (automaton.offspring ++ owed).Nodup
  exists_tree {id : StateId} : id ∈ automaton.offspring ++ owed →
    ∃ treeNode, automaton.tree? id = some treeNode

theorem Linking.step {before after : Automaton} {link : Link} {treeNode : TreeNode}
    {brought pending : List Link} {owed : List StateId}
    (linking : before.Linking owed (link :: pending))
    (linkable : before.linkable link.node = .ok treeNode)
    (made : before.linkNode link treeNode.node = (after, brought)) :
    after.Linking owed (brought ++ pending) := by
  have step := linkStep_linkNode (linkable_eq_ok_iff.mp linkable).1
  have same := offspring_linkNode linkable
  rw [made] at step same
  refine ⟨linking.balanced.step linkable made, same ▸ linking.nodup, fun {id} member => ?_⟩
  rw [same] at member
  exact step.toLinkFrame.exists_tree (linking.exists_tree member)

/-- The next node to be linked is a tree node, and it is not linked yet: its claim is the one that
is pending, and no other claim names it. -/
theorem Linking.linkable {automaton : Automaton} {owed : List StateId} {link : Link}
    {pending : List Link} (linking : automaton.Linking owed (link :: pending)) :
    ∃ treeNode, automaton.linkable link.node = .ok treeNode := by
  obtain ⟨met, -, linked, account⟩ := linking.balanced
  have below : (automaton.claims ++ owed).Subperm (automaton.offspring ++ owed) :=
    automaton.claims_subperm_offspring.append (List.Subperm.refl owed)
  have nodup : (link.node :: (pending.map Link.node ++ met)).Nodup := by
    obtain ⟨claimed, reordered, sublist⟩ := below
    exact account.nodup_iff.mp (reordered.nodup_iff.mp (linking.nodup.sublist sublist))
  have member : link.node ∈ automaton.claims ++ owed :=
    account.mem_iff.mpr List.mem_cons_self
  obtain ⟨treeNode, isTree⟩ := linking.exists_tree (below.subset member)
  refine ⟨treeNode, linkable_eq_ok_iff.mpr ⟨tree?_eq_some_iff.mp isTree, ?_⟩⟩
  refine Bool.eq_false_iff.mpr fun isLinked => ?_
  have isMet : link.node ∈ met := (linked link.node).mpr ⟨treeNode, isTree, isLinked⟩
  exact (List.nodup_cons.mp nodup).1 (List.mem_append_right _ isMet)

theorem Linking.linkAll {automaton : Automaton} {owed : List StateId} {links : List Link}
    (linking : automaton.Linking owed links) :
    (automaton.linkAll links).answer = .ok () ∧
      (automaton.linkAll links).automaton.Linking owed [] ∧
      (automaton.linkAll links).automaton.offspring = automaton.offspring := by
  have answered : (automaton.linkAll links).answer = .ok () :=
    linkAll_answer (motive := fun automaton pending => automaton.Linking owed pending)
      (fun _ _ _ _ _ _ linkable made held => held.step linkable made)
      (fun _ _ _ held => held.linkable) linking
  refine ⟨answered, ?_, ?_⟩
  · exact linkAll_induction (motive := fun automaton pending => automaton.Linking owed pending)
      (fun _ _ _ _ _ _ linkable made held => held.step linkable made) linking answered
  · refine linkAll_induction (motive := fun after _ => after.offspring = automaton.offspring)
      (fun before link treeNode after brought pending linkable made held => ?_) rfl answered
    have same := offspring_linkNode linkable
    rw [made] at same
    exact same.trans held

/-! ### Building a forest -/

/-- An assembly can be made whenever the children that are asked for are tree nodes. -/
theorem exists_assembly {automaton : Automaton} {construction : Construction}
    (exists_tree : ∀ child ∈ construction.form.children,
      ∃ treeNode, automaton.tree? child = some treeNode) :
    ∃ assembly, automaton.assemble construction = .ok assembly := by
  have body (element : StateId) (member : element ∈ construction.form.children) :
      ∃ body, automaton.groupBody construction.range element = .ok body := by
    obtain ⟨treeNode, isTree⟩ := exists_tree element member
    rw [groupBody, tree_eq_ok_iff.mpr isTree]
    exact ⟨_, rfl⟩
  unfold assemble
  cases form : construction.form with
  | capturingGroup name number element =>
    obtain ⟨body, built⟩ := body element (by simp [form])
    simp [built, Except.map]
  | nonCapturingGroup enabled disabled element =>
    cases element with
    | none => exact ⟨_, rfl⟩
    | some element =>
      obtain ⟨body, built⟩ := body element (by simp [form])
      simp [built, Except.map]
  | atomicGroup element =>
    obtain ⟨body, built⟩ := body element (by simp [form])
    simp [built, Except.map]
  | lookAround polarity direction element =>
    obtain ⟨body, built⟩ := body element (by simp [form])
    simp [built, Except.map]
  | _ => exact ⟨_, rfl⟩

theorem map_node_chain_sublist (form : Form) :
    (form.chain.map Link.node).Sublist form.children := by
  cases form with
  | sequence items =>
    rw [Form.chain, map_node_chain]
    exact List.dropLast_sublist items
  | _ => exact List.nil_sublist _

/-- What a placed assembly names is what was asked for. -/
theorem flatMap_children_states {automaton : Automaton} {construction : Construction}
    {assembly : Assembly} (sound : SoundAssembly automaton construction assembly) :
    (assembly.states construction).flatMap State.children = construction.form.children := by
  have none {states : List State}
      (glue : ∀ state ∈ states, state ∈ assembly.lead ++ assembly.close) :
      states.flatMap State.children = [] := by
    refine List.flatMap_eq_nil_iff.mpr fun state member => ?_
    have isGlue := tree?_of_owner? (sound.glue (glue state member)).1
    cases state with
    | tree treeNode => cases isGlue
    | _ => rfl
  rw [Assembly.states, List.flatMap_append, List.flatMap_cons,
    none fun state member => List.mem_append_left _ member,
    none fun state member => List.mem_append_right _ member]
  simp [State.children, sound.children]

/-- Fresh children can always be given to a new node, and the arena stays a forest. -/
theorem Forest.construct {automaton : Automaton} (forest : automaton.Forest)
    {construction : Construction}
    (fresh : automaton.FreshChildren construction.form.children) :
    (∃ id, (automaton.construct construction).answer = .ok id) ∧
      (automaton.construct construction).automaton.Forest := by
  have apart := fresh.nodup_append forest.nodup
  have named {id : StateId} (member : id ∈ automaton.offspring ++ construction.form.children) :
      ∃ treeNode, automaton.tree? id = some treeNode := by
    rcases List.mem_append.mp member with old | new
    · exact forest.exists_tree old
    · exact (fresh.2 id new).1
  have sublist := map_node_chain_sublist construction.form
  have chaining : automaton.Linking (construction.form.chain.map Link.node ++ [])
      construction.form.chain := by
    refine ⟨forest.balanced.owe _, ?_, fun {id} member => named ?_⟩
    · rw [List.append_nil]
      exact apart.sublist (sublist.append_left _)
    · rw [List.append_nil] at member
      exact (sublist.append_left _).subset member
  obtain ⟨chained, afterChain, chainOffspring⟩ := chaining.linkAll
  have stillNamed {id : StateId}
      (member : id ∈ automaton.offspring ++ construction.form.children) :
      ∃ treeNode, (automaton.linkAll construction.form.chain).automaton.tree? id =
        some treeNode := exists_tree_linkAll chained (named member)
  obtain ⟨assembly, assembled⟩ := exists_assembly fun child member =>
    stillNamed (List.mem_append_right _ member)
  have sound := soundAssembly assembled
  have placedOffspring : ((automaton.linkAll construction.form.chain).automaton.place construction
      assembly).offspring = automaton.offspring ++ construction.form.children := by
    rw [offspring, place, gather_pushAll, flatMap_children_states sound, ← offspring,
      chainOffspring]
  have placed : ((automaton.linkAll construction.form.chain).automaton.place construction
      assembly).Linking [] assembly.links := by
    refine ⟨afterChain.balanced.place sound, ?_, fun {id} member => ?_⟩
    · rwa [List.append_nil, placedOffspring]
    · rw [List.append_nil, placedOffspring] at member
      obtain ⟨treeNode, isTree⟩ := stillNamed member
      exact ⟨treeNode, tree?_eq_some_iff.mpr
        (state?_pushAll_of_some (tree?_eq_some_iff.mp isTree) _)⟩
  obtain ⟨linked, finished, -⟩ := placed.linkAll
  refine ⟨⟨_, construct_eq_ok_iff.mpr ⟨chained, assembly, assembled, linked, rfl⟩⟩, ?_⟩
  rw [automaton_construct chained assembled]
  exact ⟨finished.balanced, by simpa using finished.nodup,
    fun member => finished.exists_tree (List.mem_append_left _ member)⟩

theorem Forest.regrouped {automaton : Automaton} (forest : automaton.Forest) (changed : StateId)
    (group : Option StateId) : (automaton.regrouped changed group).Forest := by
  have same : (automaton.regrouped changed group).offspring = automaton.offspring := by
    refine gather_regrouped _ _ _ _ fun state => ?_
    cases state with
    | tree treeNode =>
      rcases referringTo_tree group treeNode with unchanged | ⟨reference, other, content, changes⟩
      · rw [unchanged]
      · rw [changes, State.children, State.children, content]
        rfl
    | _ => rfl
  refine ⟨forest.balanced.regrouped changed group, same ▸ forest.nodup, fun {child} member => ?_⟩
  obtain ⟨treeNode, isTree⟩ := forest.exists_tree (same ▸ member)
  rcases tree?_regrouped isTree changed group with kept | ⟨reference, other, -, now⟩
  · exact ⟨treeNode, kept⟩
  · exact ⟨_, now⟩

theorem forest_ofSource (source : Source) : (ofSource source).Forest :=
  ⟨balanced_ofSource source, List.nodup_nil, fun member => absurd member List.not_mem_nil⟩

/-- A call that names fresh children only is carried out, and the arena stays a forest. -/
theorem Forest.perform {automaton : Automaton} (forest : automaton.Forest) {call : Call}
    (fresh : automaton.FreshChildren call.children) :
    (∃ answer, (automaton.perform call).answer = .ok answer) ∧
      (automaton.perform call).automaton.Forest := by
  cases call with
  | construct construction =>
    obtain ⟨⟨id, constructed⟩, after⟩ := forest.construct fresh
    refine ⟨⟨some id, ?_⟩, after⟩
    rw [Automaton.perform, constructed]
    rfl
  | setGroup reference group =>
    exact ⟨⟨none, rfl⟩, setGroup_preserves (fun _ id group held => held.regrouped id group) forest
      reference group⟩
  | resolve =>
    exact ⟨⟨none, rfl⟩, resolveEach_preserves (fun _ id group held => held.regrouped id group)
      forest automaton.ids⟩

/-- Orderly calls are all carried out. -/
theorem Forest.performAll {automaton : Automaton} (forest : automaton.Forest) {calls : List Call}
    (orderly : Orderly FreshChildren automaton calls) :
    (automaton.performAll calls).answer = .ok () ∧
      (automaton.performAll calls).automaton.Forest := by
  induction calls generalizing automaton with
  | nil => exact ⟨rfl, forest⟩
  | cons call rest inductionHypothesis =>
    obtain ⟨fresh, later⟩ := orderly
    obtain ⟨⟨answer, performed⟩, after⟩ := forest.perform fresh
    rw [Automaton.performAll, performed]
    exact inductionHypothesis after later

/-- Finishing succeeds at every tree node of a forest that is no child. -/
theorem Forest.finish {automaton : Automaton} (forest : automaton.Forest) {root : StateId}
    (isTree : ∃ treeNode, automaton.tree? root = some treeNode)
    (isRoot : ∀ parent, ¬ automaton.Child parent root) (flags : FlagSet) :
    ∃ pattern, (automaton.finish root flags).answer = .ok pattern := by
  have framed : (automaton.framed root flags).offspring = automaton.offspring := by
    rw [offspring, framed, gather_pushAll]
    exact List.append_nil _
  have owing : automaton.Balanced ([] ++ [root]) [⟨root, automaton.nextId⟩] :=
    forest.balanced.owe [⟨root, automaton.nextId⟩]
  have linking : (automaton.framed root flags).Linking [root] [⟨root, automaton.nextId⟩] := by
    refine ⟨owing.append rfl fun member => by simp at member, ?_, fun {id} member => ?_⟩
    · rw [framed]
      refine List.nodup_append.mpr ⟨forest.nodup, List.nodup_singleton _, ?_⟩
      intro child named other member same
      obtain ⟨parent, isChild⟩ := mem_offspring.mp named
      rw [same, List.mem_singleton.mp member] at isChild
      exact isRoot parent isChild
    · rw [framed] at member
      have was : ∃ treeNode, automaton.tree? id = some treeNode := by
        rcases List.mem_append.mp member with named | owed
        · exact forest.exists_tree named
        · exact List.mem_singleton.mp owed ▸ isTree
      obtain ⟨treeNode, found⟩ := was
      exact ⟨treeNode, tree?_eq_some_iff.mpr
        (state?_pushAll_of_some (tree?_eq_some_iff.mp found) _)⟩
  exact ⟨_, finish_eq_ok_iff.mpr ⟨isTree, linking.linkAll.1, rfl⟩⟩

theorem size_le_linkNode (automaton : Automaton) (link : Link) (node : Node) :
    automaton.size ≤ (automaton.linkNode link node).1.size := by
  obtain ⟨stored, kind, made⟩ := automaton.automaton_linkNode link node
  have grown : automaton.size ≤ stored.size := by
    rcases kind with rfl | rfl
    · rw [size_store]
    · rw [closeRepetition, size_store, size_push]
      exact Nat.le_succ _
  rcases made with same | ⟨choices, same⟩
  · rwa [same]
  · rw [same, size_push]
    exact grown.trans (Nat.le_succ _)

theorem size_le_linkAll (automaton : Automaton) (links : List Link) :
    automaton.size ≤ (automaton.linkAll links).automaton.size :=
  linkAll_keeps (motive := fun before after => before.size ≤ after.size)
    (fun automaton => Nat.le_refl automaton.size)
    (fun _ grown => (size_le_linkNode _ _ _).trans grown) automaton links

theorem size_le_finish (automaton : Automaton) (root : StateId) (flags : FlagSet) :
    automaton.size ≤ (automaton.finish root flags).automaton.size := by
  have framed : automaton.size ≤
      ((automaton.framed root flags).linkAll [⟨root, automaton.nextId⟩]).automaton.size := by
    refine Nat.le_trans ?_ (size_le_linkAll _ _)
    rw [Automaton.framed, size_pushAll]
    exact Nat.le_add_right _ _
  unfold finish
  split
  · exact Nat.le_refl _
  · dsimp only
    split <;> exact framed

end Automaton

/-! ### Finishing and trees -/

/-- Finishing succeeds on trees only: the node that was asked for becomes the root, and the child
links below it form a tree. Conversely, if every node is named as a child at most once and only
after it was built, no call fails, and finishing succeeds at each tree node that is no child. -/
theorem finish_returns_of_tree (source : Source) (calls : List Call) (root : StateId)
    (flags : FlagSet) :
    let built := (Automaton.ofSource source).performAll calls
    let finished := built.automaton.finish root flags
    (∀ pattern, built.Returns () → finished.Returns pattern →
      pattern.root = root ∧ pattern.automaton.IsTree root) ∧
    ((Automaton.ofSource source).Orderly Automaton.FreshChildren calls →
      (∃ treeNode, built.automaton.tree? root = some treeNode) →
      (∀ parent, ¬ built.automaton.Child parent root) →
      finished.automaton.size < StateId.bound →
        built.Returns () ∧ ∃ pattern, finished.Returns pattern) := by
  intro built finished
  refine ⟨fun pattern performed answered => ?_, fun orderly isTree isRoot small => ?_⟩
  · have sound : pattern.Sound :=
      Automaton.sound_of_finish (Automaton.jointed_performAll performed.1)
        (Automaton.balanced_performAll performed.1) answered.1
    have same : pattern.root = root := by
      obtain ⟨-, -, rfl⟩ := Automaton.finish_eq_ok_iff.mp answered.1
      rfl
    exact ⟨same, same ▸ sound.isTree⟩
  · obtain ⟨performed, forest⟩ := (Automaton.forest_ofSource source).performAll orderly
    obtain ⟨pattern, answered⟩ := forest.finish isTree isRoot flags
    have grown : built.automaton.size ≤ finished.automaton.size :=
      Automaton.size_le_finish built.automaton root flags
    exact ⟨⟨performed, by omega⟩, pattern, answered, by omega⟩

theorem loop_returns_of_tree :
    let built := (Automaton.ofSource loopSource).performAll loopCalls
    let finished := built.automaton.finish ⟨9⟩ .empty
    built.Returns () ∧ ∃ pattern, finished.Returns pattern ∧ pattern.root = ⟨9⟩ ∧
      pattern.automaton.IsTree ⟨9⟩ := by
  intro built finished
  have isTree : built.automaton.tree? ⟨9⟩ |>.isSome := by decide +kernel
  have isRoot : (⟨9⟩ : StateId) ∉ built.automaton.offspring := by decide +kernel
  obtain ⟨onTrees, onForests⟩ := finish_returns_of_tree loopSource loopCalls ⟨9⟩ .empty
  obtain ⟨performed, pattern, answered⟩ := onForests (by decide +kernel)
    (Option.isSome_iff_exists.mp isTree)
    (fun parent named => isRoot (Automaton.mem_offspring.mpr ⟨parent, named⟩)) (by decide +kernel)
  exact ⟨performed, pattern, answered, onTrees pattern performed answered⟩

/-- The calls that build a sequence of one node twice. -/
def twiceCalls : List Call :=
  [.construct ⟨⟨0, 1⟩, .empty, .leaf (.character ⟨97, false⟩)⟩,
    .construct ⟨⟨0, 1⟩, .empty, .sequence [⟨0⟩, ⟨0⟩]⟩]

/-- It is not enough that no two nodes name the same child, since one node may name it twice, and
it has to be a node that is finished. -/
theorem twice_named_or_absent_refused :
    let built := (Automaton.ofSource ⟨"a", .java, []⟩).performAll twiceCalls
    (Automaton.ofSource ⟨"a", .java, []⟩).Orderly Automaton.NewChildren twiceCalls ∧
      built.Returns () ∧
      (∃ treeNode, built.automaton.tree? ⟨1⟩ = some treeNode) ∧
      (∀ parent, ¬ built.automaton.Child parent ⟨1⟩) ∧
      (built.automaton.finish ⟨1⟩ .empty).answer.map (fun _ => ()) =
        .error (.alreadyLinked ⟨0⟩) ∧
      (∀ parent, ¬ built.automaton.Child parent ⟨2⟩) ∧
      (built.automaton.finish ⟨2⟩ .empty).answer.map (fun _ => ()) = .error (.notTree ⟨2⟩) := by
  intro built
  have isRoot (id : StateId) (absent : id ∉ built.automaton.offspring) (parent : StateId) :
      ¬ built.automaton.Child parent id :=
    fun named => absent (Automaton.mem_offspring.mpr ⟨parent, named⟩)
  have performed : built.answer = .ok () := by decide +kernel
  have small : built.automaton.size ≤ StateId.bound := by decide +kernel
  refine ⟨by decide +kernel, ⟨performed, small⟩, Option.isSome_iff_exists.mp (by decide +kernel),
    isRoot ⟨1⟩ (by decide +kernel), by decide +kernel, isRoot ⟨2⟩ (by decide +kernel),
    by decide +kernel⟩

end PatternGraph
