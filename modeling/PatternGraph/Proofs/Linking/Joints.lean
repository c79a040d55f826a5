/-
This file proves that linking settles what follows every node. In all automata that a run can lead
to, and between any two links, each child that its parent has to link is followed by the right
state or waits to be linked to it. `Jointed` states this for the arena as a whole: sealed children
are settled as soon as their parent exists, open ones as soon as their parent is linked.

The relation that the rules of `SealedJoints` and `OpenJoints` are read with is `Promised`: followed
by, or pending to be linked to. A step of linking keeps a promise, since it fulfils the one at the
head of the pending links and makes others for the open children of the node. When nothing is
pending any more, every promise has become a fact.
-/

import PatternGraph.Proofs.Assembly
import PatternGraph.Proofs.Run

namespace PatternGraph

namespace Automaton

/-- Followed by a state, or pending to be linked to it. -/
def Promised (automaton : Automaton) (pending : List Link) (id next : StateId) : Prop :=
  automaton.FollowedBy id next ∨ ⟨id, next⟩ ∈ pending

/-- Every child that is linked by its parent has what follows it settled or pending, and every
lookaround is entered by way of its glue. -/
structure Jointed (automaton : Automaton) (pending : List Link) : Prop where
  sealedAt {id : StateId} {treeNode : TreeNode} : automaton.tree? id = some treeNode →
    automaton.SealedJoints (automaton.Promised pending) id treeNode.node
  openAt {id next : StateId} {treeNode : TreeNode} : automaton.tree? id = some treeNode →
    automaton.Continues id treeNode next →
      automaton.OpenJoints (automaton.Promised pending) id next treeNode
  enteredAt {id : StateId} {treeNode : TreeNode} : automaton.tree? id = some treeNode →
    automaton.Entered id treeNode.node

/-! ### Rules under a change of the arena -/

/-- Every glue state of the first automaton is in the second, unchanged. -/
def KeepsGlue (before after : Automaton) : Prop :=
  ∀ ⦃id : StateId⦄ ⦃state : State⦄, before.state? id = some state → state.tree? = none →
    after.state? id = some state

theorem KeepsGlue.refl (automaton : Automaton) : KeepsGlue automaton automaton :=
  fun _ _ found _ => found

section

variable {before after : Automaton} {follows followsAfter : StateId → StateId → Prop}
  (glue : KeepsGlue before after)
  (implies : ∀ {id next}, follows id next → followsAfter id next)

theorem Continues.mono {id next : StateId} {treeNode : TreeNode}
    (keepsEnd : ∀ {close}, before.state? close = some (.endOfRepetition id next) →
      after.state? close = some (.endOfRepetition id next))
    (continues : before.Continues id treeNode next) : after.Continues id treeNode next := by
  unfold Continues at continues ⊢
  cases content : treeNode.node with
  | repetition element quantifier =>
    simp only [content] at continues ⊢
    obtain ⟨close, stored, held⟩ := continues
    exact ⟨close, stored, keepsEnd held⟩
  | _ => simpa only [content] using continues

include glue

theorem Entered.mono {id : StateId} {node : Node} (entered : before.Entered id node) :
    after.Entered id node := by
  cases node with
  | lookAround body polarity direction entry =>
    cases polarity <;> cases direction
    · exact entered
    · exact glue entered rfl
    · exact glue entered rfl
    · obtain ⟨inner, outside, inside⟩ := entered
      exact ⟨inner, glue outside rfl, glue inside rfl⟩
  | _ => trivial

include implies

theorem SealedJoints.mono {id : StateId} {node : Node}
    (joints : before.SealedJoints follows id node) : after.SealedJoints followsAfter id node := by
  cases node with
  | sequence items => exact fun link member => implies (joints link member)
  | capturingGroup body name number =>
    obtain ⟨close, followed, held⟩ := joints
    exact ⟨close, implies followed, glue held rfl⟩
  | lookAround body polarity direction entry =>
    obtain ⟨close, followed, held⟩ := joints
    exact ⟨close, implies followed, glue held rfl⟩
  | conditional condition yes bar no =>
    obtain ⟨close, followed, others, held⟩ := joints
    exact ⟨close, implies followed, fun pattern member => implies (others pattern member),
      glue held rfl⟩
  | _ => trivial

theorem RepetitionJoint.mono {id close element : StateId} {quantifier : Quantifier}
    (joint : before.RepetitionJoint follows id close element quantifier) :
    after.RepetitionJoint followsAfter id close element quantifier := by
  unfold RepetitionJoint at joint ⊢
  split
  · rename_i once
    rw [if_pos once] at joint
    exact implies joint
  · rename_i repeats
    rw [if_neg repeats] at joint
    split
    · rename_i required
      rw [if_pos required] at joint
      obtain ⟨branch, followed, held⟩ := joint
      exact ⟨branch, implies followed, glue held rfl⟩
    · rename_i optional
      rw [if_neg optional] at joint
      exact implies joint

theorem OpenJoints.mono {id next : StateId} {treeNode : TreeNode}
    (joints : before.OpenJoints follows id next treeNode) :
    after.OpenJoints followsAfter id next treeNode := by
  unfold OpenJoints at joints ⊢
  cases content : treeNode.node with
  | sequence items =>
    simp only [content] at joints ⊢
    exact fun last member => implies (joints last member)
  | disjunction alternatives bars =>
    simp only [content] at joints ⊢
    exact fun alternative member => implies (joints alternative member)
  | nonCapturingGroup body enabled disabled =>
    simp only [content] at joints ⊢
    exact fun inner member => implies (joints inner member)
  | atomicGroup body =>
    simp only [content] at joints ⊢
    exact implies joints
  | repetition element quantifier =>
    simp only [content] at joints ⊢
    obtain ⟨close, stored, held, joint⟩ := joints
    exact ⟨close, stored, glue held rfl, joint.mono glue implies⟩
  | conditional condition yes bar no =>
    simp only [content] at joints ⊢
    obtain ⟨branch, followed, held⟩ := joints
    exact ⟨branch, implies followed, glue held rfl⟩
  | _ => trivial

end

/-! ### A step of linking -/

theorem linkable_eq_ok_iff {automaton : Automaton} {id : StateId} {treeNode : TreeNode} :
    automaton.linkable id = .ok treeNode ↔
      automaton.state? id = some (.tree treeNode) ∧ treeNode.isLinked = false := by
  refine ⟨state?_eq_of_linkable, fun ⟨present, unlinked⟩ => ?_⟩
  unfold linkable
  rw [tree?_eq_some_iff.mpr present]
  simp [unlinked]

section

variable {before after : Automaton} {link : Link} {treeNode : TreeNode}
  (present : before.state? link.node = some (.tree treeNode))
  (frame : LinkFrame before link treeNode after)

include present frame

theorem LinkFrame.keepsGlue : KeepsGlue before after := by
  intro id state found isGlue
  refine frame.kept found ?_
  rintro rfl
  cases found.symm.trans present
  cases isGlue

omit present in
/-- The other tree nodes are those that were there before. -/
theorem LinkFrame.tree?_of_ne {id : StateId} (other : id ≠ link.node) :
    after.tree? id = before.tree? id := by
  apply Option.ext
  intro found
  rw [tree?_eq_some_iff, tree?_eq_some_iff]
  refine ⟨fun now => ?_, fun held => frame.kept held other⟩
  cases was : before.state? id with
  | none =>
    rcases frame.added now was with ⟨choices, branch⟩ | close
    · cases branch
    · cases close
  | some state =>
    rw [← now]
    exact (frame.kept was other).symm

/-- No tree node is added or lost, and all nodes keep their kind. -/
theorem LinkFrame.node_of_tree? {id : StateId} {linked : TreeNode}
    (isTree : after.tree? id = some linked) :
    ∃ original, before.tree? id = some original ∧ original.node = linked.node := by
  by_cases same : id = link.node
  · subst same
    obtain ⟨continuation, stored⟩ := frame.stored
    cases (tree?_eq_some_iff.mp isTree).symm.trans stored
    exact ⟨treeNode, tree?_eq_some_iff.mpr present, rfl⟩
  · rw [frame.tree?_of_ne same] at isTree
    exact ⟨linked, isTree, rfl⟩

/-- What followed another node still does, and nothing new does. -/
theorem LinkFrame.continues_iff_of_ne {id next : StateId} {other : TreeNode}
    (apart : id ≠ link.node) :
    after.Continues id other next ↔ before.Continues id other next := by
  unfold Continues
  cases content : other.node with
  | repetition element quantifier =>
    refine exists_congr fun close => and_congr_right fun _ => ?_
    refine ⟨fun now => ?_, fun held => frame.keepsGlue present held rfl⟩
    cases was : before.state? close with
    | none =>
      rcases frame.added now was with ⟨choices, branch⟩ | added
      · cases branch
      · cases added
        exact absurd rfl apart
    | some state =>
      have elsewhere : close ≠ link.node := by
        rintro rfl
        obtain ⟨continuation, stored⟩ := frame.stored
        cases now.symm.trans stored
      rw [← now]
      exact (frame.kept was elsewhere).symm
  | _ => rfl

theorem LinkFrame.followedBy_of_followedBy (unlinked : treeNode.isLinked = false)
    {id next : StateId} (followed : before.FollowedBy id next) : after.FollowedBy id next := by
  obtain ⟨other, isTree, continues⟩ := followed
  have apart : id ≠ link.node := by
    rintro rfl
    cases (tree?_eq_some_iff.mp isTree).symm.trans present
    rw [continues.isLinked] at unlinked
    cases unlinked
  exact ⟨other, (frame.tree?_of_ne apart).trans isTree,
    (frame.continues_iff_of_ne present apart).mpr continues⟩

end

/-- One link fulfils the promise at the head and breaks no other. -/
theorem Promised.step {before after : Automaton} {link : Link} {treeNode : TreeNode}
    {brought pending : List Link} (linkable : before.linkable link.node = .ok treeNode)
    (step : LinkStep before link treeNode after brought) {id next : StateId}
    (promise : before.Promised (link :: pending) id next) :
    after.Promised (brought ++ pending) id next := by
  obtain ⟨present, unlinked⟩ := linkable_eq_ok_iff.mp linkable
  rcases promise with followed | waiting
  · exact Or.inl (step.toLinkFrame.followedBy_of_followedBy present unlinked followed)
  · rcases List.mem_cons.mp waiting with head | rest
    · subst head
      exact Or.inl step.followed
    · exact Or.inr (List.mem_append_right _ rest)

/-- One link keeps the rules, with the links that it brings about still pending. -/
theorem Jointed.step {before after : Automaton} {link : Link} {treeNode : TreeNode}
    {brought pending : List Link} (jointed : before.Jointed (link :: pending))
    (linkable : before.linkable link.node = .ok treeNode)
    (step : LinkStep before link treeNode after brought) : after.Jointed (brought ++ pending) := by
  have present := (linkable_eq_ok_iff.mp linkable).1
  have frame := step.toLinkFrame
  have glue : KeepsGlue before after := frame.keepsGlue present
  have promised {id next : StateId} (promise : before.Promised (link :: pending) id next) :
      after.Promised (brought ++ pending) id next := promise.step linkable step
  refine ⟨fun isTree => ?_, fun isTree continues => ?_, fun isTree => ?_⟩
  · obtain ⟨original, was, same⟩ := frame.node_of_tree? present isTree
    exact same ▸ (jointed.sealedAt was).mono glue promised
  · rename_i id next linked
    by_cases same : id = link.node
    · subst same
      have justLinked : next = link.next :=
        FollowedBy.unique ⟨linked, isTree, continues⟩ step.followed
      subst justLinked
      exact (step.joints isTree).mono (KeepsGlue.refl _)
        fun member => Or.inr (List.mem_append_left _ member)
    · rw [frame.tree?_of_ne same] at isTree
      rw [frame.continues_iff_of_ne present same] at continues
      exact (jointed.openAt isTree continues).mono glue promised
  · obtain ⟨original, was, same⟩ := frame.node_of_tree? present isTree
    exact same ▸ (jointed.enteredAt was).mono glue

/-! ### Linking as a whole -/

/-- What every link step keeps, linking as a whole keeps. -/
theorem linkAll_steps {motive : Automaton → List Link → Prop}
    (step : ∀ {before link treeNode after brought pending},
      before.linkable link.node = .ok treeNode → LinkStep before link treeNode after brought →
      motive before (link :: pending) → motive after (brought ++ pending))
    {automaton : Automaton} {links : List Link} (holds : motive automaton links)
    (linked : (automaton.linkAll links).answer = .ok ()) :
    motive (automaton.linkAll links).automaton [] := by
  refine linkAll_induction ?_ holds linked
  intro before link treeNode after brought pending linkable made held
  have taken := linkStep_linkNode (linkable_eq_ok_iff.mp linkable).1
  rw [made] at taken
  exact step linkable taken held

theorem Promised.followedBy {automaton : Automaton} {id next : StateId}
    (promise : automaton.Promised [] id next) : automaton.FollowedBy id next :=
  promise.resolve_right List.not_mem_nil

/-- Linking everything that is pending fulfils a promise. -/
theorem Promised.linkAll {automaton : Automaton} {links : List Link} {id next : StateId}
    (promise : automaton.Promised links id next)
    (linked : (automaton.linkAll links).answer = .ok ()) :
    (automaton.linkAll links).automaton.FollowedBy id next :=
  (linkAll_steps (motive := fun automaton pending => automaton.Promised pending id next)
    (fun linkable step held => held.step linkable step) promise linked).followedBy

theorem Jointed.linkAll {automaton : Automaton} {links : List Link}
    (jointed : automaton.Jointed links) (linked : (automaton.linkAll links).answer = .ok ()) :
    (automaton.linkAll links).automaton.Jointed [] :=
  linkAll_steps (motive := Jointed) (fun linkable step held => held.step linkable step) jointed
    linked

/-! ### Added states -/

section

variable {before after : Automaton}
  (kept : ∀ {id state}, before.state? id = some state → after.state? id = some state)

include kept

theorem FollowedBy.append {id next : StateId} (followed : before.FollowedBy id next) :
    after.FollowedBy id next := by
  obtain ⟨treeNode, isTree, continues⟩ := followed
  exact ⟨treeNode, tree?_eq_some_iff.mpr (kept (tree?_eq_some_iff.mp isTree)),
    continues.mono kept⟩

/-- States may be added as long as no end of a repetition is among them, and no tree node that is
linked already or breaks the rules. -/
theorem Jointed.append {pending more : List Link} (jointed : before.Jointed pending)
    (noEnd : ∀ {id owner next}, after.state? id = some (.endOfRepetition owner next) →
      before.state? id = some (.endOfRepetition owner next))
    (newTree : ∀ {id treeNode}, after.tree? id = some treeNode → before.state? id = none →
      treeNode.isLinked = false ∧ after.SealedJoints (after.Promised more) id treeNode.node ∧
        after.Entered id treeNode.node)
    (still : ∀ link ∈ pending, link ∈ more) : after.Jointed more := by
  have glue : KeepsGlue before after := fun _ _ found _ => kept found
  have promised {id next : StateId} (promise : before.Promised pending id next) :
      after.Promised more id next :=
    promise.imp (fun followed => followed.append kept) (still _)
  have was {id : StateId} {treeNode : TreeNode} (isTree : after.tree? id = some treeNode) :
      before.tree? id = some treeNode ∨ before.state? id = none := by
    cases held : before.state? id with
    | none => exact Or.inr rfl
    | some state =>
      left
      rw [tree?_eq_some_iff, held, ← kept held]
      exact tree?_eq_some_iff.mp isTree
  refine ⟨fun isTree => ?_, fun isTree continues => ?_, fun isTree => ?_⟩
  · rcases was isTree with isOld | isNew
    · exact (jointed.sealedAt isOld).mono glue promised
    · exact (newTree isTree isNew).2.1
  · rcases was isTree with isOld | isNew
    · exact (jointed.openAt isOld (continues.mono noEnd)).mono glue promised
    · have unlinked := (newTree isTree isNew).1
      rw [continues.isLinked] at unlinked
      cases unlinked
  · rcases was isTree with isOld | isNew
    · exact (jointed.enteredAt isOld).mono glue
    · exact (newTree isTree isNew).2.2

end

/-! ### Construction -/

/-- Of the states that an assembly adds, only its node is a tree node. -/
theorem mem_states_assembly {automaton : Automaton} {construction : Construction}
    {assembly : Assembly} (sound : SoundAssembly automaton construction assembly) {offset : Nat}
    {state : State} (added : (assembly.states construction)[offset]? = some state) :
    (offset = assembly.lead.length ∧
      state = .tree ⟨construction.range, construction.flags, assembly.node, none⟩) ∨
    (state.owner? = some (automaton.placedId assembly) ∧
      ∀ owner next, state ≠ .endOfRepetition owner next) := by
  unfold Assembly.states at added
  rcases Nat.lt_trichotomy offset assembly.lead.length with before | same | after
  · rw [List.getElem?_append_left before] at added
    exact Or.inr (sound.glue (List.mem_append_left _ (List.mem_of_getElem? added)))
  · subst same
    rw [List.getElem?_append_right (Nat.le_refl _), Nat.sub_self] at added
    exact Or.inl ⟨rfl, (Option.some.inj added).symm⟩
  · obtain ⟨excess, rfl⟩ := Nat.exists_eq_add_of_lt after
    rw [List.getElem?_append_right (by omega), Nat.add_assoc, Nat.add_sub_cancel_left,
      List.getElem?_cons_succ] at added
    exact Or.inr (sound.glue (List.mem_append_right _ (List.mem_of_getElem? added)))

/-- A new tree node of a placed assembly is its node. -/
theorem tree?_place {automaton : Automaton} {construction : Construction} {assembly : Assembly}
    (sound : SoundAssembly automaton construction assembly) {id : StateId} {treeNode : TreeNode}
    (isTree : (automaton.place construction assembly).tree? id = some treeNode)
    (absent : automaton.state? id = none) :
    id = automaton.placedId assembly ∧
      treeNode = ⟨construction.range, construction.flags, assembly.node, none⟩ := by
  obtain ⟨offset, rfl, added⟩ := mem_of_state?_pushAll (tree?_eq_some_iff.mp isTree) absent
  rcases mem_states_assembly sound added with ⟨rfl, same⟩ | ⟨owned, -⟩
  · cases same
    exact ⟨rfl, rfl⟩
  · cases owned

/-- Placing an assembly makes the promises of its links, provided that those of the chain were
kept. -/
theorem Jointed.place {automaton : Automaton} {construction : Construction} {assembly : Assembly}
    (jointed : automaton.Jointed []) (sound : SoundAssembly automaton construction assembly)
    (chained : ∀ link ∈ construction.form.chain, automaton.FollowedBy link.node link.next) :
    (automaton.place construction assembly).Jointed assembly.links := by
  have kept {id : StateId} {state : State} (found : automaton.state? id = some state) :
      (automaton.place construction assembly).state? id = some state :=
    state?_pushAll_of_some found _
  refine jointed.append kept (fun {id owner next} found => ?_) (fun isTree absent => ?_) (by simp)
  · cases was : automaton.state? id with
    | some state => rw [← kept was, found]
    | none =>
      obtain ⟨offset, rfl, added⟩ := mem_of_state?_pushAll found was
      rcases mem_states_assembly sound added with ⟨-, isTree⟩ | ⟨-, noEnd⟩
      · cases isTree
      · exact absurd rfl (noEnd owner next)
  · obtain ⟨rfl, rfl⟩ := tree?_place sound isTree absent
    refine ⟨rfl, sound.joints.mono (KeepsGlue.refl _) fun {child next} member => ?_, sound.entry⟩
    rcases List.mem_append.mp member with inChain | inLinks
    · exact Or.inl ((chained _ inChain).append kept)
    · exact Or.inr inLinks

theorem Jointed.construct {automaton : Automaton} (jointed : automaton.Jointed [])
    {construction : Construction} {id : StateId}
    (constructed : (automaton.construct construction).answer = .ok id) :
    (automaton.construct construction).automaton.Jointed [] := by
  obtain ⟨chained, assembly, assembled, linked, -⟩ := construct_eq_ok_iff.mp constructed
  rw [automaton_construct chained assembled]
  refine Jointed.linkAll (Jointed.place ?_ (soundAssembly assembled) fun link member => ?_) linked
  · refine Jointed.linkAll ⟨fun isTree => ?_, fun isTree continues => ?_, jointed.enteredAt⟩ chained
    · exact (jointed.sealedAt isTree).mono (KeepsGlue.refl _) fun promise =>
        Or.inl promise.followedBy
    · exact (jointed.openAt isTree continues).mono (KeepsGlue.refl _) fun promise =>
        Or.inl promise.followedBy
  · exact Promised.linkAll (Or.inr member) chained

/-! ### Runs -/

theorem FollowedBy.regrouped {automaton : Automaton} {id next : StateId}
    (followed : automaton.FollowedBy id next) (changed : StateId) (group : Option StateId) :
    (automaton.regrouped changed group).FollowedBy id next := by
  obtain ⟨treeNode, isTree, continues⟩ := followed
  rcases tree?_regrouped isTree changed group with same | ⟨reference, other, content, now⟩
  · exact ⟨treeNode, same,
      continues.mono fun held => state?_regrouped_of_glue held rfl changed group⟩
  · refine ⟨_, now, ?_⟩
    simpa only [Continues, content] using continues

theorem Jointed.regrouped {automaton : Automaton} (jointed : automaton.Jointed [])
    (changed : StateId) (group : Option StateId) :
    (automaton.regrouped changed group).Jointed [] := by
  have glue : KeepsGlue automaton (automaton.regrouped changed group) :=
    fun _ _ found isGlue => state?_regrouped_of_glue found isGlue changed group
  have promised {id next : StateId} (promise : automaton.Promised [] id next) :
      (automaton.regrouped changed group).Promised [] id next :=
    Or.inl (promise.followedBy.regrouped changed group)
  refine ⟨fun isTree => ?_, fun isTree continues => ?_, fun isTree => ?_⟩
  · rcases tree?_of_tree?_regrouped isTree with same | ⟨original, reference, other, -, -, rfl⟩
    · exact (jointed.sealedAt same).mono glue promised
    · trivial
  · rcases tree?_of_tree?_regrouped isTree with same | ⟨original, reference, other, -, -, rfl⟩
    · exact (jointed.openAt same
        (continues.mono fun held => state?_of_state?_regrouped held rfl)).mono glue promised
    · trivial
  · rcases tree?_of_tree?_regrouped isTree with same | ⟨original, reference, other, -, -, rfl⟩
    · exact (jointed.enteredAt same).mono glue
    · trivial

theorem state?_ofSource (source : Source) (id : StateId) : (ofSource source).state? id = none := by
  simp [state?, ofSource]

theorem tree?_ofSource (source : Source) (id : StateId) : (ofSource source).tree? id = none := by
  simp [tree?, state?_ofSource]

theorem jointed_ofSource (source : Source) : (ofSource source).Jointed [] := by
  refine ⟨fun isTree => ?_, fun isTree continues => ?_, fun isTree => ?_⟩ <;>
    · rw [tree?_ofSource] at isTree
      cases isTree

/-- In every automaton that a run leads to, everything that had to be linked is linked by the
rules. -/
theorem jointed_performAll {source : Source} {calls : List Call}
    (performed : ((ofSource source).performAll calls).answer = .ok ()) :
    ((ofSource source).performAll calls).automaton.Jointed [] :=
  performAll_preserves (motive := fun automaton => automaton.Jointed [])
    (fun _ _ _ jointed constructed => jointed.construct constructed)
    (fun _ changed group jointed => jointed.regrouped changed group) (jointed_ofSource source)
    performed

end Automaton

end PatternGraph
