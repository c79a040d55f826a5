/-
This file keeps account of which nodes were linked, and by whom. A parent claims its sealed children
when it is built and its open children when it is linked itself, each time once for every place at
which the child is named. A claim is a link that was made or is still pending. Since a node can be
linked only once, the claims that were met name distinct nodes, and they name every linked node.

`Balanced` is this account of an automaton. Besides the claims in the arena it admits nodes that are
owed a link by something outside it: the items of a sequence that is about to be added, or the root
of a pattern that is being finished. When nothing is pending any more, the claims and what was owed
contain no node twice, which is where the tree shape of a finished pattern comes from.
-/

import Mathlib.Data.List.Nodup
import Mathlib.Data.List.Perm.Subperm
import PatternGraph.Proofs.Linking.Joints

namespace PatternGraph

open scoped List

namespace State

/-- The children that the state names. -/
def children : State → List StateId
  | .tree treeNode => treeNode.node.children
  | _ => []

/-- The children for which the state has claimed a link. -/
def claims : State → List StateId
  | .tree treeNode =>
    treeNode.node.sealedChildren ++ if treeNode.isLinked then treeNode.node.openChildren else []
  | _ => []

theorem claims_subperm_children (state : State) : state.claims.Subperm state.children := by
  cases state with
  | tree treeNode =>
    refine List.Subperm.trans ?_ treeNode.node.sealedChildren_append_openChildren.subperm
    simp only [claims]
    split
    · exact List.Subperm.refl _
    · rw [List.append_nil]
      exact (List.sublist_append_left _ _).subperm
  | _ => exact List.nil_subperm

/-- A linked tree node has claimed all its children. -/
theorem claims_perm_children {treeNode : TreeNode} (linked : treeNode.isLinked) :
    (State.tree treeNode).claims.Perm treeNode.node.children := by
  simp only [claims, linked, if_true]
  exact treeNode.node.sealedChildren_append_openChildren

end State

namespace Automaton

/-! ### Handles gathered from all states -/

section

variable (collect : State → List StateId)

/-- What is collected from every state, in the order of the arena. -/
def gather (automaton : Automaton) : List StateId := automaton.states.toList.flatMap collect

theorem gather_push (automaton : Automaton) (state : State) :
    (automaton.push state).gather collect = automaton.gather collect ++ collect state := by
  simp [gather, push]

theorem gather_pushAll (automaton : Automaton) (states : List State) :
    (automaton.pushAll states).gather collect =
      automaton.gather collect ++ states.flatMap collect := by
  simp [gather]

/-- Changing one state changes what is collected in one place. -/
theorem gather_store {automaton : Automaton} {node : StateId} {state : State}
    (present : automaton.state? node = some state) (next : StateId) :
    ∃ front back, automaton.gather collect = front ++ collect state ++ back ∧
      (automaton.store ⟨node, next⟩).gather collect =
        front ++ collect (State.followedBy next state) ++ back := by
  obtain ⟨inBounds, held⟩ := Array.getElem?_eq_some_iff.mp present
  have inList : node.index < automaton.states.toList.length := by simpa using inBounds
  have same : automaton.states.toList[node.index] = state := by simpa using held
  refine ⟨(automaton.states.toList.take node.index).flatMap collect,
    (automaton.states.toList.drop (node.index + 1)).flatMap collect, ?_, ?_⟩
  · rw [gather, List.append_assoc, ← List.flatMap_cons, ← List.flatMap_append, ← same,
      List.getElem_cons_drop, List.take_append_drop]
  · rw [gather, store, Array.toList_modify, List.modify_eq_take_cons_drop inList, same,
      List.flatMap_append, List.flatMap_cons, List.append_assoc]

theorem mem_gather {automaton : Automaton} {child : StateId} :
    child ∈ automaton.gather collect ↔
      ∃ id state, automaton.state? id = some state ∧ child ∈ collect state := by
  rw [gather, List.mem_flatMap]
  constructor
  · rintro ⟨state, held, member⟩
    obtain ⟨index, found⟩ := List.mem_iff_getElem?.mp held
    exact ⟨⟨index⟩, state, by simpa [state?] using found, member⟩
  · rintro ⟨id, state, found, member⟩
    exact ⟨state, List.mem_iff_getElem?.mpr ⟨id.index, by simpa [state?] using found⟩, member⟩

/-- What is collected without repetition comes from one state only. -/
theorem eq_of_mem_of_nodup_gather {automaton : Automaton}
    (nodup : (automaton.gather collect).Nodup) {first second child : StateId}
    {state other : State} (found : automaton.state? first = some state)
    (foundToo : automaton.state? second = some other) (member : child ∈ collect state)
    (memberToo : child ∈ collect other) : first = second := by
  have apart := List.pairwise_iff_getElem.mp (List.nodup_flatMap.mp nodup).2
  obtain ⟨inBounds, rfl⟩ := Array.getElem?_eq_some_iff.mp found
  obtain ⟨inBoundsToo, rfl⟩ := Array.getElem?_eq_some_iff.mp foundToo
  obtain ⟨firstIndex⟩ := first
  obtain ⟨secondIndex⟩ := second
  rcases Nat.lt_trichotomy firstIndex secondIndex with less | same | greater
  · exact absurd memberToo
      (apart firstIndex secondIndex (by simpa using inBounds) (by simpa using inBoundsToo) less
        member)
  · exact congrArg StateId.mk same
  · exact absurd member
      (apart secondIndex firstIndex (by simpa using inBoundsToo) (by simpa using inBounds) greater
        memberToo)

theorem nodup_of_nodup_gather {automaton : Automaton}
    (nodup : (automaton.gather collect).Nodup) {id : StateId} {state : State}
    (found : automaton.state? id = some state) : (collect state).Nodup := by
  obtain ⟨inBounds, rfl⟩ := Array.getElem?_eq_some_iff.mp found
  exact (List.nodup_flatMap.mp nodup).1 _ (Array.getElem_mem_toList inBounds)

/-- A new group for a back-reference changes nothing that is collected, if it changes nothing for
that state. -/
theorem gather_regrouped (automaton : Automaton) (id : StateId) (group : Option StateId)
    (same : ∀ state, collect (State.referringTo group state) = collect state) :
    (automaton.regrouped id group).gather collect = automaton.gather collect := by
  simp only [gather, regrouped, Array.toList_modify]
  by_cases inBounds : id.index < automaton.states.toList.length
  · rw [List.modify_eq_take_cons_drop inBounds]
    conv_rhs => rw [← List.take_append_drop id.index automaton.states.toList]
    rw [List.flatMap_append, List.flatMap_append, List.flatMap_cons, same, ← List.flatMap_cons,
      List.getElem_cons_drop]
  · rw [List.modify_eq_self (Nat.not_lt.mp inBounds)]

end

/-- All children that are named anywhere in the arena, once for every place. -/
def offspring (automaton : Automaton) : List StateId := automaton.gather State.children

/-- All children for which a link was claimed. -/
def claims (automaton : Automaton) : List StateId := automaton.gather State.claims

/-! ### What a link does to the claims -/

theorem claims_push_glue (automaton : Automaton) {state : State} (glue : state.tree? = none) :
    (automaton.push state).claims = automaton.claims := by
  rw [claims, claims, gather_push]
  cases state with
  | tree treeNode => cases glue
  | _ => exact List.append_nil _

theorem offspring_push_glue (automaton : Automaton) {state : State} (glue : state.tree? = none) :
    (automaton.push state).offspring = automaton.offspring := by
  rw [offspring, offspring, gather_push]
  cases state with
  | tree treeNode => cases glue
  | _ => exact List.append_nil _

section

variable {automaton : Automaton} {node : StateId} {treeNode : TreeNode}
  (present : automaton.state? node = some (.tree treeNode))

include present

theorem offspring_store (next : StateId) :
    (automaton.store ⟨node, next⟩).offspring = automaton.offspring := by
  obtain ⟨front, back, before, after⟩ := gather_store State.children present next
  rw [offspring, offspring, before, after]
  rfl

/-- With its continuation a node claims its open children. -/
theorem claims_store (unlinked : treeNode.isLinked = false) (next : StateId) :
    (automaton.store ⟨node, next⟩).claims.Perm
      (automaton.claims ++ treeNode.node.openChildren) := by
  obtain ⟨front, back, before, after⟩ := gather_store State.claims present next
  have claimed : (State.tree treeNode).claims = treeNode.node.sealedChildren := by
    simp [State.claims, unlinked]
  have claimedNow : (State.followedBy next (.tree treeNode)).claims =
      treeNode.node.sealedChildren ++ treeNode.node.openChildren := by
    simp [State.claims, State.followedBy, TreeNode.isLinked]
  rw [claims, claims, before, after, claimed, claimedNow]
  simp only [List.append_assoc]
  exact (List.perm_append_comm.append_left _).append_left _

end

section

variable {automaton : Automaton} {link : Link} {treeNode : TreeNode}
  (linkable : automaton.linkable link.node = .ok treeNode)

include linkable

theorem claims_linkNode :
    (automaton.linkNode link treeNode.node).1.claims.Perm
      (automaton.claims ++ treeNode.node.openChildren) := by
  obtain ⟨present, unlinked⟩ := linkable_eq_ok_iff.mp linkable
  obtain ⟨stored, kind, made⟩ := automaton.automaton_linkNode link treeNode.node
  have claimed : stored.claims.Perm (automaton.claims ++ treeNode.node.openChildren) := by
    rcases kind with rfl | rfl
    · exact claims_store present unlinked link.next
    · have behindEnd := claims_store (state?_push_of_some present
        (.endOfRepetition link.node link.next)) unlinked automaton.nextId
      rwa [claims_push_glue _ rfl] at behindEnd
  rcases made with same | ⟨choices, same⟩
  · rw [same]
    exact claimed
  · rw [same, claims_push_glue _ rfl]
    exact claimed

theorem offspring_linkNode :
    (automaton.linkNode link treeNode.node).1.offspring = automaton.offspring := by
  have present := (linkable_eq_ok_iff.mp linkable).1
  obtain ⟨stored, kind, made⟩ := automaton.automaton_linkNode link treeNode.node
  have kept : stored.offspring = automaton.offspring := by
    rcases kind with rfl | rfl
    · exact offspring_store present link.next
    · rw [closeRepetition, offspring_store (state?_push_of_some present _),
        offspring_push_glue _ rfl]
  rcases made with same | ⟨choices, same⟩
  · rw [same, kept]
  · rw [same, offspring_push_glue _ rfl, kept]

end

/-! ### The account -/

/-- The claims in the arena, together with the nodes that are owed a link, are those that are
pending and those that were met, and the latter are the linked nodes without repetition. -/
def Balanced (automaton : Automaton) (owed : List StateId) (pending : List Link) : Prop :=
  ∃ met : List StateId, met.Nodup ∧ (∀ id, id ∈ met ↔ automaton.IsLinked id) ∧
    (automaton.claims ++ owed).Perm (pending.map Link.node ++ met)

/-- Linking a node is the only way in which nodes become linked. -/
theorem LinkFrame.isLinked_iff {before after : Automaton} {link : Link} {treeNode : TreeNode}
    (frame : LinkFrame before link treeNode after) (id : StateId) :
    after.IsLinked id ↔ id = link.node ∨ before.IsLinked id := by
  by_cases same : id = link.node
  · subst same
    obtain ⟨continuation, stored⟩ := frame.stored
    exact ⟨fun _ => Or.inl rfl, fun _ => ⟨_, tree?_eq_some_iff.mpr stored, rfl⟩⟩
  · simp only [IsLinked, frame.tree?_of_ne same, same, false_or]

/-- One link meets the claim at the head. -/
theorem Balanced.step {before after : Automaton} {link : Link} {treeNode : TreeNode}
    {brought pending : List Link} {owed : List StateId}
    (balanced : before.Balanced owed (link :: pending))
    (linkable : before.linkable link.node = .ok treeNode)
    (made : before.linkNode link treeNode.node = (after, brought)) :
    after.Balanced owed (brought ++ pending) := by
  obtain ⟨present, unlinked⟩ := linkable_eq_ok_iff.mp linkable
  obtain ⟨met, nodup, linked, account⟩ := balanced
  have step := linkStep_linkNode present
  have claimed := claims_linkNode linkable
  rw [made] at step claimed
  have fresh : link.node ∉ met := by
    rw [linked]
    rintro ⟨other, isTree, isLinked⟩
    cases (tree?_eq_some_iff.mp isTree).symm.trans present
    rw [unlinked] at isLinked
    cases isLinked
  refine ⟨link.node :: met, List.nodup_cons.mpr ⟨fresh, nodup⟩, fun id => ?_, ?_⟩
  · rw [step.isLinked_iff, List.mem_cons, linked]
  · calc after.claims ++ owed
      _ ~ (before.claims ++ treeNode.node.openChildren) ++ owed := claimed.append_right owed
      _ ~ (treeNode.node.openChildren ++ before.claims) ++ owed :=
        List.perm_append_comm.append_right owed
      _ = treeNode.node.openChildren ++ (before.claims ++ owed) := List.append_assoc ..
      _ ~ treeNode.node.openChildren ++ (link.node :: pending.map Link.node ++ met) :=
        account.append_left _
      _ = brought.map Link.node ++ link.node :: (pending.map Link.node ++ met) := by
        rw [step.names, List.cons_append]
      _ ~ brought.map Link.node ++ (pending.map Link.node ++ link.node :: met) :=
        List.perm_middle.symm.append_left _
      _ = (brought ++ pending).map Link.node ++ link.node :: met := by
        rw [List.map_append, List.append_assoc]

theorem Balanced.linkAll {automaton : Automaton} {owed : List StateId} {links : List Link}
    (balanced : automaton.Balanced owed links)
    (linked : (automaton.linkAll links).answer = .ok ()) :
    (automaton.linkAll links).automaton.Balanced owed [] :=
  linkAll_induction (motive := fun automaton pending => automaton.Balanced owed pending)
    (fun _ _ _ _ _ _ linkable made held => held.step linkable made) balanced linked

/-- Nodes may be owed a link that is pending. -/
theorem Balanced.owe {automaton : Automaton} {owed : List StateId}
    (balanced : automaton.Balanced owed []) (links : List Link) :
    automaton.Balanced (links.map Link.node ++ owed) links := by
  obtain ⟨met, nodup, linked, account⟩ := balanced
  refine ⟨met, nodup, linked, ?_⟩
  calc automaton.claims ++ (links.map Link.node ++ owed)
    _ = (automaton.claims ++ links.map Link.node) ++ owed := (List.append_assoc ..).symm
    _ ~ (links.map Link.node ++ automaton.claims) ++ owed :=
      List.perm_append_comm.append_right owed
    _ = links.map Link.node ++ (automaton.claims ++ owed) := List.append_assoc ..
    _ ~ links.map Link.node ++ met := account.append_left _

theorem Balanced.perm {automaton : Automaton} {owed same : List StateId} {links : List Link}
    (balanced : automaton.Balanced owed links) (reordered : owed ~ same) :
    automaton.Balanced same links := by
  obtain ⟨met, nodup, linked, account⟩ := balanced
  exact ⟨met, nodup, linked, (reordered.symm.append_left _).trans account⟩

/-- What was claimed and owed contains no node twice once nothing is pending. -/
theorem Balanced.nodup {automaton : Automaton} {owed : List StateId}
    (balanced : automaton.Balanced owed []) : (automaton.claims ++ owed).Nodup := by
  obtain ⟨met, nodup, -, account⟩ := balanced
  exact account.nodup_iff.mpr nodup

/-! ### Construction and runs -/

/-- States that are neither linked nor claim anything new leave the account as it is, up to what
they claim. -/
theorem Balanced.append {automaton : Automaton} {owed moved : List StateId} {links : List Link}
    (balanced : automaton.Balanced (moved ++ owed) links) {states : List State}
    (claimed : states.flatMap State.claims = moved)
    (unlinked : ∀ {treeNode}, State.tree treeNode ∈ states → treeNode.isLinked = false) :
    (automaton.pushAll states).Balanced owed links := by
  obtain ⟨met, nodup, linked, account⟩ := balanced
  refine ⟨met, nodup, fun id => ?_, ?_⟩
  · rw [linked]
    refine exists_congr fun treeNode => and_congr_left fun isLinked => ?_
    rw [tree?_eq_some_iff, tree?_eq_some_iff]
    refine ⟨fun found => state?_pushAll_of_some found states, fun found => ?_⟩
    cases was : automaton.state? id with
    | some state => rw [← state?_pushAll_of_some was states, found]
    | none =>
      obtain ⟨offset, rfl, added⟩ := mem_of_state?_pushAll found was
      rw [unlinked (List.mem_of_getElem? added)] at isLinked
      cases isLinked
  · rw [claims, gather_pushAll, claimed, List.append_assoc]
    exact account

theorem claims_glue {state : State} (glue : state.tree? = none) : state.claims = [] := by
  cases state with
  | tree treeNode => cases glue
  | _ => rfl

theorem tree?_of_owner? {state : State} {owner : StateId} (owned : state.owner? = some owner) :
    state.tree? = none := by
  cases state with
  | tree treeNode => cases owned
  | _ => rfl

/-- What a placed assembly claims is what its node seals. -/
theorem flatMap_claims_states {automaton : Automaton} {construction : Construction}
    {assembly : Assembly} (sound : SoundAssembly automaton construction assembly) :
    (assembly.states construction).flatMap State.claims = assembly.node.sealedChildren := by
  have none {states : List State}
      (glue : ∀ state ∈ states, state ∈ assembly.lead ++ assembly.close) :
      states.flatMap State.claims = [] :=
    List.flatMap_eq_nil_iff.mpr fun state member =>
      claims_glue (tree?_of_owner? (sound.glue (glue state member)).1)
  rw [Assembly.states, List.flatMap_append, List.flatMap_cons,
    none fun state member => List.mem_append_left _ member,
    none fun state member => List.mem_append_right _ member]
  simp [State.claims, TreeNode.isLinked]

/-- A placed assembly claims what its links are about to meet. -/
theorem Balanced.place {automaton : Automaton} {construction : Construction} {assembly : Assembly}
    (balanced : automaton.Balanced (construction.form.chain.map Link.node ++ []) [])
    (sound : SoundAssembly automaton construction assembly) :
    (automaton.place construction assembly).Balanced [] assembly.links := by
  have owed : assembly.links.map Link.node ++ (construction.form.chain.map Link.node ++ []) ~
      assembly.node.sealedChildren ++ [] := by
    rw [← sound.names, List.map_append, List.append_nil, List.append_nil]
    exact List.perm_append_comm
  refine ((balanced.owe assembly.links).perm owed).append (flatMap_claims_states sound)
    fun member => ?_
  obtain ⟨offset, added⟩ := List.mem_iff_getElem?.mp member
  rcases mem_states_assembly sound added with ⟨-, same⟩ | ⟨owned, -⟩
  · cases same
    rfl
  · cases owned

theorem Balanced.construct {automaton : Automaton} (balanced : automaton.Balanced [] [])
    {construction : Construction} {id : StateId}
    (constructed : (automaton.construct construction).answer = .ok id) :
    (automaton.construct construction).automaton.Balanced [] [] := by
  obtain ⟨chained, assembly, assembled, linked, -⟩ := construct_eq_ok_iff.mp constructed
  rw [automaton_construct chained assembled]
  have afterChain := (balanced.owe construction.form.chain).linkAll chained
  exact (afterChain.place (soundAssembly assembled)).linkAll linked

theorem Balanced.regrouped {automaton : Automaton} (balanced : automaton.Balanced [] [])
    (changed : StateId) (group : Option StateId) :
    (automaton.regrouped changed group).Balanced [] [] := by
  obtain ⟨met, nodup, linked, account⟩ := balanced
  refine ⟨met, nodup, fun id => ?_, ?_⟩
  · rw [linked]
    constructor
    · rintro ⟨treeNode, isTree, isLinked⟩
      rcases tree?_regrouped isTree changed group with same | ⟨reference, other, -, now⟩
      · exact ⟨treeNode, same, isLinked⟩
      · exact ⟨_, now, isLinked⟩
    · rintro ⟨treeNode, isTree, isLinked⟩
      rcases tree?_of_tree?_regrouped isTree with same | ⟨original, _, other, was, -, rfl⟩
      · exact ⟨treeNode, same, isLinked⟩
      · exact ⟨original, was, isLinked⟩
  · rw [claims, gather_regrouped]
    · exact account
    · intro state
      cases state with
      | tree treeNode =>
        rcases referringTo_tree group treeNode with same | ⟨reference, other, content, changes⟩
        · rw [same]
        · rw [changes]
          simp only [State.claims, content, Node.sealedChildren, Node.openChildren, ite_self]
      | _ => rfl

theorem balanced_ofSource (source : Source) : (ofSource source).Balanced [] [] := by
  refine ⟨[], List.nodup_nil, fun id => ?_, List.Perm.refl _⟩
  refine ⟨fun member => absurd member List.not_mem_nil, ?_⟩
  rintro ⟨treeNode, isTree, -⟩
  rw [tree?_ofSource] at isTree
  cases isTree

/-- The account of every automaton that a run leads to is balanced. -/
theorem balanced_performAll {source : Source} {calls : List Call}
    (performed : ((ofSource source).performAll calls).answer = .ok ()) :
    ((ofSource source).performAll calls).automaton.Balanced [] [] :=
  performAll_preserves (motive := fun automaton => automaton.Balanced [] [])
    (fun _ _ _ balanced constructed => balanced.construct constructed)
    (fun _ changed group balanced => balanced.regrouped changed group) (balanced_ofSource source)
    performed

end Automaton

end PatternGraph
