/-
This file takes stock of the glue. Every node owns each kind of glue that it needs exactly once: the
ends of groups, lookarounds and conditionals and the way into a lookaround from the time the node is
built, a branch and the end of a repetition from the time the node is linked. Nothing else owns any
glue, and only finishing adds states without an owner, the start and the final state.

The inventory lists the glue of an arena, each state as its kind with its owner. What a node is due
is read off the node and off whether it is linked. `Stocked` says that each kind is listed for each
owner as often as it is due. Building a node and linking one both add for one owner just what that
owner is due from then on, so one lemma, `Stocked.extend`, carries all changes of the arena. No kind
is due twice to one owner, hence the kind and the owner tell a glue state from every other.
-/

import PatternGraph.Proofs.Linking.Glue

namespace PatternGraph

open scoped List

/-- The kinds of glue states. -/
inductive GlueKind
  | branch
  | endOfRepetition
  | endOfCapturingGroup
  | endOfLookaround
  | negation
  | startOfLookBehind
  | endOfConditional
  | start
  | final
  deriving DecidableEq

namespace State

/-- The kind of a glue state. -/
def glueKind? : State → Option GlueKind
  | .tree _ => none
  | .branch .. => some .branch
  | .endOfRepetition .. => some .endOfRepetition
  | .endOfCapturingGroup _ => some .endOfCapturingGroup
  | .endOfLookaround _ => some .endOfLookaround
  | .negation .. => some .negation
  | .startOfLookBehind .. => some .startOfLookBehind
  | .endOfConditional _ => some .endOfConditional
  | .start .. => some .start
  | .final _ => some .final

/-- How a glue state is listed: its kind and its owner. -/
def listed? (state : State) : Option (GlueKind × Option StateId) :=
  state.glueKind?.map fun kind => (kind, state.owner?)

theorem listed?_followedBy (next : StateId) (state : State) :
    (state.followedBy next).listed? = state.listed? := by
  cases state <;> rfl

theorem listed?_referringTo (group : Option StateId) (state : State) :
    (State.referringTo group state).listed? = state.listed? := by
  cases state with
  | tree treeNode =>
    rcases Automaton.referringTo_tree group treeNode with same | ⟨reference, other, -, changes⟩
    · rw [same]
    · rw [changes]
      rfl
  | _ => rfl

end State

/-! ### What a node is due -/

namespace Node

/-- The glue that a node is built with. -/
def builtGlue : Node → List GlueKind
  | .capturingGroup .. => [.endOfCapturingGroup]
  | .lookAround _ polarity direction _ =>
    (if polarity = .negative then [.negation] else []) ++
      (if direction = .behind then [.startOfLookBehind] else []) ++ [.endOfLookaround]
  | .conditional .. => [.endOfConditional]
  | _ => []

/-- The glue that a node receives when it is linked. -/
def linkedGlue : Node → List GlueKind
  | .conditional .. => [.branch]
  | .repetition _ quantifier =>
    .endOfRepetition ::
      if 1 ≤ quantifier.minimum ∧ quantifier.maximum ≠ some 1 then [.branch] else []
  | _ => []

theorem nodup_glue (node : Node) : (node.builtGlue ++ node.linkedGlue).Nodup := by
  cases node with
  | lookAround body polarity direction entry =>
    cases polarity <;> cases direction <;> simp [builtGlue, linkedGlue]
  | repetition element quantifier =>
    simp only [builtGlue, linkedGlue]
    split <;> simp
  | _ => simp [builtGlue, linkedGlue]

end Node

/-- The glue of a tree node. -/
def TreeNode.glue (treeNode : TreeNode) : List GlueKind :=
  treeNode.node.builtGlue ++ if treeNode.isLinked then treeNode.node.linkedGlue else []

theorem TreeNode.nodup_glue (treeNode : TreeNode) : treeNode.glue.Nodup := by
  unfold TreeNode.glue
  split
  · exact treeNode.node.nodup_glue
  · rw [List.append_nil]
    exact treeNode.node.nodup_glue.of_append_left

namespace Automaton

/-- The glue of the arena, in its order. -/
def glue (automaton : Automaton) : List (GlueKind × Option StateId) :=
  automaton.states.toList.filterMap State.listed?

/-- The glue that an owner is due, where `unowned` is the glue without an owner. -/
def due (automaton : Automaton) (unowned : List GlueKind) : Option StateId → List GlueKind
  | none => unowned
  | some owner => ((automaton.tree? owner).map TreeNode.glue).getD []

/-- The state is glue of the kind with the owner. -/
def Lists (automaton : Automaton) (kind : GlueKind) (owner : Option StateId) (id : StateId) :
    Prop :=
  ∃ state, automaton.state? id = some state ∧ state.listed? = some (kind, owner)

theorem Lists.exists_state {automaton : Automaton} {kind : GlueKind} {owner : Option StateId}
    {id : StateId} (listed : automaton.Lists kind owner id) :
    ∃ state, automaton.state? id = some state ∧ state.glueKind? = some kind ∧
      state.owner? = owner := by
  obtain ⟨state, found, isListed⟩ := listed
  obtain ⟨glueKind, isKind, same⟩ := Option.map_eq_some_iff.mp isListed
  obtain ⟨rfl, rfl⟩ := Prod.mk.inj same
  exact ⟨state, found, isKind, rfl⟩

theorem exists_lists_of_glue {automaton : Automaton} {id : StateId} {state : State}
    (found : automaton.state? id = some state) (glue : state.tree? = none) :
    ∃ kind, automaton.Lists kind state.owner? id := by
  cases state with
  | tree treeNode => cases glue
  | _ => exact ⟨_, _, found, rfl⟩

/-- Each kind of glue is listed for each owner as often as it is due. -/
def Stocked (automaton : Automaton) (unowned : List GlueKind) : Prop :=
  ∀ kind owner, automaton.glue.count (kind, owner) = (automaton.due unowned owner).count kind

/-! ### What changes of the arena do to the inventory -/

@[simp]
theorem glue_push (automaton : Automaton) (state : State) :
    (automaton.push state).glue = automaton.glue ++ state.listed?.toList := by
  rw [glue, push, Array.toList_push, List.filterMap_append]
  cases listed : state.listed? <;> simp [glue, listed]

theorem glue_pushAll (automaton : Automaton) (states : List State) :
    (automaton.pushAll states).glue = automaton.glue ++ states.filterMap State.listed? := by
  simp [glue, List.filterMap_append]

/-- Changing one state without changing how it is listed leaves the inventory as it is. -/
theorem filterMap_modify {states : List State} {change : State → State}
    (same : ∀ state, (change state).listed? = state.listed?) (index : Nat) :
    (states.modify index change).filterMap State.listed? = states.filterMap State.listed? := by
  induction states generalizing index with
  | nil => cases index <;> rfl
  | cons state rest inductionHypothesis =>
    cases index with
    | zero => simp [List.filterMap_cons, same]
    | succ index => simp [List.filterMap_cons, inductionHypothesis]

@[simp]
theorem glue_store (automaton : Automaton) (link : Link) :
    (automaton.store link).glue = automaton.glue := by
  rw [glue, store, Array.toList_modify]
  exact filterMap_modify (State.listed?_followedBy link.next) _

theorem glue_regrouped (automaton : Automaton) (id : StateId) (group : Option StateId) :
    (automaton.regrouped id group).glue = automaton.glue := by
  rw [glue, regrouped, Array.toList_modify]
  exact filterMap_modify (State.listed?_referringTo group) _

theorem count_map_owner (kinds : List GlueKind) (kind : GlueKind) (owner other : Option StateId) :
    (kinds.map fun added => (added, owner)).count (kind, other) =
      if other = owner then kinds.count kind else 0 := by
  split
  · rename_i same
    subst same
    exact List.count_map_of_injective kinds _ (fun _ _ equal => (Prod.mk.inj equal).1) kind
  · rename_i apart
    refine List.count_eq_zero.mpr fun member => apart ?_
    obtain ⟨added, -, same⟩ := List.mem_map.mp member
    exact (Prod.mk.inj same).2.symm

/-- The arena stays stocked when glue is added for one owner and the owner is due as much more. -/
theorem Stocked.extend {before after : Automaton} {unowned unownedAfter added : List GlueKind}
    {owner : Option StateId} (stocked : before.Stocked unowned)
    (glue : after.glue ~ before.glue ++ added.map fun kind => (kind, owner))
    (due : ∀ other, after.due unownedAfter other =
      before.due unowned other ++ if other = owner then added else []) :
    after.Stocked unownedAfter := by
  intro kind other
  rw [glue.count_eq, List.count_append, count_map_owner, stocked, due, List.count_append]
  split
  · rfl
  · rw [List.count_nil]

/-! ### One link -/

/-- A node owns what it was built with before it is linked, and then what it is linked with too. -/
theorem glue_linkNode (automaton : Automaton) (link : Link) (node : Node) :
    (automaton.linkNode link node).1.glue =
      automaton.glue ++ node.linkedGlue.map fun kind => (kind, some link.node) := by
  cases node with
  | repetition element quantifier =>
    have closed : (automaton.closeRepetition link).glue =
        automaton.glue ++ [(.endOfRepetition, some link.node)] := by
      rw [closeRepetition, glue_store, glue_push]
      rfl
    rw [linkNode_repetition]
    dsimp only [Node.linkedGlue]
    by_cases once : quantifier.maximum = some 1
    · simp [once, closed]
    · by_cases required : 1 ≤ quantifier.minimum
      · simp [once, required, closed, State.listed?, State.glueKind?, State.owner?]
      · simp [once, required, closed]
  | conditional condition yes bar no =>
    dsimp only [linkNode]
    rw [glue_push, glue_store]
    rfl
  | _ => simp [linkNode, Node.linkedGlue]

theorem Stocked.linkNode {automaton : Automaton} {unowned : List GlueKind}
    (stocked : automaton.Stocked unowned) {link : Link} {treeNode : TreeNode}
    (linkable : automaton.linkable link.node = .ok treeNode) :
    (automaton.linkNode link treeNode.node).1.Stocked unowned := by
  obtain ⟨present, unlinked⟩ := linkable_eq_ok_iff.mp linkable
  have frame := (linkStep_linkNode present).toLinkFrame
  refine stocked.extend (.of_eq (glue_linkNode automaton link treeNode.node)) fun other => ?_
  cases other with
  | none => simp [due]
  | some owner =>
    by_cases same : owner = link.node
    · subst same
      obtain ⟨continuation, stored⟩ := frame.stored
      rw [if_pos rfl, due, due, tree?_eq_some_iff.mpr stored, tree?_eq_some_iff.mpr present]
      rw [TreeNode.isLinked] at unlinked
      simp [TreeNode.glue, TreeNode.isLinked, unlinked]
    · rw [if_neg (mt Option.some.inj same), due, due, frame.tree?_of_ne same, List.append_nil]

theorem Stocked.linkAll {automaton : Automaton} {unowned : List GlueKind}
    (stocked : automaton.Stocked unowned) {links : List Link}
    (linked : (automaton.linkAll links).answer = .ok ()) :
    (automaton.linkAll links).automaton.Stocked unowned := by
  refine linkAll_induction (motive := fun automaton _ => automaton.Stocked unowned) ?_ stocked
    linked
  intro before link treeNode after brought pending linkable made held
  have stepped := held.linkNode linkable
  rwa [made] at stepped

/-! ### Construction and runs -/

/-- An assembly adds what its node is built with. -/
theorem filterMap_listed?_assembly {automaton : Automaton} {construction : Construction}
    {assembly : Assembly} (assembled : automaton.assemble construction = .ok assembly) :
    (assembly.states construction).filterMap State.listed? =
      assembly.node.builtGlue.map fun kind => (kind, some (automaton.placedId assembly)) := by
  unfold assemble at assembled
  cases form : construction.form with
  | capturingGroup name number element =>
    simp only [form] at assembled
    obtain ⟨body, -, rfl⟩ := exists_body_of_map assembled
    rfl
  | lookAround polarity direction element =>
    simp only [form] at assembled
    obtain ⟨body, -, rfl⟩ := exists_body_of_map assembled
    cases polarity <;> cases direction <;> rfl
  | nonCapturingGroup enabled disabled element =>
    cases element with
    | none =>
      simp only [form, Except.ok.injEq] at assembled
      subst assembled
      rfl
    | some element =>
      simp only [form] at assembled
      obtain ⟨body, -, rfl⟩ := exists_body_of_map assembled
      rfl
  | atomicGroup element =>
    simp only [form] at assembled
    obtain ⟨body, -, rfl⟩ := exists_body_of_map assembled
    rfl
  | _ =>
    simp only [form, Except.ok.injEq] at assembled
    subst assembled
    rfl

/-- The node of an assembly is placed without a continuation. -/
theorem tree?_placedId (automaton : Automaton) (construction : Construction)
    (assembly : Assembly) :
    (automaton.place construction assembly).tree? (automaton.placedId assembly) =
      some ⟨construction.range, construction.flags, assembly.node, none⟩ := by
  refine tree?_eq_some_iff.mpr ((state?_place automaton construction assembly _).trans ?_)
  simp [Assembly.states]

/-- Placing an assembly changes no tree node but the one it adds. -/
theorem tree?_place_of_ne {automaton : Automaton} {construction : Construction}
    {assembly : Assembly} (sound : SoundAssembly automaton construction assembly) {id : StateId}
    (other : id ≠ automaton.placedId assembly) :
    (automaton.place construction assembly).tree? id = automaton.tree? id := by
  cases was : automaton.state? id with
  | some state => rw [tree?, tree?, was, Automaton.place, state?_pushAll_of_some was]
  | none =>
    have absent : automaton.tree? id = none := by rw [tree?, was]; rfl
    rw [absent]
    cases isTree : (automaton.place construction assembly).tree? id with
    | none => rfl
    | some treeNode => exact absurd (tree?_place sound isTree was).1 other

theorem Stocked.place {automaton : Automaton} {unowned : List GlueKind}
    (stocked : automaton.Stocked unowned) {construction : Construction} {assembly : Assembly}
    (assembled : automaton.assemble construction = .ok assembly) :
    (automaton.place construction assembly).Stocked unowned := by
  have added : (automaton.place construction assembly).glue = automaton.glue ++
      assembly.node.builtGlue.map fun kind => (kind, some (automaton.placedId assembly)) := by
    rw [Automaton.place, glue_pushAll, filterMap_listed?_assembly assembled]
  have absent : automaton.tree? (automaton.placedId assembly) = none := by
    cases isTree : automaton.tree? (automaton.placedId assembly) with
    | none => rfl
    | some treeNode =>
      have inBounds := lt_size_of_state? (tree?_eq_some_iff.mp isTree)
      dsimp only [placedId] at inBounds
      omega
  refine stocked.extend (.of_eq added) fun other => ?_
  cases other with
  | none => simp [due]
  | some owner =>
    by_cases same : owner = automaton.placedId assembly
    · subst same
      rw [if_pos rfl, due, due, tree?_placedId, absent]
      simp [TreeNode.glue, TreeNode.isLinked]
    · rw [if_neg (mt Option.some.inj same), due, due, tree?_place_of_ne (soundAssembly assembled)
        same, List.append_nil]

theorem Stocked.construct {automaton : Automaton} {unowned : List GlueKind}
    (stocked : automaton.Stocked unowned) {construction : Construction} {id : StateId}
    (constructed : (automaton.construct construction).answer = .ok id) :
    (automaton.construct construction).automaton.Stocked unowned := by
  obtain ⟨chained, assembly, assembled, linked, -⟩ := construct_eq_ok_iff.mp constructed
  rw [automaton_construct chained assembled]
  exact ((stocked.linkAll chained).place assembled).linkAll linked

/-- A back-reference is due no glue, whatever group it refers to. -/
theorem glue_tree?_regrouped (automaton : Automaton) (changed id : StateId)
    (group : Option StateId) :
    ((automaton.regrouped changed group).tree? id).map TreeNode.glue =
      (automaton.tree? id).map TreeNode.glue := by
  have plain {treeNode : TreeNode} {reference : BackReference}
      (content : treeNode.node = .leaf (.backReference reference)) : treeNode.glue = [] := by
    simp [TreeNode.glue, content, Node.builtGlue, Node.linkedGlue]
  cases isTree : automaton.tree? id with
  | some treeNode =>
    rcases tree?_regrouped isTree changed group with same | ⟨reference, other, content, changes⟩
    · rw [same]
    · rw [changes, Option.map_some, Option.map_some, plain content, plain rfl]
  | none =>
    cases now : (automaton.regrouped changed group).tree? id with
    | none => rfl
    | some treeNode =>
      rcases tree?_of_tree?_regrouped now with same | ⟨original, -, -, was, -⟩
      · cases isTree.symm.trans same
      · cases isTree.symm.trans was

theorem Stocked.regrouped {automaton : Automaton} {unowned : List GlueKind}
    (stocked : automaton.Stocked unowned) (changed : StateId) (group : Option StateId) :
    (automaton.regrouped changed group).Stocked unowned := by
  intro kind owner
  rw [glue_regrouped, stocked]
  cases owner with
  | none => rfl
  | some owner => rw [due, due, glue_tree?_regrouped]

/-- In every automaton that a run leads to, the glue is just what the nodes are due. -/
theorem stocked_performAll {source : Source} {calls : List Call}
    (performed : ((ofSource source).performAll calls).answer = .ok ()) :
    ((ofSource source).performAll calls).automaton.Stocked [] := by
  refine performAll_preserves (motive := (Stocked · []))
    (fun _ _ _ stocked constructed => stocked.construct constructed)
    (fun _ changed group stocked => stocked.regrouped changed group) ?_ performed
  intro kind owner
  cases owner <;> rfl

/-- Finishing adds the final and the start state, which have no owner, and links the rest. -/
theorem Stocked.finish {automaton : Automaton} (stocked : automaton.Stocked []) {root : StateId}
    {flags : FlagSet} {pattern : Pattern}
    (answered : (automaton.finish root flags).answer = .ok pattern) :
    pattern.automaton.Stocked [.final, .start] := by
  obtain ⟨-, linked, rfl⟩ := finish_eq_ok_iff.mp answered
  have added : (automaton.framed root flags).glue =
      automaton.glue ++ [GlueKind.final, .start].map fun kind => (kind, none) :=
    glue_pushAll automaton _
  have framed : (automaton.framed root flags).Stocked [.final, .start] := by
    refine stocked.extend (.of_eq added) fun other => ?_
    cases other with
    | none => rfl
    | some owner =>
      rw [if_neg (by simp), List.append_nil, due, due, framed,
        tree?_pushAll_of_glue (by simp [State.tree?])]
  exact framed.linkAll linked

/-! ### What a stocked arena has -/

/-- The tree nodes of the arena, in its order. -/
def treeNodes (automaton : Automaton) : List TreeNode :=
  automaton.states.toList.filterMap State.tree?

/-- No kind of glue is due twice to one owner. -/
theorem nodup_due (automaton : Automaton) {unowned : List GlueKind} (once : unowned.Nodup)
    (owner : Option StateId) : (automaton.due unowned owner).Nodup := by
  cases owner with
  | none => exact once
  | some owner =>
    rw [due]
    cases automaton.tree? owner with
    | none => exact List.nodup_nil
    | some treeNode => exact treeNode.nodup_glue

section

variable {automaton : Automaton} {unowned : List GlueKind}
  (stocked : automaton.Stocked unowned)

include stocked

/-- No kind of glue is listed twice for one owner. -/
theorem Stocked.nodup (once : unowned.Nodup) : automaton.glue.Nodup := by
  rw [List.nodup_iff_count_le_one]
  rintro ⟨kind, owner⟩
  rw [stocked]
  exact List.nodup_iff_count_le_one.mp (automaton.nodup_due once owner) kind

/-- A glue state is the only one of its kind with its owner. -/
theorem Stocked.unique (once : unowned.Nodup) {id other : StateId} {kind : GlueKind}
    {owner : Option StateId} (listed : automaton.Lists kind owner id)
    (also : automaton.Lists kind owner other) : id = other := by
  obtain ⟨state, found, isListed⟩ := listed
  obtain ⟨same, alsoFound, alsoListed⟩ := also
  have apart := List.pairwise_iff_getElem.mp (List.pairwise_filterMap.mp (stocked.nodup once))
  obtain ⟨inBounds, held⟩ := Array.getElem?_eq_some_iff.mp found
  obtain ⟨alsoInBounds, alsoHeld⟩ := Array.getElem?_eq_some_iff.mp alsoFound
  have differ {first second : Nat} (before : first < second)
      (firstBound : first < automaton.states.size) (secondBound : second < automaton.states.size)
      (one : automaton.states[first].listed? = some (kind, owner))
      (two : automaton.states[second].listed? = some (kind, owner)) : False :=
    apart first second (by simpa) (by simpa) before _ (by simpa using one) _ (by simpa using two)
      rfl
  rcases Nat.lt_trichotomy id.index other.index with before | same | after
  · exact (differ before inBounds alsoInBounds (held ▸ isListed) (alsoHeld ▸ alsoListed)).elim
  · exact congrArg StateId.mk same
  · exact (differ after alsoInBounds inBounds (alsoHeld ▸ alsoListed) (held ▸ isListed)).elim

end

theorem mem_glue {automaton : Automaton} {kind : GlueKind} {owner : Option StateId} :
    (kind, owner) ∈ automaton.glue ↔ ∃ id, automaton.Lists kind owner id := by
  rw [glue, List.mem_filterMap]
  constructor
  · rintro ⟨state, member, listed⟩
    obtain ⟨index, found⟩ := List.mem_iff_getElem?.mp member
    exact ⟨⟨index⟩, state, by rw [state?, ← Array.getElem?_toList, found], listed⟩
  · rintro ⟨id, state, found, listed⟩
    rw [state?, ← Array.getElem?_toList] at found
    exact ⟨state, List.mem_of_getElem? found, listed⟩

/-- The states are the tree nodes and the glue. -/
theorem size_eq_length_add_length (automaton : Automaton) :
    automaton.size = automaton.treeNodes.length + automaton.glue.length := by
  have split (states : List State) : states.length =
      (states.filterMap State.tree?).length + (states.filterMap State.listed?).length := by
    induction states with
    | nil => rfl
    | cons state rest inductionHypothesis =>
      rw [List.length_cons, inductionHypothesis]
      cases state <;>
        simp [List.filterMap_cons, State.tree?, State.listed?, State.glueKind?] <;> omega
  exact split automaton.states.toList

theorem treeNodes_eq (automaton : Automaton) :
    automaton.treeNodes = automaton.ids.filterMap automaton.tree? := by
  have inOrder : automaton.ids.map automaton.state? = automaton.states.toList.map some := by
    refine List.ext_getElem (by simp [ids, size]) fun index inBounds _ => ?_
    have small : index < automaton.states.size := by simpa [ids, size] using inBounds
    simp [ids, state?, small]
  have held : automaton.ids.filterMap automaton.state? = automaton.states.toList :=
    calc automaton.ids.filterMap automaton.state?
      _ = (automaton.ids.map automaton.state?).filterMap id := by rw [List.filterMap_map]; rfl
      _ = (automaton.states.toList.map some).filterMap id := by rw [inOrder]
      _ = automaton.states.toList := by simp [List.filterMap_map]
  rw [treeNodes, ← held, List.filterMap_filterMap]
  rfl

theorem Stocked.mem_glue {automaton : Automaton} {unowned : List GlueKind}
    (stocked : automaton.Stocked unowned) {kind : GlueKind} {owner : Option StateId} :
    (kind, owner) ∈ automaton.glue ↔ kind ∈ automaton.due unowned owner := by
  rw [← List.count_pos_iff, stocked, List.count_pos_iff]

/-- The glue of a stocked arena is the glue without an owner and what each node is due. -/
theorem Stocked.glue_perm {automaton : Automaton} {unowned : List GlueKind}
    (stocked : automaton.Stocked unowned) (once : unowned.Nodup) :
    automaton.glue ~ unowned.map (fun kind => (kind, none)) ++ automaton.ids.flatMap fun id =>
      (automaton.due unowned (some id)).map fun kind => (kind, some id) := by
  let tagged (owner : Option StateId) :=
    (automaton.due unowned owner).map fun kind => (kind, owner)
  have nodup_tagged (owner : Option StateId) : (tagged owner).Nodup :=
    (automaton.nodup_due once owner).map fun _ _ same => (Prod.mk.inj same).1
  have apart {one other : Option StateId} (differ : one ≠ other) :
      (tagged one).Disjoint (tagged other) := by
    rintro ⟨kind, owner⟩ left right
    obtain ⟨_, -, same⟩ := List.mem_map.mp left
    obtain ⟨_, -, also⟩ := List.mem_map.mp right
    exact differ ((Prod.mk.inj same).2.trans (Prod.mk.inj also).2.symm)
  refine (List.perm_ext_iff_of_nodup (stocked.nodup once) ?_).mpr ?_
  · refine (nodup_tagged none).append (List.nodup_flatMap.mpr ⟨fun id _ => nodup_tagged _,
      automaton.nodup_ids.imp fun differ => apart (mt Option.some.inj differ)⟩) ?_
    intro listed left right
    obtain ⟨id, -, member⟩ := List.mem_flatMap.mp right
    exact apart (Option.some_ne_none id).symm left member
  · rintro ⟨kind, owner⟩
    rw [stocked.mem_glue]
    cases owner with
    | none => simp [due]
    | some owner =>
      have listed : kind ∈ automaton.due unowned (some owner) → owner ∈ automaton.ids := by
        rw [due]
        cases isTree : automaton.tree? owner with
        | none => simp
        | some treeNode => exact fun _ => mem_ids_of_tree (tree_eq_ok_iff.mpr isTree)
      simpa using listed

/-- The kinds of glue in a stocked arena, whatever their order. -/
theorem Stocked.kinds_perm {automaton : Automaton} {unowned : List GlueKind}
    (stocked : automaton.Stocked unowned) (once : unowned.Nodup) :
    automaton.glue.map Prod.fst ~ unowned ++ automaton.treeNodes.flatMap TreeNode.glue := by
  have gathered (ids : List StateId) :
      (ids.flatMap fun id => automaton.due unowned (some id)) =
        (ids.filterMap automaton.tree?).flatMap TreeNode.glue := by
    induction ids with
    | nil => rfl
    | cons id rest inductionHypothesis =>
      rw [List.flatMap_cons, inductionHypothesis, List.filterMap_cons, due]
      cases automaton.tree? id <;> rfl
  have kinds := (stocked.glue_perm once).map Prod.fst
  rw [treeNodes_eq, ← gathered]
  simpa [List.map_flatMap, Function.comp_def] using kinds

/-! ### The inventory of a run -/

/-- What an arena has in stock: which glue each owner has, what the glue is for that a node is
entered or left by, and how many states there are. -/
structure Inventory (automaton : Automaton) (unowned : List GlueKind) : Prop where
  owned {id : StateId} {treeNode : TreeNode} : automaton.tree? id = some treeNode → ∀ kind,
    automaton.glue.count (kind, some id) = if kind ∈ treeNode.glue then 1 else 0
  unclaimed {id : StateId} : automaton.tree? id = none → ∀ kind, (kind, some id) ∉ automaton.glue
  free (kind : GlueKind) :
    automaton.glue.count (kind, none) = if kind ∈ unowned then 1 else 0
  entered {id : StateId} {treeNode : TreeNode} : automaton.tree? id = some treeNode →
    automaton.Entered id treeNode.node
  closed {id close element : StateId} {treeNode : TreeNode} {quantifier : Quantifier} :
    automaton.tree? id = some treeNode → treeNode.node = .repetition element quantifier →
      treeNode.continuation = some close →
        ∃ next, automaton.state? close = some (.endOfRepetition id next)
  size : automaton.size = automaton.treeNodes.length +
    (automaton.treeNodes.flatMap TreeNode.glue).length + unowned.length

/-- The end of a linked repetition is in stock, and it joins its owner. -/
theorem Stocked.exists_endOfRepetition {automaton : Automaton} {unowned : List GlueKind}
    (stocked : automaton.Stocked unowned) (glue : automaton.GlueOwned)
    {id close element : StateId} {treeNode : TreeNode} {quantifier : Quantifier}
    (isTree : automaton.tree? id = some treeNode)
    (content : treeNode.node = .repetition element quantifier)
    (continues : treeNode.continuation = some close) :
    ∃ next, automaton.state? close = some (.endOfRepetition id next) := by
  have due : (GlueKind.endOfRepetition, some id) ∈ automaton.glue := by
    rw [stocked.mem_glue, due, isTree]
    simp [TreeNode.glue, content, TreeNode.isLinked, continues, Node.linkedGlue]
  obtain ⟨other, state, found, listed⟩ := Automaton.mem_glue.mp due
  obtain ⟨owner, next, rfl⟩ : ∃ owner next, state = .endOfRepetition owner next := by
    cases state <;> simp [State.listed?, State.glueKind?] at listed ⊢
  obtain rfl : owner = id := by simpa [State.listed?, State.glueKind?, State.owner?] using listed
  obtain ⟨same, isTreeToo, joins, -⟩ := glue found owner rfl
  cases isTree.symm.trans isTreeToo
  cases continues.symm.trans joins
  exact ⟨next, found⟩

theorem Stocked.inventory {automaton : Automaton} {unowned : List GlueKind}
    (stocked : automaton.Stocked unowned) (once : unowned.Nodup) (glue : automaton.GlueOwned)
    (jointed : automaton.Jointed []) : automaton.Inventory unowned where
  owned := by
    intro id treeNode isTree kind
    rw [stocked, due, isTree]
    exact treeNode.nodup_glue.count
  unclaimed := by
    intro id absent kind
    rw [stocked.mem_glue, due, absent]
    exact List.not_mem_nil
  free kind := by
    rw [stocked]
    exact once.count
  entered := jointed.enteredAt
  closed := stocked.exists_endOfRepetition glue
  size := by
    have kinds := (stocked.kinds_perm once).length_eq
    rw [List.length_map, List.length_append] at kinds
    rw [size_eq_length_add_length, kinds]
    omega

/-- Wherever a run leads to, and in what finishing makes of it, each node owns each kind of glue
that it is due exactly once, and there is no other glue but the start and the final state of a
finished pattern. -/
theorem inventory_performAll (source : Source) (calls : List Call)
    (performed : ((ofSource source).performAll calls).answer = .ok ()) :
    let built := ((ofSource source).performAll calls).automaton
    built.Inventory [] ∧ ∀ root flags pattern, (built.finish root flags).answer = .ok pattern →
      pattern.automaton.Inventory [.final, .start] := by
  intro built
  have stocked := stocked_performAll performed
  have glue := glueOwned_performAll performed
  have jointed := jointed_performAll performed
  refine ⟨stocked.inventory List.nodup_nil glue jointed, fun root flags pattern answered => ?_⟩
  have sound := sound_of_finish jointed (balanced_performAll performed) answered
  exact (stocked.finish answered).inventory (by decide) (glue.finish answered) sound.jointed

theorem loop_inventory :
    let built := ((ofSource loopSource).performAll loopCalls).automaton
    built.Inventory [] ∧ ∃ pattern, (built.finish ⟨9⟩ .empty).answer = .ok pattern ∧
      pattern.automaton.Inventory [.final, .start] := by
  intro built
  obtain ⟨unfinished, finished⟩ := inventory_performAll loopSource loopCalls (by decide +kernel)
  have answers : (built.finish ⟨9⟩ .empty).answer.toOption.isSome := by decide +kernel
  obtain ⟨pattern, answered⟩ := exists_of_isSome_toOption answers
  exact ⟨unfinished, pattern, answered, finished _ _ _ answered⟩

end Automaton

theorem Pattern.Finished.stocked {pattern : Pattern} (finished : pattern.Finished) :
    pattern.automaton.Stocked [.final, .start] := by
  obtain ⟨source, calls, root, flags, ⟨performed, -⟩, ⟨answered, -⟩⟩ := finished
  exact (Automaton.stocked_performAll performed).finish answered

end PatternGraph
