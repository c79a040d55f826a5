/-
This file proves that a glue state can be read without knowing how it came about: its owner is a
tree node of the kind that has such glue, and the state leads where the owner dictates. A branch
chooses between the states that its owner demands, the end of a repetition is the continuation of
the repetition, and the glue before the element of a lookaround belongs to the way into it.

The ends of groups, lookarounds and conditionals, and the glue before the element of a lookaround,
are added together with their owner. Branches and ends of repetitions are added by linking, always
together with the continuation of their owner. A node is linked once, so afterwards neither its
continuation nor such glue changes any more. A new group for a back-reference leaves all other nodes
alone, and a back-reference owns no glue.

The rules of `SealedJoints` and `OpenJoints` say which glue a node has; here it is the glue that
tells what its owner is.
-/

import PatternGraph.Proofs.Finish

namespace PatternGraph

/-- Between which states the branch of a node chooses, given the continuation of the node. A
repetition goes on or ends, and a conditional has two patterns or one that may be skipped. -/
def Node.Chooses (node : Node) (id continuation : StateId) (choices : List StateId) : Prop :=
  match node with
  | .repetition .. => choices = [id, continuation] ∨ choices = [continuation, id]
  | .conditional _ yes _ no => choices = [yes, no.getD continuation]
  | _ => False

/-- A branch chooses between the node, its continuation and its children. -/
theorem Node.Chooses.mem {node : Node} {id continuation choice : StateId}
    {choices : List StateId} (chooses : node.Chooses id continuation choices)
    (member : choice ∈ choices) :
    choice = id ∨ choice = continuation ∨ choice ∈ node.children := by
  cases node with
  | repetition element quantifier =>
    rcases chooses with rfl | rfl <;> simp at member <;> tauto
  | conditional condition yes bar no =>
    obtain rfl : choices = [yes, no.getD continuation] := chooses
    cases no <;> simp at member ⊢ <;> tauto
  | _ => exact chooses.elim

/-- The state with the handle is glue that the node has. -/
def State.Joins (state : State) (id owner : StateId) (treeNode : TreeNode) : Prop :=
  match state with
  | .branch _ choices => ∃ continuation, treeNode.continuation = some continuation ∧
      treeNode.node.Chooses owner continuation choices
  | .endOfRepetition .. => treeNode.continuation = some id ∧ treeNode.node.kind = .repetition
  | .endOfCapturingGroup _ => treeNode.node.kind = .capturingGroup
  | .endOfLookaround _ => treeNode.node.kind = .lookAround
  | .negation _ content => ∃ body direction entry,
      treeNode.node = .lookAround body .negative direction entry ∧ body.element = content
  | .startOfLookBehind .. => ∃ body polarity, treeNode.node = .lookAround body polarity .behind id
  | .endOfConditional _ => treeNode.node.kind = .conditionalSubpatterns
  | .tree _ | .start .. | .final _ => False

/-- The same glue belongs to a node of which no more is known than that a continuation may have been
stored. -/
theorem State.Joins.mono {state : State} {id owner : StateId} {before after : TreeNode}
    (joins : state.Joins id owner before) (same : after.node = before.node)
    (kept : ∀ next, before.continuation = some next → after.continuation = some next) :
    state.Joins id owner after := by
  cases state with
  | branch _ choices =>
    obtain ⟨continuation, stored, chooses⟩ := joins
    exact ⟨continuation, kept _ stored, same ▸ chooses⟩
  | endOfRepetition _ next => exact ⟨kept _ joins.1, same ▸ joins.2⟩
  | endOfCapturingGroup _ | endOfLookaround _ | endOfConditional _ | negation _ _
  | startOfLookBehind _ _ =>
    rw [State.Joins, same]
    exact joins
  | tree _ | start _ _ | final _ => exact joins

theorem State.not_joins_leaf {state : State} {id owner : StateId} {treeNode : TreeNode}
    {reference : BackReference} (content : treeNode.node = .leaf (.backReference reference)) :
    ¬ state.Joins id owner treeNode := by
  cases state <;> simp [State.Joins, content, Node.Chooses, Node.kind, Leaf.kind]

namespace Automaton

/-- The owner of the state, if it has one, is a tree node that has it as its glue. -/
def Joined (automaton : Automaton) (id : StateId) (state : State) : Prop :=
  ∀ owner, state.owner? = some owner →
    ∃ treeNode, automaton.tree? owner = some treeNode ∧ state.Joins id owner treeNode

/-- All glue is that of its owner. -/
def GlueOwned (automaton : Automaton) : Prop :=
  ∀ ⦃id : StateId⦄ ⦃state : State⦄, automaton.state? id = some state → automaton.Joined id state

/-- Glue stays with its owner if the owner stays, apart from a continuation that is stored. -/
theorem Joined.mono {before after : Automaton} {id : StateId} {state : State}
    (joined : before.Joined id state)
    (keeps : ∀ {owner original}, before.tree? owner = some original →
      ∃ treeNode, after.tree? owner = some treeNode ∧ treeNode.node = original.node ∧
        ∀ next, original.continuation = some next → treeNode.continuation = some next) :
    after.Joined id state := by
  intro owner owned
  obtain ⟨original, wasTree, joins⟩ := joined owner owned
  obtain ⟨treeNode, isTree, same, kept⟩ := keeps wasTree
  exact ⟨treeNode, isTree, joins.mono same kept⟩

theorem joined_of_owner?_eq_none {automaton : Automaton} {id : StateId} {state : State}
    (unowned : state.owner? = none) : automaton.Joined id state := by
  intro owner owned
  cases unowned.symm.trans owned

/-! ### One link -/

section

variable {automaton : Automaton} {link : Link} {treeNode : TreeNode}
  (present : automaton.state? link.node = some (.tree treeNode))

include present

/-- The one state that is added with the end of a repetition is this end. -/
theorem eq_of_state?_closeRepetition {id : StateId} {state : State}
    (found : (automaton.closeRepetition link).state? id = some state)
    (absent : automaton.state? id = none) :
    id = automaton.nextId ∧ state = .endOfRepetition link.node link.next := by
  have other : id ≠ link.node := by
    rintro rfl
    cases absent.symm.trans present
  rw [closeRepetition, state?_store_of_ne _ other, state?_push] at found
  split at found
  · rename_i same
    exact ⟨same, (Option.some.inj found).symm⟩
  · cases absent.symm.trans found

/-- A repetition receives its end and perhaps a branch that leads back to it or to its end. -/
theorem joined_linkNode_repetition {element : StateId} {quantifier : Quantifier}
    (content : treeNode.node = .repetition element quantifier) {id : StateId} {state : State}
    (found : (automaton.linkNode link (.repetition element quantifier)).1.state? id = some state)
    (absent : automaton.state? id = none) :
    (automaton.linkNode link (.repetition element quantifier)).1.Joined id state := by
  have closed := state?_closeRepetition_node present
  have isEnd {after : Automaton}
      (now : after.state? link.node =
        some (.tree { treeNode with continuation := some automaton.nextId }))
      (added : (automaton.closeRepetition link).state? id = some state) :
      after.Joined id state := by
    obtain ⟨rfl, rfl⟩ := eq_of_state?_closeRepetition present added absent
    intro owner owned
    cases owned
    exact ⟨_, tree?_eq_some_iff.mpr now, rfl, by rw [content, Node.kind]⟩
  rw [linkNode_repetition] at found ⊢
  dsimp only at found ⊢
  by_cases once : quantifier.maximum = some 1
  · rw [if_pos once] at found ⊢
    exact isEnd closed found
  · rw [if_neg once] at found ⊢
    by_cases required : 1 ≤ quantifier.minimum
    · rw [if_pos required] at found ⊢
      have now := state?_push_of_some closed (.branch link.node
        (if quantifier.isReluctant then [automaton.nextId, link.node]
        else [link.node, automaton.nextId]))
      dsimp only at found ⊢
      rw [state?_push] at found
      split at found
      · cases found
        intro owner owned
        cases owned
        refine ⟨_, tree?_eq_some_iff.mpr now, automaton.nextId, rfl, ?_⟩
        rw [content, Node.Chooses]
        cases quantifier.isReluctant
        · exact Or.inl rfl
        · exact Or.inr rfl
      · exact isEnd now found
    · rw [if_neg required] at found ⊢
      exact isEnd closed found

theorem joined_linkNode_conditional {condition yes : StateId} {bar : Option SourceCharacter}
    {no : Option StateId} (content : treeNode.node = .conditional condition yes bar no)
    {id : StateId} {state : State}
    (found : (automaton.linkNode link (.conditional condition yes bar no)).1.state? id =
      some state) (absent : automaton.state? id = none) :
    (automaton.linkNode link (.conditional condition yes bar no)).1.Joined id state := by
  have now := state?_push_of_some (state?_store_node present link.next)
    (.branch link.node [yes, no.getD link.next])
  dsimp only [linkNode] at found ⊢
  rw [state?_push] at found
  split at found
  · cases found
    intro owner owned
    cases owned
    exact ⟨_, tree?_eq_some_iff.mpr now, link.next, rfl, by rw [content, Node.Chooses]⟩
  · rw [state?_store, absent, Option.map_none, ite_self] at found
    cases found

/-- Glue that linking a node adds is that of the node. -/
theorem joined_linkNode {id : StateId} {state : State}
    (found : (automaton.linkNode link treeNode.node).1.state? id = some state)
    (absent : automaton.state? id = none) :
    (automaton.linkNode link treeNode.node).1.Joined id state := by
  cases content : treeNode.node with
  | repetition element quantifier =>
    rw [content] at found
    exact joined_linkNode_repetition present content found absent
  | conditional condition yes bar no =>
    rw [content] at found
    exact joined_linkNode_conditional present content found absent
  | _ =>
    rw [content] at found
    dsimp only [linkNode] at found
    rw [state?_store, absent, Option.map_none, ite_self] at found
    cases found

end

/-- A link leaves every node as it is, except that one of them receives a continuation. -/
theorem LinkFrame.exists_keeping {before after : Automaton} {link : Link} {treeNode : TreeNode}
    (frame : LinkFrame before link treeNode after)
    (linkable : before.linkable link.node = .ok treeNode) {id : StateId} {original : TreeNode}
    (wasTree : before.tree? id = some original) :
    ∃ linked, after.tree? id = some linked ∧ linked.node = original.node ∧
      ∀ next, original.continuation = some next → linked.continuation = some next := by
  obtain ⟨present, unlinked⟩ := linkable_eq_ok_iff.mp linkable
  by_cases same : id = link.node
  · subst same
    obtain ⟨continuation, stored⟩ := frame.stored
    cases (tree?_eq_some_iff.mp wasTree).symm.trans present
    -- The node had no continuation that could be lost.
    refine ⟨_, tree?_eq_some_iff.mpr stored, rfl, fun next continues => ?_⟩
    rw [TreeNode.isLinked, continues] at unlinked
    cases unlinked
  · exact ⟨original, (frame.tree?_of_ne same).trans wasTree, rfl, fun _ continues => continues⟩

/-- A link keeps the glue that was there, and what it adds is that of the node. -/
theorem GlueOwned.linkNode {automaton : Automaton} (owned : automaton.GlueOwned)
    {link : Link} {treeNode : TreeNode} (linkable : automaton.linkable link.node = .ok treeNode) :
    (automaton.linkNode link treeNode.node).1.GlueOwned := by
  obtain ⟨present, -⟩ := linkable_eq_ok_iff.mp linkable
  have frame := (linkStep_linkNode present).toLinkFrame
  intro id state found
  cases was : automaton.state? id with
  | none => exact joined_linkNode present found was
  | some original =>
    by_cases same : id = link.node
    · subst same
      obtain ⟨continuation, stored⟩ := frame.stored
      cases found.symm.trans stored
      exact joined_of_owner?_eq_none rfl
    · cases found.symm.trans (frame.kept was same)
      exact (owned was).mono (frame.exists_keeping linkable)

theorem GlueOwned.linkAll {automaton : Automaton} {links : List Link}
    (owned : automaton.GlueOwned) (linked : (automaton.linkAll links).answer = .ok ()) :
    (automaton.linkAll links).automaton.GlueOwned := by
  refine linkAll_induction (motive := fun automaton _ => automaton.GlueOwned) ?_ owned linked
  intro before link treeNode after brought pending linkable made held
  have stepped := held.linkNode linkable
  rwa [made] at stepped

/-! ### Added states -/

/-- States may be added as long as the glue among them is that of its owner. -/
theorem GlueOwned.pushAll {automaton : Automaton} (owned : automaton.GlueOwned)
    (states : List State)
    (joined : ∀ offset state, states[offset]? = some state →
      (automaton.pushAll states).Joined ⟨automaton.size + offset⟩ state) :
    (automaton.pushAll states).GlueOwned := by
  intro id state found
  cases was : automaton.state? id with
  | none =>
    obtain ⟨offset, rfl, added⟩ := mem_of_state?_pushAll found was
    exact joined offset state added
  | some original =>
    cases found.symm.trans (state?_pushAll_of_some was states)
    refine (owned was).mono fun wasTree => ⟨_, ?_, rfl, fun _ continues => continues⟩
    exact tree?_eq_some_iff.mpr
      (state?_pushAll_of_some (tree?_eq_some_iff.mp wasTree) states)

section

variable {automaton : Automaton} {construction : Construction}

/-- A node that is added alone brings no glue. -/
theorem not_owner?_of_plain {node : Node} {offset : Nat} {state : State}
    (added : (Assembly.states { node := node } construction)[offset]? = some state) :
    state.owner? = none := by
  cases offset with
  | zero =>
    cases added
    rfl
  | succ offset => cases added

/-- Before a lookaround stands the glue on the way into its element, and after it its end. -/
theorem joins_lookAround {polarity : Polarity} {direction : Direction} {element : StateId}
    {body : GroupBody} (same : body.element = element) {treeNode : TreeNode}
    (content : treeNode.node = .lookAround body polarity direction
      (if wrapperCount polarity direction = 0 then element
      else ⟨automaton.size + wrapperCount polarity direction - 1⟩))
    {lookaround owner : StateId} {offset : Nat} {state : State}
    (added : (automaton.lookAroundWrappers polarity direction lookaround element ++
      [.tree treeNode, .endOfLookaround lookaround])[offset]? = some state)
    (owned : state.owner? = some owner) (placed : StateId) :
    state.Joins ⟨automaton.size + offset⟩ placed treeNode := by
  have ends {after : Nat} (close : [State.tree treeNode, .endOfLookaround lookaround][after]? =
      some state) (id : StateId) : state.Joins id placed treeNode := by
    rcases after with _ | _ | after
    · cases close
      cases owned
    · cases close
      rw [State.Joins, content, Node.kind]
    · cases close
  cases polarity <;> cases direction
  case positive.ahead => exact ends added _
  case positive.behind =>
    rcases offset with _ | offset
    · cases added
      exact ⟨body, _, content⟩
    · exact ends added _
  case negative.ahead =>
    rcases offset with _ | offset
    · cases added
      exact ⟨body, _, _, content, same⟩
    · exact ends added _
  case negative.behind =>
    rcases offset with _ | _ | offset
    · cases added
      exact ⟨body, _, _, content, same⟩
    · cases added
      exact ⟨body, _, content⟩
    · exact ends added _

/-- The glue of an assembly is that of its node. -/
theorem joins_assembly {assembly : Assembly}
    (assembled : automaton.assemble construction = .ok assembly) {offset : Nat} {state : State}
    {owner : StateId} (added : (assembly.states construction)[offset]? = some state)
    (owned : state.owner? = some owner) :
    state.Joins ⟨automaton.size + offset⟩ (automaton.placedId assembly)
      ⟨construction.range, construction.flags, assembly.node, none⟩ := by
  have plain {node : Node} (same : assembly = { node := node }) : state.owner? = none :=
    not_owner?_of_plain (same ▸ added)
  unfold assemble at assembled
  cases form : construction.form with
  | capturingGroup name number element =>
    simp only [form] at assembled
    obtain ⟨body, -, rfl⟩ := exists_body_of_map assembled
    rcases offset with _ | _ | offset
    · cases added
      cases owned
    · cases added
      rfl
    · cases added
  | lookAround polarity direction element =>
    simp only [form] at assembled
    obtain ⟨body, same, rfl⟩ := exists_body_of_map assembled
    exact joins_lookAround same rfl added owned _
  | conditional condition yes bar no =>
    simp only [form, Except.ok.injEq] at assembled
    subst assembled
    rcases offset with _ | _ | offset
    · cases added
      cases owned
    · cases added
      rfl
    · cases added
  | nonCapturingGroup enabled disabled element =>
    cases element with
    | none =>
      simp only [form, Except.ok.injEq] at assembled
      cases owned.symm.trans (plain assembled.symm)
    | some element =>
      simp only [form] at assembled
      obtain ⟨body, -, made⟩ := exists_body_of_map assembled
      cases owned.symm.trans (plain made.symm)
  | atomicGroup element =>
    simp only [form] at assembled
    obtain ⟨body, -, made⟩ := exists_body_of_map assembled
    cases owned.symm.trans (plain made.symm)
  | _ =>
    simp only [form, Except.ok.injEq] at assembled
    cases owned.symm.trans (plain assembled.symm)

theorem GlueOwned.place {assembly : Assembly} (glue : automaton.GlueOwned)
    (assembled : automaton.assemble construction = .ok assembly) :
    (automaton.place construction assembly).GlueOwned := by
  refine glue.pushAll _ fun offset state added owner owned => ?_
  have sound := soundAssembly assembled
  have isTree : (automaton.place construction assembly).tree? (automaton.placedId assembly) =
      some ⟨construction.range, construction.flags, assembly.node, none⟩ := by
    refine tree?_eq_some_iff.mpr ((state?_place automaton construction assembly _).trans ?_)
    simp [Assembly.states]
  obtain rfl : automaton.placedId assembly = owner := by
    rcases mem_states_assembly sound added with ⟨-, rfl⟩ | ⟨ownedToo, -⟩
    · cases owned
    · exact Option.some.inj (ownedToo.symm.trans owned)
  exact ⟨_, isTree, joins_assembly assembled added owned⟩

end

/-! ### Runs -/

theorem GlueOwned.construct {automaton : Automaton} (glue : automaton.GlueOwned)
    {construction : Construction} {id : StateId}
    (constructed : (automaton.construct construction).answer = .ok id) :
    (automaton.construct construction).automaton.GlueOwned := by
  obtain ⟨chained, assembly, assembled, linked, -⟩ := construct_eq_ok_iff.mp constructed
  rw [automaton_construct chained assembled]
  exact ((glue.linkAll chained).place assembled).linkAll linked

theorem GlueOwned.regrouped {automaton : Automaton} (glue : automaton.GlueOwned)
    (changed : StateId) (group : Option StateId) :
    (automaton.regrouped changed group).GlueOwned := by
  intro id state found owner owned
  have isGlue := tree?_of_owner? owned
  obtain ⟨treeNode, isTree, joins⟩ := glue (state?_of_state?_regrouped found isGlue) owner owned
  -- The owner is no back-reference, so it is the same node as before.
  rcases tree?_regrouped isTree changed group with same | ⟨reference, other, content, -⟩
  · exact ⟨treeNode, same, joins⟩
  · exact absurd joins (State.not_joins_leaf content)

/-- Finishing adds states without an owner, and then links the rest. -/
theorem GlueOwned.finish {automaton : Automaton} (glue : automaton.GlueOwned) {root : StateId}
    {flags : FlagSet} {pattern : Pattern}
    (answered : (automaton.finish root flags).answer = .ok pattern) :
    pattern.automaton.GlueOwned := by
  obtain ⟨-, linked, rfl⟩ := finish_eq_ok_iff.mp answered
  have framed := glue.pushAll [.final flags, .start root flags] fun offset state added => by
    refine joined_of_owner?_eq_none ?_
    rcases offset with _ | _ | offset <;> cases added <;> rfl
  exact framed.linkAll linked

/-- In every automaton that a run leads to, all glue is that of its owner. -/
theorem glueOwned_performAll {source : Source} {calls : List Call}
    (performed : ((ofSource source).performAll calls).answer = .ok ()) :
    ((ofSource source).performAll calls).automaton.GlueOwned := by
  refine performAll_preserves (motive := GlueOwned)
    (fun _ _ _ glue constructed => glue.construct constructed)
    (fun _ changed group glue => glue.regrouped changed group) ?_ performed
  intro id state found
  rw [state?_ofSource] at found
  cases found

end Automaton

theorem Pattern.Finished.glueOwned {pattern : Pattern} (finished : pattern.Finished) :
    pattern.automaton.GlueOwned := by
  obtain ⟨source, calls, root, flags, ⟨performed, -⟩, ⟨answered, -⟩⟩ := finished
  exact (Automaton.glueOwned_performAll performed).finish answered

end PatternGraph
