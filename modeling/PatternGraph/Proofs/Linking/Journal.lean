/-
This file lists what linking does, deed by deed: which links are taken up, which states are added
and where continuations are stored. Nothing is assumed of the arena.

A journal of deeds can be replayed, and replaying checks every store: the node has to be a tree node
that has no continuation at that point. A continuation once stored stays, so deeds that can be
replayed store at most once in each node. That the journal of linking can be replayed, and leads to
the arena that linking leaves, therefore says where continuations were stored and what was added.

The deeds of a node come before those of its children. They are a store, with at most one glue state
added before it and at most one after it. A call for a child thus stands behind the store of its
parent, and as the glue is no tree node, each call finds one unlinked node less than the call before
it.
-/

import PatternGraph.Proofs.Linking.Cascade

namespace PatternGraph

/-! ### Deeds -/

/-- Something done in the course of linking. -/
inductive Deed
  /-- A link is taken up. -/
  | call (link : Link)
  /-- A state is added to the arena. -/
  | push (state : State)
  /-- The continuation of a tree node is stored. -/
  | store (link : Link)

namespace Deed

def isCall : Deed → Bool
  | .call _ => true
  | .push _ | .store _ => false

def pushed? : Deed → Option State
  | .push state => some state
  | .call _ | .store _ => none

def stored? : Deed → Option StateId
  | .store link => some link.node
  | .call _ | .push _ => none

end Deed

/-- The states that some deeds add. -/
def pushedBy (deeds : List Deed) : List State := deeds.filterMap Deed.pushed?

/-- The nodes that some deeds store a continuation in. -/
def storedBy (deeds : List Deed) : List StateId := deeds.filterMap Deed.stored?

theorem pushedBy_append (front back : List Deed) :
    pushedBy (front ++ back) = pushedBy front ++ pushedBy back := List.filterMap_append

theorem storedBy_append (front back : List Deed) :
    storedBy (front ++ back) = storedBy front ++ storedBy back := List.filterMap_append

/-- A call behind deeds that are no calls comes at some place behind all of them. -/
theorem exists_of_append_eq_call {own rest front back : List Deed} {link : Link}
    (noCall : ∀ deed ∈ own, deed.isCall = false)
    (split : own ++ rest = front ++ .call link :: back) :
    ∃ front', front = own ++ front' ∧ rest = front' ++ .call link :: back := by
  rcases List.append_eq_append_iff.mp split with ⟨front', same, behind⟩ | ⟨between, same, behind⟩
  · exact ⟨front', same, behind⟩
  · cases between with
    | nil => exact ⟨[], by rw [same]; simp, by simpa using behind.symm⟩
    | cons first between =>
      -- Here the call would be one of the deeds that are no calls.
      obtain ⟨rfl, -⟩ := List.cons.inj behind
      have isCall := noCall (.call link) (by rw [same]; simp)
      cases isCall

namespace Automaton

/-- The arena after some deeds. Only a tree node without continuation can have one stored. -/
def replay : Automaton → List Deed → Except Fault Automaton
  | automaton, [] => .ok automaton
  | automaton, .call _ :: rest => automaton.replay rest
  | automaton, .push state :: rest => (automaton.push state).replay rest
  | automaton, .store link :: rest =>
    (automaton.linkable link.node).bind fun _ => (automaton.store link).replay rest

theorem replay_append (automaton : Automaton) (front back : List Deed) :
    automaton.replay (front ++ back) =
      (automaton.replay front).bind fun between => between.replay back := by
  induction front generalizing automaton with
  | nil => rfl
  | cons deed rest inductionHypothesis =>
    cases deed with
    | call link => exact inductionHypothesis automaton
    | push state => exact inductionHypothesis (automaton.push state)
    | store link =>
      rw [List.cons_append, replay, replay]
      cases automaton.linkable link.node with
      | error fault => rfl
      | ok treeNode => exact inductionHypothesis (automaton.store link)

/-- A store that can be replayed finds a tree node without continuation. -/
theorem linkable_of_replay {before after : Automaton} {link : Link} {rest : List Deed}
    (replayed : before.replay (.store link :: rest) = .ok after) :
    ∃ treeNode, before.linkable link.node = .ok treeNode ∧
      (before.store link).replay rest = .ok after := by
  rw [replay] at replayed
  cases linkable : before.linkable link.node with
  | error fault =>
    rw [linkable] at replayed
    cases replayed
  | ok treeNode =>
    rw [linkable] at replayed
    exact ⟨treeNode, rfl, replayed⟩

theorem linkable_push {automaton : Automaton} {id : StateId} {treeNode : TreeNode}
    (linkable : automaton.linkable id = .ok treeNode) (state : State) :
    (automaton.push state).linkable id = .ok treeNode := by
  obtain ⟨present, unlinked⟩ := linkable_eq_ok_iff.mp linkable
  exact linkable_eq_ok_iff.mpr ⟨state?_push_of_some present state, unlinked⟩

/-! ### No node is stored twice -/

theorem IsLinked.push {automaton : Automaton} {id : StateId} (isLinked : automaton.IsLinked id)
    (state : State) : (automaton.push state).IsLinked id := by
  obtain ⟨treeNode, isTree, linked⟩ := isLinked
  exact ⟨treeNode, tree?_eq_some_iff.mpr (state?_push_of_some (tree?_eq_some_iff.mp isTree) state),
    linked⟩

theorem not_isLinked_of_linkable {automaton : Automaton} {id : StateId} {treeNode : TreeNode}
    (linkable : automaton.linkable id = .ok treeNode) : ¬automaton.IsLinked id := by
  rintro ⟨other, isTree, linked⟩
  obtain ⟨present, unlinked⟩ := linkable_eq_ok_iff.mp linkable
  cases (tree?_eq_some_iff.mp isTree).symm.trans present
  cases unlinked.symm.trans linked

theorem isLinked_store_iff {automaton : Automaton} {link : Link} {treeNode : TreeNode}
    (linkable : automaton.linkable link.node = .ok treeNode) (id : StateId) :
    (automaton.store link).IsLinked id ↔ id = link.node ∨ automaton.IsLinked id :=
  (linkFrame_store (linkable_eq_ok_iff.mp linkable).1).isLinked_iff id

/-- Deeds that can be replayed store nothing in a node that was linked before. -/
theorem not_mem_storedBy_of_isLinked {before after : Automaton} {deeds : List Deed}
    (replayed : before.replay deeds = .ok after) {id : StateId}
    (isLinked : before.IsLinked id) : id ∉ storedBy deeds := by
  induction deeds generalizing before with
  | nil => exact List.not_mem_nil
  | cons deed rest inductionHypothesis =>
    cases deed with
    | call link => exact inductionHypothesis replayed isLinked
    | push state => exact inductionHypothesis replayed (isLinked.push state)
    | store link =>
      obtain ⟨treeNode, linkable, behind⟩ := linkable_of_replay replayed
      have apart : id ≠ link.node := by
        rintro rfl
        exact not_isLinked_of_linkable linkable isLinked
      exact List.not_mem_cons_of_ne_of_not_mem apart
        (inductionHypothesis behind ((isLinked_store_iff linkable id).mpr (Or.inr isLinked)))

/-- So they store at most once in each node. -/
theorem nodup_storedBy {before after : Automaton} {deeds : List Deed}
    (replayed : before.replay deeds = .ok after) : (storedBy deeds).Nodup := by
  induction deeds generalizing before with
  | nil => exact List.nodup_nil
  | cons deed rest inductionHypothesis =>
    cases deed with
    | call link => exact inductionHypothesis replayed
    | push state => exact inductionHypothesis replayed
    | store link =>
      obtain ⟨treeNode, linkable, behind⟩ := linkable_of_replay replayed
      have isLinked := (isLinked_store_iff linkable link.node).mpr (Or.inl rfl)
      exact List.nodup_cons.mpr
        ⟨not_mem_storedBy_of_isLinked behind isLinked, inductionHypothesis behind⟩

end Automaton

/-! ### The deeds of a single node -/

/-- What linking a node does before any of its children is linked: it may add the end of a
repetition, it stores a continuation, and then it may add a branch. -/
structure OwnWork where
  close : Option State := none
  continuation : StateId
  branch : Option State := none

namespace OwnWork

/-- The glue that is added. -/
def glue (work : OwnWork) : List State := work.close.toList ++ work.branch.toList

def deeds (work : OwnWork) (node : StateId) : List Deed :=
  work.close.toList.map .push ++ .store ⟨node, work.continuation⟩ :: work.branch.toList.map .push

variable (work : OwnWork) (node : StateId)

theorem length_glue_le : work.glue.length ≤ 2 := by
  rw [glue, List.length_append]
  exact Nat.add_le_add Option.length_toList_le Option.length_toList_le

theorem isCall_deeds : ∀ deed ∈ work.deeds node, deed.isCall = false := by
  simp [deeds, or_imp, forall_and, Deed.isCall]

theorem storedBy_deeds : storedBy (work.deeds node) = [node] := by
  simp [storedBy, deeds, List.filterMap_map, Function.comp_def, Deed.stored?]

theorem pushedBy_deeds : pushedBy (work.deeds node) = work.glue := by
  simp [pushedBy, deeds, glue, List.filterMap_cons, List.filterMap_map, Function.comp_def,
    Deed.pushed?]

end OwnWork

namespace Automaton

/-- The work on a node by its kind. -/
def ownWork (automaton : Automaton) (link : Link) : Node → OwnWork
  | .repetition _ quantifier =>
    let close := automaton.nextId
    { close := some (.endOfRepetition link.node link.next)
      continuation := close
      branch :=
        if quantifier.maximum = some 1 then none
        else if 1 ≤ quantifier.minimum then
          some (.branch link.node
            (if quantifier.isReluctant then [close, link.node] else [link.node, close]))
        else none }
  | .conditional _ yes _ no =>
    { continuation := link.next, branch := some (.branch link.node [yes, no.getD link.next]) }
  | _ => { continuation := link.next }

def ownDeeds (automaton : Automaton) (link : Link) (node : Node) : List Deed :=
  (automaton.ownWork link node).deeds link.node

/-- The work can be performed on a node that can be linked, and it is all that a step of linking
does to the arena. -/
theorem replay_ownDeeds {automaton : Automaton} {link : Link} {treeNode : TreeNode}
    (linkable : automaton.linkable link.node = .ok treeNode) (node : Node) :
    automaton.replay (automaton.ownDeeds link node) = .ok (automaton.linkNode link node).1 := by
  have still (state : State) : (automaton.push state).linkable link.node = .ok treeNode :=
    linkable_push linkable state
  cases node with
  | repetition element quantifier =>
    rw [linkNode_repetition]
    by_cases once : quantifier.maximum = some 1
    · simp [ownDeeds, ownWork, OwnWork.deeds, once, replay, still, Except.bind, closeRepetition]
    · by_cases required : 1 ≤ quantifier.minimum <;>
        simp [ownDeeds, ownWork, OwnWork.deeds, once, required, replay, still, Except.bind,
          closeRepetition]
  | _ => simp [ownDeeds, ownWork, OwnWork.deeds, linkNode, replay, linkable, Except.bind]

/-- Glue is added for the node itself. -/
theorem owner?_glue_ownWork {automaton : Automaton} {link : Link} {node : Node} {state : State}
    (added : state ∈ (automaton.ownWork link node).glue) : state.owner? = some link.node := by
  cases node with
  | repetition element quantifier =>
    simp only [ownWork, OwnWork.glue, Option.toList_some, List.singleton_append, List.mem_cons,
      Option.mem_toList] at added
    rcases added with rfl | branch
    · rfl
    · split at branch
      · cases branch
      · split at branch
        · cases branch
          rfl
        · cases branch
  | conditional condition yes bar no =>
    simp only [ownWork, OwnWork.glue, Option.toList_none, Option.toList_some, List.nil_append,
      List.mem_singleton] at added
    subst added
    rfl
  | _ => cases added

/-! ### The deeds of a step

A step is a call with the deeds of its node. More deeds come behind them. -/

section

variable (automaton : Automaton) (link : Link) (node : Node) (rest : List Deed)

theorem storedBy_step :
    storedBy (.call link :: (automaton.ownDeeds link node ++ rest)) =
      link.node :: storedBy rest := by
  rw [storedBy, List.filterMap_cons_none rfl, ← storedBy, storedBy_append, ownDeeds,
    OwnWork.storedBy_deeds, List.singleton_append]

theorem pushedBy_step :
    pushedBy (.call link :: (automaton.ownDeeds link node ++ rest)) =
      (automaton.ownWork link node).glue ++ pushedBy rest := by
  rw [pushedBy, List.filterMap_cons_none rfl, ← pushedBy, pushedBy_append, ownDeeds,
    OwnWork.pushedBy_deeds]

theorem countP_isCall_step :
    (Deed.call link :: (automaton.ownDeeds link node ++ rest)).countP Deed.isCall =
      rest.countP Deed.isCall + 1 := by
  have own : (automaton.ownDeeds link node).countP Deed.isCall = 0 :=
    List.countP_eq_zero.mpr fun deed member => by
      simp [OwnWork.isCall_deeds _ _ deed member]
  rw [List.countP_cons_of_pos rfl, List.countP_append, own, Nat.zero_add]

variable {automaton link}

theorem replay_step {treeNode : TreeNode}
    (linkable : automaton.linkable link.node = .ok treeNode) :
    automaton.replay (.call link :: (automaton.ownDeeds link node ++ rest)) =
      (automaton.linkNode link node).1.replay rest := by
  rw [replay, replay_append, replay_ownDeeds linkable]
  rfl

end

/-! ### The journal -/

/-- All that linking does, in order. -/
def journal (automaton : Automaton) (links : List Link) : List Deed :=
  match links with
  | [] => []
  | link :: pending =>
    match _linkable : automaton.linkable link.node with
    | .error _ => [.call link]
    | .ok treeNode =>
      let linked := automaton.linkNode link treeNode.node
      .call link ::
        (automaton.ownDeeds link treeNode.node ++ journal linked.1 (linked.2 ++ pending))
termination_by automaton.unlinkedCount
decreasing_by
  have smaller := unlinkedCount_linkNode _linkable treeNode.node
  omega

theorem journal_nil (automaton : Automaton) : automaton.journal [] = [] := by rw [journal]

theorem journal_cons_error {automaton : Automaton} {link : Link} {fault : Fault}
    (refused : automaton.linkable link.node = .error fault) (pending : List Link) :
    automaton.journal (link :: pending) = [.call link] := by
  rw [journal]
  split
  · rfl
  · rename_i found linkable
    cases refused.symm.trans linkable

theorem journal_cons_ok {automaton : Automaton} {link : Link} {treeNode : TreeNode}
    (linkable : automaton.linkable link.node = .ok treeNode) (pending : List Link) :
    automaton.journal (link :: pending) =
      .call link :: (automaton.ownDeeds link treeNode.node ++
        (automaton.linkNode link treeNode.node).1.journal
          ((automaton.linkNode link treeNode.node).2 ++ pending)) := by
  rw [journal]
  split
  · rename_i fault refused
    cases linkable.symm.trans refused
  · rename_i found same
    cases linkable.symm.trans same
    rfl

/-- The journal accounts for whatever linking changes. -/
theorem replay_journal (automaton : Automaton) (links : List Link) :
    automaton.replay (automaton.journal links) = .ok (automaton.linkAll links).automaton := by
  induction automaton, links using row_induction with
  | nil automaton =>
    rw [journal_nil, linkAll]
    rfl
  | refused automaton link pending fault refused =>
    rw [journal_cons_error refused, linkAll_cons_error refused]
    rfl
  | linked automaton link pending treeNode linkable inductionHypothesis =>
    rw [journal_cons_ok linkable, linkAll_cons_ok linkable, replay_step _ _ linkable]
    exact inductionHypothesis

/-- Continuations are stored in nodes that had none from the start. -/
theorem isUnlinked_of_mem_storedBy {automaton : Automaton} {links : List Link} {id : StateId}
    (stored : id ∈ storedBy (automaton.journal links)) : automaton.IsUnlinked id := by
  induction automaton, links using row_induction with
  | nil automaton =>
    rw [journal_nil] at stored
    cases stored
  | refused automaton link pending fault refused =>
    rw [journal_cons_error refused] at stored
    cases stored
  | linked automaton link pending treeNode linkable inductionHypothesis =>
    obtain ⟨present, unlinked⟩ := linkable_eq_ok_iff.mp linkable
    have frame := (linkStep_linkNode present).toLinkFrame
    rw [journal_cons_ok linkable, storedBy_step] at stored
    rcases List.mem_cons.mp stored with rfl | later
    · exact ⟨treeNode, tree?_eq_some_iff.mpr present, unlinked⟩
    · have apart : id ≠ link.node := frame.ne_of_isUnlinked (inductionHypothesis later)
      obtain ⟨other, isTree, otherUnlinked⟩ := inductionHypothesis later
      exact ⟨other, (frame.tree?_of_ne apart).symm.trans isTree, otherUnlinked⟩

/-- Glue is added for nodes only in which a continuation is stored. -/
theorem exists_owner_of_mem_pushedBy {automaton : Automaton} {links : List Link} {state : State}
    (added : state ∈ pushedBy (automaton.journal links)) :
    ∃ owner ∈ storedBy (automaton.journal links), state.owner? = some owner := by
  induction automaton, links using row_induction with
  | nil automaton =>
    rw [journal_nil] at added
    cases added
  | refused automaton link pending fault refused =>
    rw [journal_cons_error refused] at added
    cases added
  | linked automaton link pending treeNode linkable inductionHypothesis =>
    rw [journal_cons_ok linkable] at added ⊢
    rw [pushedBy_step] at added
    rw [storedBy_step]
    rcases List.mem_append.mp added with own | later
    · exact ⟨link.node, List.mem_cons_self, owner?_glue_ownWork own⟩
    · obtain ⟨owner, stored, owned⟩ := inductionHypothesis later
      exact ⟨owner, List.mem_cons_of_mem _ stored, owned⟩

/-- The glue that belongs to a node. -/
def glueOf (owner : StateId) (states : List State) : List State :=
  states.filter fun state => state.owner? = some owner

theorem length_glueOf_ownWork_le (automaton : Automaton) (link : Link) (node : Node)
    (owner : StateId) :
    (glueOf owner (automaton.ownWork link node).glue).length ≤ 2 * [link.node].count owner := by
  by_cases same : owner = link.node
  · subst same
    refine (List.length_filter_le _ _).trans ?_
    rw [List.count_singleton_self]
    exact (automaton.ownWork link node).length_glue_le
  · have none : glueOf owner (automaton.ownWork link node).glue = [] := by
      refine List.filter_eq_nil_iff.mpr fun state added owned => same ?_
      exact Option.some.inj ((of_decide_eq_true owned).symm.trans (owner?_glue_ownWork added))
    rw [none]
    exact Nat.zero_le _

/-- Each store goes with two glue states of the node at most. -/
theorem length_glueOf_journal_le (automaton : Automaton) (links : List Link) (owner : StateId) :
    (glueOf owner (pushedBy (automaton.journal links))).length ≤
      2 * (storedBy (automaton.journal links)).count owner := by
  induction automaton, links using row_induction with
  | nil automaton =>
    rw [journal_nil]
    exact Nat.zero_le _
  | refused automaton link pending fault refused =>
    rw [journal_cons_error refused]
    exact Nat.zero_le _
  | linked automaton link pending treeNode linkable inductionHypothesis =>
    have own := automaton.length_glueOf_ownWork_le link treeNode.node owner
    rw [journal_cons_ok linkable, pushedBy_step, storedBy_step, glueOf, List.filter_append,
      List.length_append, ← List.singleton_append, List.count_append, Nat.mul_add]
    exact Nat.add_le_add own inductionHypothesis

/-! ### What stands before a call -/

/-- A node that cannot be linked makes no further calls. -/
theorem journal_cons_error_split {automaton : Automaton} {link called : Link} {fault : Fault}
    (refused : automaton.linkable link.node = .error fault) {pending : List Link}
    {front back : List Deed}
    (split : automaton.journal (link :: pending) = front ++ .call called :: back) :
    front = [] ∧ called = link := by
  rw [journal_cons_error refused, List.singleton_eq_append_iff] at split
  obtain ⟨none, same⟩ | ⟨-, same⟩ := split
  · exact ⟨none, Deed.call.inj (List.cons.inj same).1⟩
  · cases same

/-- Any call is the first one, or it comes behind the deeds of the first node. -/
theorem journal_cons_split {automaton : Automaton} {link called : Link} {treeNode : TreeNode}
    (linkable : automaton.linkable link.node = .ok treeNode) {pending : List Link}
    {front back : List Deed}
    (split : automaton.journal (link :: pending) = front ++ .call called :: back) :
    front = [] ∧ called = link ∨ ∃ later,
      front = .call link :: (automaton.ownDeeds link treeNode.node ++ later) ∧
        (automaton.linkNode link treeNode.node).1.journal
          ((automaton.linkNode link treeNode.node).2 ++ pending) =
            later ++ .call called :: back := by
  rw [journal_cons_ok linkable] at split
  cases front with
  | nil => exact Or.inl ⟨rfl, (Deed.call.inj (List.cons.inj split).1).symm⟩
  | cons deed front =>
    obtain ⟨rfl, behind⟩ := List.cons.inj split
    obtain ⟨later, rfl, rest⟩ := exists_of_append_eq_call (OwnWork.isCall_deeds _ _) behind
    exact Or.inr ⟨later, rfl, rest⟩

/-- Where a journal comes to a call, as many nodes have been linked as there were calls before. -/
theorem unlinkedCount_before_call {automaton : Automaton} {links : List Link}
    {front back : List Deed} {called : Link}
    (split : automaton.journal links = front ++ .call called :: back) :
    ∃ now, automaton.replay front = .ok now ∧
      now.unlinkedCount + front.countP Deed.isCall = automaton.unlinkedCount := by
  induction automaton, links using row_induction generalizing front with
  | nil automaton =>
    rw [journal_nil] at split
    simp at split
  | refused automaton link pending fault refused =>
    obtain ⟨rfl, -⟩ := journal_cons_error_split refused split
    exact ⟨automaton, rfl, rfl⟩
  | linked automaton link pending treeNode linkable inductionHypothesis =>
    rcases journal_cons_split linkable split with ⟨rfl, -⟩ | ⟨later, rfl, rest⟩
    · exact ⟨automaton, rfl, rfl⟩
    · obtain ⟨now, replayed, fewer⟩ := inductionHypothesis rest
      refine ⟨now, (replay_step _ later linkable).trans replayed, ?_⟩
      have smaller := unlinkedCount_linkNode linkable treeNode.node
      rw [countP_isCall_step, ← smaller, ← fewer, Nat.add_assoc]

/-- Who makes a call behind the deeds of the first node: that node, or one stored after it, or
nobody, if the call was pending before. -/
theorem caller_of_step {automaton : Automaton} {link : Link} {treeNode : TreeNode}
    (linkable : automaton.linkable link.node = .ok treeNode) {pending : List Link}
    {later : List Deed} {called : Link}
    (known : called ∈ (automaton.linkNode link treeNode.node).2 ++ pending ∨
      ∃ caller ∈ storedBy later,
        called.node ∈ (automaton.linkNode link treeNode.node).1.openChildren caller) :
    called ∈ pending ∨
      ∃ caller ∈ storedBy (.call link :: (automaton.ownDeeds link treeNode.node ++ later)),
        called.node ∈ automaton.openChildren caller := by
  have present := (linkable_eq_ok_iff.mp linkable).1
  have step := linkStep_linkNode present
  rw [storedBy_step]
  rcases known with asked | ⟨caller, member, isChild⟩
  · rcases List.mem_append.mp asked with brought | waiting
    · have isChild : called.node ∈ automaton.openChildren link.node := by
        rw [openChildren, tree?_eq_some_iff.mpr present]
        dsimp only
        rw [← step.names]
        exact List.mem_map_of_mem brought
      exact Or.inr ⟨link.node, List.mem_cons_self, isChild⟩
    · exact Or.inl waiting
  · rw [step.toLinkFrame.openChildren linkable] at isChild
    exact Or.inr ⟨caller, List.mem_cons_of_mem _ member, isChild⟩

/-- A call that was not asked for at the beginning is made for a child of a node in which a
continuation was stored before. -/
theorem caller_before_call {automaton : Automaton} {links : List Link} {front back : List Deed}
    {called : Link} (split : automaton.journal links = front ++ .call called :: back) :
    called ∈ links ∨ ∃ caller ∈ storedBy front, called.node ∈ automaton.openChildren caller := by
  induction automaton, links using row_induction generalizing front with
  | nil automaton =>
    rw [journal_nil] at split
    simp at split
  | refused automaton link pending fault refused =>
    obtain ⟨-, rfl⟩ := journal_cons_error_split refused split
    exact Or.inl List.mem_cons_self
  | linked automaton link pending treeNode linkable inductionHypothesis =>
    rcases journal_cons_split linkable split with ⟨-, rfl⟩ | ⟨later, rfl, rest⟩
    · exact Or.inl List.mem_cons_self
    · exact (caller_of_step linkable (inductionHypothesis rest)).imp_left
        (List.mem_cons_of_mem _)

end Automaton

end PatternGraph
