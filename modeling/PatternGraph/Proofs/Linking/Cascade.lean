/-
This file says what setting a continuation does to an arbitrary automaton: which nodes it links, and
where it stops. The nodes are listed by the cascade of the first one, that is, in preorder along the
children that are linked together with their parent. A node may be its own descendant, and then its
cascade has no end, so the cascade is given by its first members, one list for each count.

Linking works through the cascade in order. A member that is no tree node ends the work, and so does
one that was linked already, before the work began or by it; in a cascade without end that happens
in any case, since a member comes again. All members before have been linked by then, and nothing
else was: the only other thing that linking does is to add glue of these members.

Every step of linking takes one member off the front and puts its children in its place. It changes
no node besides the member, so what is left of the cascade stays the same.
-/

import PatternGraph.Proofs.Permanence

namespace PatternGraph

/-! ### First items -/

/-- The first items of a joint list depend on the first items of its parts only. -/
theorem take_append_congr {α : Type} {count : Nat} {front front' back back' : List α}
    (sameFront : front.take count = front'.take count)
    (sameBack : back.take count = back'.take count) :
    (front ++ back).take count = (front' ++ back').take count := by
  have room : count - front.length = count - front'.length := by
    have lengths := congrArg List.length sameFront
    rw [List.length_take, List.length_take] at lengths
    omega
  have rest := congrArg (List.take (count - front'.length)) sameBack
  rw [List.take_take, List.take_take, Nat.min_eq_left (Nat.sub_le _ _)] at rest
  rw [List.take_append, List.take_append, sameFront, room, rest]

theorem take_flatMap_congr {α β : Type} {count : Nat} {parts parts' : α → List β}
    (same : ∀ item, (parts item).take count = (parts' item).take count) (items : List α) :
    (items.flatMap parts).take count = (items.flatMap parts').take count := by
  induction items with
  | nil => rfl
  | cons first rest inductionHypothesis =>
    rw [List.flatMap_cons, List.flatMap_cons]
    exact take_append_congr (same first) inductionHypothesis

namespace Automaton

/-! ### Cascades -/

/-- The children that are linked together with a node. -/
def openChildren (automaton : Automaton) (id : StateId) : List StateId :=
  match automaton.tree? id with
  | some treeNode => treeNode.node.openChildren
  | none => []

/-- The first members of the preorder list of a node and whatever is linked together with it. -/
def cascade (automaton : Automaton) : Nat → StateId → List StateId
  | 0, _ => []
  | count + 1, id => id :: ((automaton.openChildren id).flatMap (cascade automaton count)).take count

/-- The first members of the cascades of a row of nodes, one after the other. -/
def cascades (automaton : Automaton) (count : Nat) (ids : List StateId) : List StateId :=
  (ids.flatMap (automaton.cascade count)).take count

section

variable (automaton : Automaton)

/-- The first members are the same however many are asked for. -/
theorem take_cascade {count more : Nat} (less : count ≤ more) (id : StateId) :
    (automaton.cascade more id).take count = automaton.cascade count id := by
  induction count generalizing more id with
  | zero => simp [cascade]
  | succ count inductionHypothesis =>
    obtain ⟨more, rfl⟩ : ∃ fewer, more = fewer + 1 := ⟨more - 1, by omega⟩
    have fewer : count ≤ more := Nat.le_of_succ_le_succ less
    rw [cascade, cascade, List.take_succ_cons, List.take_take, Nat.min_eq_left fewer]
    refine congrArg _ (take_flatMap_congr (fun child => ?_) _)
    rw [inductionHypothesis fewer, ← inductionHypothesis (Nat.le_refl count), List.take_take,
      Nat.min_self]

/-- In the cascades of a row the first node is followed by its children and then by the rest. -/
theorem cascades_cons (count : Nat) (id : StateId) (rest : List StateId) :
    automaton.cascades (count + 1) (id :: rest) =
      id :: automaton.cascades count (automaton.openChildren id ++ rest) := by
  rw [cascades, cascades, List.flatMap_cons, List.flatMap_append, cascade, List.cons_append,
    List.take_succ_cons]
  refine congrArg _ (take_append_congr (by rw [List.take_take, Nat.min_self]) ?_)
  refine take_flatMap_congr (fun other => ?_) rest
  rw [take_cascade automaton (Nat.le_succ count), take_cascade automaton (Nat.le_refl count)]

theorem cascades_singleton (count : Nat) (id : StateId) :
    automaton.cascades count [id] = automaton.cascade count id := by
  rw [cascades, List.flatMap_singleton, take_cascade automaton (Nat.le_refl count)]

end

/-! ### Which nodes are linked -/

/-- A tree node without continuation. -/
def IsUnlinked (automaton : Automaton) (id : StateId) : Prop :=
  ∃ treeNode, automaton.tree? id = some treeNode ∧ treeNode.isLinked = false

/-- What changes when exactly the members are linked: each was an unlinked tree node and has a
continuation now, every other state is the same, and what was added is glue of a member. -/
structure LinksExactly (before after : Automaton) (members : List StateId) : Prop where
  source : after.source = before.source
  linked {id : StateId} : id ∈ members → ∃ treeNode continuation,
    before.tree? id = some treeNode ∧ treeNode.isLinked = false ∧
      after.tree? id = some { treeNode with continuation := some continuation }
  kept {id : StateId} {state : State} : before.state? id = some state → id ∉ members →
    after.state? id = some state
  added {id : StateId} {state : State} : after.state? id = some state → before.state? id = none →
    ∃ owner ∈ members, state.owner? = some owner

/-- Why a member cannot be linked behind those that have been. -/
def Refuses (automaton : Automaton) (done : List StateId) (id : StateId) (fault : Fault) : Prop :=
  automaton.tree? id = none ∧ fault = .notTree id ∨
    (automaton.IsLinked id ∨ id ∈ done) ∧ fault = .alreadyLinked id

/-- How the work on the cascades of a row ends: all members are linked, or those before the first
one that cannot be. -/
inductive Exhausts (automaton : Automaton) (ids : List StateId) (outcome : Outcome Unit) : Prop
  | whole {members : List StateId} (answer : outcome.answer = .ok ())
    (listed : ∀ count, automaton.cascades count ids = members.take count)
    (distinct : members.Nodup) (links : LinksExactly automaton outcome.automaton members)
  | stopped {done : List StateId} {last : StateId} {fault : Fault}
    (answer : outcome.answer = .error fault)
    (listed : automaton.cascades (done.length + 1) ids = done ++ [last])
    (distinct : done.Nodup) (refuses : automaton.Refuses done last fault)
    (links : LinksExactly automaton outcome.automaton done)

namespace LinksExactly

variable {before middle after : Automaton} {members : List StateId}

theorem nil (automaton : Automaton) : LinksExactly automaton automaton [] where
  source := rfl
  linked member := absurd member List.not_mem_nil
  kept found _ := found
  added found absent := by cases found.symm.trans absent

/-- Where nothing is linked nothing changes. -/
theorem eq_of_nil (links : LinksExactly before after []) : after = before := by
  refine ext_of_state? links.source fun id => ?_
  cases was : before.state? id with
  | some state => exact links.kept was List.not_mem_nil
  | none =>
    refine Option.eq_none_iff_forall_ne_some.mpr fun state found => ?_
    obtain ⟨owner, member, -⟩ := links.added found was
    exact absurd member List.not_mem_nil

theorem isUnlinked (links : LinksExactly before after members) {id : StateId}
    (member : id ∈ members) : before.IsUnlinked id := by
  obtain ⟨treeNode, -, isTree, unlinked, -⟩ := links.linked member
  exact ⟨treeNode, isTree, unlinked⟩

end LinksExactly

/-! ### A step of linking -/

section

variable {before middle : Automaton} {link : Link} {treeNode : TreeNode}
  (linkable : before.linkable link.node = .ok treeNode)
  (frame : LinkFrame before link treeNode middle)

include frame

/-- The node is linked from then on. -/
theorem LinkFrame.isLinked : middle.IsLinked link.node := by
  obtain ⟨continuation, stored⟩ := frame.stored
  exact ⟨_, tree?_eq_some_iff.mpr stored, rfl⟩

/-- What can still be linked after the step is another node. -/
theorem LinkFrame.ne_of_isUnlinked {id : StateId} (unlinked : middle.IsUnlinked id) :
    id ≠ link.node := by
  rintro rfl
  obtain ⟨continuation, stored⟩ := frame.stored
  obtain ⟨treeNode, isTree, unlinked⟩ := unlinked
  cases (tree?_eq_some_iff.mp isTree).symm.trans stored
  cases unlinked

include linkable

/-- No node has other children than before. -/
theorem LinkFrame.openChildren (id : StateId) :
    middle.openChildren id = before.openChildren id := by
  have present := (linkable_eq_ok_iff.mp linkable).1
  unfold Automaton.openChildren
  by_cases same : id = link.node
  · subst same
    obtain ⟨continuation, stored⟩ := frame.stored
    rw [tree?_eq_some_iff.mpr stored, tree?_eq_some_iff.mpr present]
  · rw [frame.tree?_of_ne same]

theorem LinkFrame.cascade (count : Nat) : middle.cascade count = before.cascade count := by
  induction count with
  | zero => rfl
  | succ count inductionHypothesis =>
    funext id
    rw [Automaton.cascade, Automaton.cascade, frame.openChildren linkable, inductionHypothesis]

theorem LinkFrame.cascades (count : Nat) (ids : List StateId) :
    middle.cascades count ids = before.cascades count ids := by
  rw [Automaton.cascades, Automaton.cascades, frame.cascade linkable]

/-- A node that cannot be linked after the step could not be linked before, or it is the one that
the step linked. -/
theorem LinkFrame.refuses {done : List StateId} {id : StateId} {fault : Fault}
    (refuses : middle.Refuses done id fault) : before.Refuses (link.node :: done) id fault := by
  have present := (linkable_eq_ok_iff.mp linkable).1
  by_cases same : id = link.node
  · subst same
    rcases refuses with ⟨noTree, -⟩ | ⟨-, reported⟩
    · obtain ⟨linked, isTree, -⟩ := frame.isLinked
      cases isTree.symm.trans noTree
    · exact Or.inr ⟨Or.inr List.mem_cons_self, reported⟩
  · rcases refuses with ⟨noTree, reported⟩ | ⟨taken, reported⟩
    · exact Or.inl ⟨(frame.tree?_of_ne same).symm.trans noTree, reported⟩
    · refine Or.inr ⟨taken.imp (fun isLinked => ?_) (List.mem_cons_of_mem _), reported⟩
      obtain ⟨linked, isTree, isLinked⟩ := isLinked
      exact ⟨linked, (frame.tree?_of_ne same).symm.trans isTree, isLinked⟩

/-- Whatever is linked afterwards is linked besides the node. -/
theorem LinkFrame.linksExactly_cons (source : middle.source = before.source) {after : Automaton}
    {members : List StateId} (links : LinksExactly middle after members) :
    LinksExactly before after (link.node :: members) := by
  obtain ⟨present, unlinked⟩ := linkable_eq_ok_iff.mp linkable
  obtain ⟨continuation, stored⟩ := frame.stored
  have apart {id : StateId} (member : id ∈ members) : id ≠ link.node :=
    frame.ne_of_isUnlinked (links.isUnlinked member)
  refine
    { source := links.source.trans source
      linked := fun {id} member => ?linked
      kept := fun found other => ?kept
      added := fun {id state} found absent => ?added }
  case linked =>
    rcases List.mem_cons.mp member with rfl | later
    · have still := links.kept stored fun later => apart later rfl
      exact ⟨treeNode, continuation, tree?_eq_some_iff.mpr present, unlinked,
        tree?_eq_some_iff.mpr still⟩
    · obtain ⟨other, next, isTree, unlinkedOther, now⟩ := links.linked later
      exact ⟨other, next, (frame.tree?_of_ne (apart later)).symm.trans isTree, unlinkedOther, now⟩
  case kept =>
    obtain ⟨apartFromNode, notLater⟩ := not_or.mp (mt List.mem_cons.mpr other)
    exact links.kept (frame.kept found apartFromNode) notLater
  case added =>
    cases between : middle.state? id with
    | none =>
      obtain ⟨owner, member, owned⟩ := links.added found between
      exact ⟨owner, List.mem_cons_of_mem _ member, owned⟩
    | some glue =>
      have owned : glue.owner? = some link.node := by
        rcases frame.added between absent with ⟨choices, rfl⟩ | rfl <;> rfl
      -- Glue is no member, so it is found unchanged.
      have noMember : id ∉ members := fun member => by
        obtain ⟨other, -, isTree, -, -⟩ := links.linked member
        cases (tree?_eq_some_iff.mp isTree).symm.trans between
        cases owned
      cases found.symm.trans (links.kept between noMember)
      exact ⟨link.node, List.mem_cons_self, owned⟩

/-- The work that is left after the step is the work on the cascades behind the node. -/
theorem Exhausts.of_step (source : middle.source = before.source) {pending : List StateId}
    {outcome : Outcome Unit} {record : LogRecord}
    (exhausts : middle.Exhausts (before.openChildren link.node ++ pending) outcome) :
    before.Exhausts (link.node :: pending) (outcome.preceded record) := by
  have listed (count : Nat) : before.cascades (count + 1) (link.node :: pending) =
      link.node :: middle.cascades count (before.openChildren link.node ++ pending) := by
    rw [cascades_cons, frame.cascades linkable]
  have fresh {members : List StateId} (links : LinksExactly middle outcome.automaton members) :
      link.node ∉ members := fun member => frame.ne_of_isUnlinked (links.isUnlinked member) rfl
  cases exhausts with
  | @whole members answer rest distinct links =>
    refine .whole answer (fun count => ?_) (List.nodup_cons.mpr ⟨fresh links, distinct⟩)
      (frame.linksExactly_cons linkable source links)
    cases count with
    | zero => rfl
    | succ count => rw [listed, rest, List.take_succ_cons]
  | @stopped done last fault answer rest distinct refuses links =>
    refine .stopped answer ?_ (List.nodup_cons.mpr ⟨fresh links, distinct⟩)
      (frame.refuses linkable refuses) (frame.linksExactly_cons linkable source links)
    rw [List.length_cons, listed, rest, List.cons_append]

end

/-! ### Linking as a whole -/

theorem refuses_of_linkable {automaton : Automaton} {id : StateId} {fault : Fault}
    (refused : automaton.linkable id = .error fault) : automaton.Refuses [] id fault := by
  unfold linkable at refused
  split at refused
  · rename_i noTree
    cases refused
    exact Or.inl ⟨noTree, rfl⟩
  · rename_i treeNode isTree
    split at refused
    · rename_i isLinked
      cases refused
      exact Or.inr ⟨Or.inl ⟨treeNode, isTree, isLinked⟩, rfl⟩
    · cases refused

/-- Linking works through the cascades of the nodes that it is asked to link. -/
theorem exhausts_linkAll (automaton : Automaton) (links : List Link) :
    automaton.Exhausts (links.map Link.node) (automaton.linkAll links) := by
  induction automaton, links using row_induction with
  | nil automaton =>
    rw [linkAll]
    exact .whole rfl (fun count => by simp [cascades]) List.nodup_nil (.nil automaton)
  | refused automaton link pending fault refused =>
    rw [linkAll_cons_error refused]
    refine .stopped rfl ?_ List.nodup_nil (refuses_of_linkable refused) (.nil automaton)
    rw [List.map_cons, List.length_nil, cascades_cons]
    simp [cascades]
  | linked automaton link pending treeNode linkable inductionHypothesis =>
    rw [linkAll_cons_ok linkable, List.map_cons]
    have step := linkStep_linkNode (linkable_eq_ok_iff.mp linkable).1
    have children : (automaton.linkNode link treeNode.node).2.map Link.node =
        automaton.openChildren link.node := by
      rw [openChildren, tree?_eq_some_iff.mpr (linkable_eq_ok_iff.mp linkable).1]
      exact step.names
    rw [List.map_append, children] at inductionHypothesis
    exact inductionHypothesis.of_step linkable step.toLinkFrame
      (source_linkNode automaton link treeNode.node)

/-- A row is worked through to its end exactly if its cascades name unlinked nodes only, and none of
them twice. -/
theorem Exhausts.answer_iff {automaton : Automaton} {ids : List StateId} {outcome : Outcome Unit}
    (exhausts : automaton.Exhausts ids outcome) :
    outcome.answer = .ok () ↔ ∀ count, (automaton.cascades count ids).Nodup ∧
      ∀ member ∈ automaton.cascades count ids, automaton.IsUnlinked member := by
  cases exhausts with
  | @whole members answer listed distinct links =>
    refine ⟨fun _ count => ?_, fun _ => answer⟩
    rw [listed]
    exact ⟨distinct.sublist (List.take_sublist count members),
      fun member inFront => links.isUnlinked (List.mem_of_mem_take inFront)⟩
  | @stopped done last fault answer listed distinct refuses links =>
    refine ⟨fun same => (by cases answer.symm.trans same), fun all => ?_⟩
    obtain ⟨nodup, unlinked⟩ := all (done.length + 1)
    rw [listed] at nodup unlinked
    have inRow : last ∈ done ++ [last] := List.mem_append_right done (List.mem_singleton_self last)
    obtain ⟨treeNode, isTree, notLinked⟩ := unlinked last inRow
    rcases refuses with ⟨noTree, -⟩ | ⟨⟨linked, isTreeToo, isLinked⟩ | repeated, -⟩
    · cases isTree.symm.trans noTree
    · cases isTree.symm.trans isTreeToo
      cases notLinked.symm.trans isLinked
    · exact absurd rfl ((List.nodup_append.mp nodup).2.2 last repeated last
        (List.mem_singleton_self last))

end Automaton

/-- Setting the continuation of a node links its cascade. It succeeds exactly if all members of the
cascade are unlinked nodes and none comes twice; then the cascade is finite, and exactly its members
are linked. Otherwise it reports the first member that is no tree node, was linked already or comes
again, and exactly the members before are linked; if there is none, nothing changes at all. -/
theorem setContinuation_links_cascade (automaton : Automaton) (id next : StateId) :
    let outcome := automaton.setContinuation id next
    (outcome.answer = .ok () ↔ ∀ count, (automaton.cascade count id).Nodup ∧
      ∀ member ∈ automaton.cascade count id, automaton.IsUnlinked member) ∧
    match outcome.answer with
    | .ok () => ∃ members, (∀ count, automaton.cascade count id = members.take count) ∧
        automaton.LinksExactly outcome.automaton members
    | .error fault => ∃ done last,
        automaton.cascade (done.length + 1) id = done ++ [last] ∧ done.Nodup ∧
        (∀ member ∈ done, automaton.IsUnlinked member) ∧ automaton.Refuses done last fault ∧
        automaton.LinksExactly outcome.automaton done ∧
        (done = [] → outcome.automaton = automaton) := by
  have exhausts := automaton.exhausts_linkAll [⟨id, next⟩]
  simp only [List.map_singleton] at exhausts
  have answer_iff := exhausts.answer_iff
  simp only [Automaton.cascades_singleton] at answer_iff
  refine ⟨answer_iff, ?_⟩
  rw [Automaton.setContinuation]
  cases exhausts with
  | @whole members answer listed distinct links =>
    rw [answer]
    refine ⟨members, fun count => ?_, links⟩
    rw [← listed, Automaton.cascades_singleton]
  | @stopped done last fault answer listed distinct refuses links =>
    rw [answer]
    rw [Automaton.cascades_singleton] at listed
    refine ⟨done, last, listed, distinct, fun _ member => links.isUnlinked member, refuses, links,
      fun none => ?_⟩
    subst none
    exact links.eq_of_nil

/-- A sequence that is its own last item has a cascade without end. It is linked, then refused. -/
example :
    let looped : Automaton := ⟨⟨"", .java, []⟩, #[.tree ⟨⟨0, 0⟩, .empty, .sequence [⟨0⟩], none⟩]⟩
    looped.cascade 3 ⟨0⟩ = [⟨0⟩, ⟨0⟩, ⟨0⟩] ∧
      (looped.setContinuation ⟨0⟩ ⟨1⟩).answer = .error (.alreadyLinked ⟨0⟩) := by
  decide +kernel

end PatternGraph
