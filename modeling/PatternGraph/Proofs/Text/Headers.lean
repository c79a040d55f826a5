/-
This file proves that the header of a group ends where its element begins. The header is written
down once, when the group is built, from the range that the element has at that time. That it still
fits the element at any later time, whatever was built, linked, regrouped or refused in between, is
because nothing of this is ever touched again: ranges and the bodies of groups are what they were
built with.

`site?` is all that matters here of a state. Linking and regrouping leave it alone wherever they
stop, and placing an assembly adds a single site, whose header `groupBody` has just read off the
element.
-/

import PatternGraph.Proofs.Linking.Inventory
import PatternGraph.Proofs.Permanence

namespace PatternGraph

namespace Automaton

/-- The range of a tree node, with the body of a group. -/
def site? (automaton : Automaton) (id : StateId) : Option (TextRange × Option GroupBody) :=
  (automaton.tree? id).map fun content => (content.range, content.node.body?)

/-- The header of every group runs from the beginning of the group to that of its element. -/
def Headed (automaton : Automaton) : Prop :=
  ∀ id range body, automaton.site? id = some (range, some body) →
    ∃ elementRange elementBody, automaton.site? body.element = some (elementRange, elementBody) ∧
      body.header.range = range.endingAt elementRange.beginning

theorem site?_eq_some_iff {automaton : Automaton} {id : StateId} {range : TextRange}
    {body? : Option GroupBody} : automaton.site? id = some (range, body?) ↔
      ∃ content, automaton.tree? id = some content ∧ content.range = range ∧
        content.node.body? = body? := by
  rw [site?, Option.map_eq_some_iff]
  simp only [Prod.mk.injEq]

theorem Headed.of_site? {before after : Automaton} (headed : before.Headed)
    (same : after.site? = before.site?) : after.Headed := by
  unfold Headed
  rw [same]
  exact headed

/-! ### Sites after linking and regrouping -/

theorem site?_linkNode {automaton : Automaton} {link : Link} {treeNode : TreeNode}
    (linkable : automaton.linkable link.node = .ok treeNode) :
    (automaton.linkNode link treeNode.node).1.site? = automaton.site? := by
  have present := (linkable_eq_ok_iff.mp linkable).1
  have frame := (linkStep_linkNode present).toLinkFrame
  funext id
  unfold site?
  by_cases same : id = link.node
  · obtain ⟨continuation, stored⟩ := frame.stored
    rw [same, tree?_eq_some_iff.mpr stored, tree?_eq_some_iff.mpr present]
    rfl
  · rw [frame.tree?_of_ne same]

/-- Linking changes no site, wherever it stops. -/
theorem site?_linkAll (automaton : Automaton) (links : List Link) :
    (automaton.linkAll links).automaton.site? = automaton.site? :=
  linkAll_keeps (motive := fun before after => after.site? = before.site?) (fun _ => rfl)
    (fun linkable same => same.trans (site?_linkNode linkable)) automaton links

/-- A back-reference is no group, so another group of its own changes no body. -/
theorem site?_regrouped (automaton : Automaton) (changed : StateId) (group : Option StateId) :
    (automaton.regrouped changed group).site? = automaton.site? := by
  funext id
  unfold site? tree?
  rw [state?_regrouped]
  split
  · cases automaton.state? id with
    | none => rfl
    | some state =>
      cases state with
      | tree content =>
        rcases referringTo_tree group content with same | ⟨reference, other, isReference, changes⟩
        · rw [Option.map_some, same]
        · rw [Option.map_some, changes]
          simp [State.tree?, isReference, Node.body?]
      | _ => rfl
  · rfl

theorem site?_pushAll_of_glue {states : List State} (glue : ∀ state ∈ states, state.tree? = none)
    (automaton : Automaton) : (automaton.pushAll states).site? = automaton.site? := by
  funext id
  rw [site?, tree?_pushAll_of_glue glue, site?]

/-! ### Groups that are built -/

theorem site?_pushAll_of_some {automaton : Automaton} {id : StateId} {range : TextRange}
    {body? : Option GroupBody} (found : automaton.site? id = some (range, body?))
    (states : List State) : (automaton.pushAll states).site? id = some (range, body?) := by
  obtain ⟨content, isTree, written, same⟩ := site?_eq_some_iff.mp found
  exact site?_eq_some_iff.mpr ⟨content, tree?_eq_some_iff.mpr
    (state?_pushAll_of_some (tree?_eq_some_iff.mp isTree) states), written, same⟩

/-- The body of a group is read off its element. -/
theorem groupBody_of_assemble {automaton : Automaton} {construction : Construction}
    {assembly : Assembly} (assembled : automaton.assemble construction = .ok assembly)
    {body : GroupBody} (isGroup : assembly.node.body? = some body) :
    ∃ element, automaton.groupBody construction.range element = .ok body := by
  have read {element : StateId} {make : GroupBody → Assembly}
      (body? : ∀ made, (make made).node.body? = some made)
      (made : (automaton.groupBody construction.range element).map make = .ok assembly) :
      ∃ element, automaton.groupBody construction.range element = .ok body := by
    obtain ⟨other, outcome, rfl⟩ := exists_of_map_eq_ok made
    cases (body? other).symm.trans isGroup
    exact ⟨element, outcome⟩
  unfold assemble at assembled
  cases form : construction.form with
  | capturingGroup name number element =>
    simp only [form] at assembled
    exact read (fun _ => rfl) assembled
  | atomicGroup element =>
    simp only [form] at assembled
    exact read (fun _ => rfl) assembled
  | lookAround polarity direction element =>
    simp only [form] at assembled
    exact read (fun _ => rfl) assembled
  | nonCapturingGroup enabled disabled element =>
    cases element with
    | none =>
      simp only [form, Except.ok.injEq] at assembled
      subst assembled
      cases isGroup
    | some element =>
      simp only [form] at assembled
      exact read (fun _ => rfl) assembled
  | _ =>
    simp only [form, Except.ok.injEq] at assembled
    subst assembled
    cases isGroup

/-- The header of a body is written up to the element. -/
theorem exists_site_of_groupBody {automaton : Automaton} {range : TextRange} {element : StateId}
    {body : GroupBody} (read : automaton.groupBody range element = .ok body) :
    ∃ elementRange elementBody, automaton.site? body.element = some (elementRange, elementBody) ∧
      body.header.range = range.endingAt elementRange.beginning := by
  obtain ⟨content, found, rfl⟩ := exists_of_map_eq_ok read
  exact ⟨content.range, content.node.body?,
    site?_eq_some_iff.mpr ⟨content, tree_eq_ok_iff.mp found, rfl, rfl⟩, rfl⟩

/-- The one group that may be added has its header from its element, which was there before. -/
theorem Headed.place {automaton : Automaton} (headed : automaton.Headed)
    {construction : Construction} {assembly : Assembly}
    (assembled : automaton.assemble construction = .ok assembly) :
    (automaton.place construction assembly).Headed := by
  intro id range body isGroup
  have fits : ∃ elementRange elementBody,
      automaton.site? body.element = some (elementRange, elementBody) ∧
        body.header.range = range.endingAt elementRange.beginning := by
    by_cases new : id = automaton.placedId assembly
    · rw [new, site?, tree?_placedId] at isGroup
      obtain ⟨rfl, isBody⟩ := Prod.mk.inj (Option.some.inj isGroup)
      obtain ⟨element, read⟩ := groupBody_of_assemble assembled isBody
      exact exists_site_of_groupBody read
    · rw [site?, tree?_place_of_ne (soundAssembly assembled) new] at isGroup
      exact headed id range body isGroup
  obtain ⟨elementRange, elementBody, found, same⟩ := fits
  exact ⟨elementRange, elementBody, site?_pushAll_of_some found _, same⟩

/-! ### Operations -/

/-- A construction that fails halfway has built its group properly if it has built it at all. -/
theorem Headed.construct {automaton : Automaton} (headed : automaton.Headed)
    (construction : Construction) : (automaton.construct construction).automaton.Headed := by
  have chained : (automaton.linkAll construction.form.chain).automaton.Headed :=
    headed.of_site? (site?_linkAll automaton _)
  rw [construct_eq]
  dsimp only
  split
  · exact chained
  · split
    · exact chained.of_site? (site?_pushAll_of_glue (fun _ => tree?_of_mem_lead) _)
    · rename_i assembly assembled
      exact (chained.place assembled).of_site? (site?_linkAll _ assembly.links)

theorem Headed.finish {automaton : Automaton} (headed : automaton.Headed) (root : StateId)
    (flags : FlagSet) : (automaton.finish root flags).automaton.Headed := by
  have linked : ((automaton.framed root flags).setContinuation root
      automaton.nextId).automaton.Headed :=
    headed.of_site? ((site?_linkAll _ _).trans (site?_pushAll_of_glue (by simp [State.tree?]) _))
  unfold Automaton.finish
  split
  · exact headed
  · dsimp only
    split
    · exact linked
    · exact linked

theorem Headed.after {automaton : Automaton} (headed : automaton.Headed) (operation : Operation) :
    (automaton.after operation).Headed := by
  have regrouping (before : Automaton) (id : StateId) (group : Option StateId)
      (headed : before.Headed) : (before.regrouped id group).Headed :=
    headed.of_site? (site?_regrouped before id group)
  cases operation with
  | build asked =>
    cases asked with
    | error fault => exact headed
    | ok construction => exact headed.construct construction
  | setGroup reference group => exact setGroup_preserves regrouping headed reference group
  | resolve => exact resolveEach_preserves regrouping headed automaton.ids
  | link id next => exact headed.of_site? (site?_linkAll automaton [⟨id, next⟩])
  | finish root flags => exact headed.finish root flags

theorem Headed.afterAll {automaton : Automaton} (headed : automaton.Headed)
    (operations : List Operation) : (automaton.afterAll operations).Headed := by
  induction operations generalizing automaton with
  | nil => exact headed
  | cons operation rest inductionHypothesis => exact inductionHypothesis (headed.after operation)

/-- Before anything is built there is no group. -/
theorem headed_ofSource (source : Source) : (ofSource source).Headed := by
  intro id range body isGroup
  simp [site?, tree?, state?, ofSource] at isGroup

end Automaton

end PatternGraph
