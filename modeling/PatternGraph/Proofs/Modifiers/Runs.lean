/-
This file proves that the modifiers of quantifiers leave no trace in what a builder does but their
own: two runs whose calls differ in modifiers only build automata that differ in modifiers, and in
the order in which a branch offers its choices, only.

`Alike` says so of quantifiers, of nodes, of states, of automata and of outcomes. It depends on
whether the order of choices counts. If it does, a quantifier that is reluctant corresponds to one
that is, and then the branches are the same. The modifier is read in a single place, where the
branch of a repetition is added, and everything else that is done depends on what alike states have
in common. So every operation takes alike automata to alike outcomes, with the same answer.
-/

import PatternGraph.Proofs.Run

namespace PatternGraph

/-- The quantifiers differ in their modifier only. Where the order of choices counts, both are
reluctant or none is. -/
structure Quantifier.Alike (ordered : Prop) (quantifier changed : Quantifier) : Prop where
  range : changed.range = quantifier.range
  form : changed.form = quantifier.form
  reluctant : ordered → changed.isReluctant = quantifier.isReluctant

/-- The forms differ in the modifier of a quantifier only. -/
inductive Form.Alike (ordered : Prop) : Form → Form → Prop
  | same (form : Form) : Alike ordered form form
  | repetition (element : StateId) {quantifier changed : Quantifier}
    (alike : quantifier.Alike ordered changed) :
    Alike ordered (.repetition element quantifier) (.repetition element changed)

/-- The nodes differ in the modifier of a quantifier only. -/
inductive Node.Alike (ordered : Prop) : Node → Node → Prop
  | same (node : Node) : Alike ordered node node
  | repetition (element : StateId) {quantifier changed : Quantifier}
    (alike : quantifier.Alike ordered changed) :
    Alike ordered (.repetition element quantifier) (.repetition element changed)

/-- The states differ in the modifier of a quantifier, or in the order of choices where it does not
count. -/
inductive State.Alike (ordered : Prop) : State → State → Prop
  | same (state : State) : Alike ordered state state
  | tree (range : TextRange) (flags : FlagSet) (continuation : Option StateId) {node changed : Node}
    (alike : node.Alike ordered changed) :
    Alike ordered (.tree ⟨range, flags, node, continuation⟩)
      (.tree ⟨range, flags, changed, continuation⟩)
  | branch (owner : StateId) {choices reordered : List StateId} (perm : choices.Perm reordered)
    (kept : ordered → choices = reordered) :
    Alike ordered (.branch owner choices) (.branch owner reordered)

/-- The automata differ in that their states are alike. -/
structure Automaton.Alike (ordered : Prop) (automaton changed : Automaton) : Prop where
  source : changed.source = automaton.source
  size : changed.size = automaton.size
  states (id : StateId) :
    Option.Rel (State.Alike ordered) (automaton.state? id) (changed.state? id)

/-- The outcomes have the same answer and the same records, and the automata are alike. -/
structure Outcome.Alike {α : Type} (ordered : Prop) (outcome changed : Outcome α) : Prop where
  answer : changed.answer = outcome.answer
  records : changed.records = outcome.records
  automaton : outcome.automaton.Alike ordered changed.automaton

/-- The calls differ in the modifier of a quantifier only. -/
inductive Call.Alike (ordered : Prop) : Call → Call → Prop
  | same (call : Call) : Alike ordered call call
  | construct (range : TextRange) (flags : FlagSet) {form changed : Form}
    (alike : form.Alike ordered changed) :
    Alike ordered (.construct ⟨range, flags, form⟩) (.construct ⟨range, flags, changed⟩)

/-- The same call with another modifier, if it builds a repetition. -/
def Call.modified (modifier : Modifier) : Call → Call
  | .construct ⟨range, flags, .repetition element quantifier⟩ =>
    .construct ⟨range, flags, .repetition element { quantifier with modifier }⟩
  | call => call

theorem Call.alike_modified (modifier : Modifier) (call : Call) :
    call.Alike False (call.modified modifier) := by
  rcases call with ⟨range, flags, form⟩ | _ | _
  · cases form with
    | repetition element quantifier =>
      exact .construct range flags (.repetition element ⟨rfl, rfl, False.elim⟩)
    | _ => exact .same _
  · exact .same _
  · exact .same _

namespace Automaton

/-- The answers of the calls of a run, up to the first that fails. -/
def answers (automaton : Automaton) : List Call → List (Except Fault (Option StateId))
  | [] => []
  | call :: rest =>
    let performed := automaton.perform call
    match performed.answer with
    | .error fault => [.error fault]
    | .ok answer => .ok answer :: performed.automaton.answers rest

end Automaton

section

variable {ordered : Prop}

/-! ### What alike states have in common -/

theorem Quantifier.Alike.minimum {quantifier changed : Quantifier}
    (alike : quantifier.Alike ordered changed) : changed.minimum = quantifier.minimum := by
  rw [Quantifier.minimum, alike.form, Quantifier.minimum]

theorem Quantifier.Alike.maximum {quantifier changed : Quantifier}
    (alike : quantifier.Alike ordered changed) : changed.maximum = quantifier.maximum := by
  rw [Quantifier.maximum, alike.form, Quantifier.maximum]

theorem Node.Alike.typeName {node changed : Node} (alike : node.Alike ordered changed) :
    changed.typeName = node.typeName := by
  cases alike <;> rfl

theorem Node.Alike.linkRule {node changed : Node} (alike : node.Alike ordered changed) :
    changed.linkRule = node.linkRule := by
  cases alike <;> rfl

namespace State.Alike

variable {state changed : State} (alike : state.Alike ordered changed)

include alike

theorem followedBy (next : StateId) :
    (state.followedBy next).Alike ordered (changed.followedBy next) := by
  cases alike with
  | same state => exact .same _
  | tree range flags continuation alike => exact .tree range flags (some next) alike
  | branch owner perm kept => exact .branch owner perm kept

theorem referringTo (group : Option StateId) :
    (State.referringTo group state).Alike ordered (State.referringTo group changed) := by
  cases alike with
  | same state => exact .same _
  | tree range flags continuation alike =>
    cases alike with
    | same node => exact .same _
    | repetition element alike => exact .tree range flags continuation (.repetition element alike)
  | branch owner perm kept => exact .branch owner perm kept

end State.Alike

namespace Automaton

theorem Alike.refl (ordered : Prop) (automaton : Automaton) :
    automaton.Alike ordered automaton := by
  refine ⟨rfl, rfl, fun id => ?_⟩
  cases automaton.state? id with
  | none => exact .none
  | some state => exact .some (.same state)

namespace Alike

variable {automaton changed : Automaton} (alike : automaton.Alike ordered changed)

include alike

theorem cases_state? (id : StateId) :
    (automaton.state? id = none ∧ changed.state? id = none) ∨
      ∃ state other, automaton.state? id = some state ∧ changed.state? id = some other ∧
        state.Alike ordered other := by
  have related := alike.states id
  cases found : automaton.state? id with
  | none =>
    cases also : changed.state? id with
    | none => exact Or.inl ⟨rfl, rfl⟩
    | some other =>
      rw [found, also] at related
      cases related
  | some state =>
    cases also : changed.state? id with
    | none =>
      rw [found, also] at related
      cases related
    | some other =>
      rw [found, also] at related
      cases related with
      | some pair => exact Or.inr ⟨state, other, rfl, rfl, pair⟩

/-- Tree nodes stand at the same places, with the same range, flags and continuation. -/
theorem cases_tree? (id : StateId) :
    (automaton.tree? id = none ∧ changed.tree? id = none) ∨
      ∃ range flags continuation node other,
        automaton.tree? id = some ⟨range, flags, node, continuation⟩ ∧
        changed.tree? id = some ⟨range, flags, other, continuation⟩ ∧
        node.Alike ordered other := by
  rw [tree?, tree?]
  rcases alike.cases_state? id with ⟨absent, also⟩ | ⟨state, other, found, also, pair⟩
  · rw [absent, also]
    exact Or.inl ⟨rfl, rfl⟩
  · rw [found, also]
    cases pair with
    | same state =>
      cases state with
      | tree treeNode => exact Or.inr ⟨_, _, _, _, _, rfl, rfl, .same _⟩
      | _ => exact Or.inl ⟨rfl, rfl⟩
    | tree range flags continuation pair => exact Or.inr ⟨_, _, _, _, _, rfl, rfl, pair⟩
    | branch owner perm kept => exact Or.inl ⟨rfl, rfl⟩

theorem nextId : changed.nextId = automaton.nextId := by
  rw [Automaton.nextId, alike.size, Automaton.nextId]

theorem ids : changed.ids = automaton.ids := by
  rw [Automaton.ids, alike.size, Automaton.ids]

/-! ### Changes of the arena -/

theorem push {state other : State} (pair : state.Alike ordered other) :
    (automaton.push state).Alike ordered (changed.push other) := by
  refine ⟨alike.source, by rw [size_push, size_push, alike.size], fun id => ?_⟩
  rw [state?_push, state?_push, alike.nextId]
  split
  · exact .some pair
  · exact alike.states id

theorem pushAll {states others : List State}
    (pairs : List.Forall₂ (State.Alike ordered) states others) :
    (automaton.pushAll states).Alike ordered (changed.pushAll others) := by
  induction pairs generalizing automaton changed with
  | nil => exact alike
  | cons pair _ inductionHypothesis => exact inductionHypothesis (alike.push pair)

/-- A change of one state by which alike states stay alike. -/
theorem modify {change : State → State} (id : StateId)
    (keeps : ∀ {state other : State}, state.Alike ordered other →
      (change state).Alike ordered (change other)) :
    Automaton.Alike ordered
      { automaton with states := automaton.states.modify id.index change }
      { changed with states := changed.states.modify id.index change } := by
  refine ⟨alike.source, by simpa [Automaton.size] using alike.size, fun other => ?_⟩
  have related := alike.cases_state? other
  simp only [state?, Array.getElem?_modify] at related ⊢
  rcases related with ⟨absent, also⟩ | ⟨state, same, found, also, pair⟩
  · rw [absent, also]
    split <;> exact .none
  · rw [found, also]
    split
    · exact .some (keeps pair)
    · exact .some pair

theorem store (link : Link) : (automaton.store link).Alike ordered (changed.store link) :=
  alike.modify link.node fun pair => pair.followedBy link.next

theorem regrouped (id : StateId) (group : Option StateId) :
    (automaton.regrouped id group).Alike ordered (changed.regrouped id group) :=
  alike.modify id fun pair => pair.referringTo group

/-! ### Linking -/

theorem cases_linkable (id : StateId) :
    (∃ fault, automaton.linkable id = .error fault ∧ changed.linkable id = .error fault) ∨
      ∃ treeNode other, automaton.linkable id = .ok treeNode ∧ changed.linkable id = .ok other ∧
        treeNode.node.Alike ordered other.node := by
  rw [linkable, linkable]
  rcases alike.cases_tree? id with
    ⟨absent, also⟩ | ⟨range, flags, continuation, node, other, found, also, pair⟩
  · rw [absent, also]
    exact Or.inl ⟨_, rfl, rfl⟩
  · rw [found, also]
    cases continuation with
    | none => exact Or.inr ⟨_, _, rfl, rfl, pair⟩
    | some next => exact Or.inl ⟨_, rfl, rfl⟩

/-- The modifier decides only on the order in which the branch of a repetition offers its
choices. -/
theorem linkNode_repetition (link : Link) (element : StateId) {quantifier other : Quantifier}
    (pair : quantifier.Alike ordered other) :
    (automaton.linkNode link (.repetition element quantifier)).1.Alike ordered
        (changed.linkNode link (.repetition element other)).1 ∧
      (changed.linkNode link (.repetition element other)).2 =
        (automaton.linkNode link (.repetition element quantifier)).2 := by
  have closed : (automaton.closeRepetition link).Alike ordered (changed.closeRepetition link) := by
    rw [closeRepetition, closeRepetition, alike.nextId]
    exact (alike.push (.same _)).store _
  have choices : (if quantifier.isReluctant then [automaton.nextId, link.node]
      else [link.node, automaton.nextId]).Perm
      (if other.isReluctant then [automaton.nextId, link.node]
        else [link.node, automaton.nextId]) := by
    split <;> split <;> first | exact .refl _ | exact .swap _ _ _
  rw [Automaton.linkNode_repetition, Automaton.linkNode_repetition]
  dsimp only
  rw [pair.maximum, pair.minimum, alike.nextId, closed.nextId]
  split
  · exact ⟨closed, rfl⟩
  · split
    · exact ⟨closed.push (.branch link.node choices fun kept => by rw [pair.reluctant kept]), rfl⟩
    · exact ⟨closed, rfl⟩

/-- Linking alike nodes brings about the same links. -/
theorem linkNode (link : Link) {node other : Node} (pair : node.Alike ordered other) :
    (automaton.linkNode link node).1.Alike ordered (changed.linkNode link other).1 ∧
      (changed.linkNode link other).2 = (automaton.linkNode link node).2 := by
  cases pair with
  | same node =>
    cases node with
    | repetition element quantifier =>
      exact alike.linkNode_repetition link element ⟨rfl, rfl, fun _ => rfl⟩
    | conditional condition yes bar no =>
      have stored := alike.store link
      dsimp only [Automaton.linkNode]
      rw [stored.nextId]
      exact ⟨stored.push (.same _), rfl⟩
    | _ => exact ⟨alike.store link, rfl⟩
  | repetition element pair => exact alike.linkNode_repetition link element pair

theorem linkAll (links : List Link) :
    (automaton.linkAll links).Alike ordered (changed.linkAll links) := by
  induction automaton, links using row_induction generalizing changed with
  | nil automaton =>
    rw [Automaton.linkAll, Automaton.linkAll]
    exact ⟨rfl, rfl, alike⟩
  | refused automaton link pending fault refused =>
    rcases alike.cases_linkable link.node with ⟨same, here, also⟩ | ⟨treeNode, other, found, -⟩
    · rw [linkAll_cons_error here, linkAll_cons_error also]
      exact ⟨rfl, rfl, alike⟩
    · cases refused.symm.trans found
  | linked automaton link pending treeNode linkable inductionHypothesis =>
    rcases alike.cases_linkable link.node with ⟨same, here, -⟩ | ⟨found, other, here, also, pair⟩
    · cases linkable.symm.trans here
    · cases linkable.symm.trans here
      obtain ⟨linked, brought⟩ := alike.linkNode link pair
      obtain ⟨answer, records, after⟩ := inductionHypothesis linked
      rw [linkAll_cons_ok here, linkAll_cons_ok also, brought]
      refine ⟨answer, ?_, after⟩
      have record : linkRecord link other.node = linkRecord link treeNode.node := by
        rw [linkRecord, pair.typeName, pair.linkRule, linkRecord]
      simp only [Outcome.preceded]
      rw [record, records]

/-! ### Construction -/

theorem groupBody (range : TextRange) (element : StateId) :
    changed.groupBody range element = automaton.groupBody range element := by
  rw [Automaton.groupBody, tree, Automaton.groupBody, tree]
  rcases alike.cases_tree? element with
    ⟨absent, also⟩ | ⟨range, flags, continuation, node, other, found, also, -⟩
  · rw [absent, also]
  · rw [found, also]
    rfl

theorem assemble_same (construction : Construction) :
    changed.assemble construction = automaton.assemble construction := by
  simp only [Automaton.assemble, lookAroundWrappers, alike.groupBody, alike.nextId, alike.size]

theorem lead {form other : Form} (pair : form.Alike ordered other) :
    changed.lead other = automaton.lead form := by
  cases pair with
  | same form =>
    cases form <;> simp only [Automaton.lead, lookAroundWrappers, alike.nextId, alike.size]
  | repetition element pair => rfl

/-- Of an assembly only the node depends on modifiers. -/
theorem cases_assemble (range : TextRange) (flags : FlagSet) {form other : Form}
    (pair : form.Alike ordered other) :
    (∃ fault, automaton.assemble ⟨range, flags, form⟩ = .error fault ∧
        changed.assemble ⟨range, flags, other⟩ = .error fault) ∨
      ∃ assembly node, automaton.assemble ⟨range, flags, form⟩ = .ok assembly ∧
        changed.assemble ⟨range, flags, other⟩ = .ok { assembly with node } ∧
        assembly.node.Alike ordered node := by
  cases pair with
  | same form =>
    rw [alike.assemble_same]
    cases automaton.assemble ⟨range, flags, form⟩ with
    | error fault => exact Or.inl ⟨fault, rfl, rfl⟩
    | ok assembly => exact Or.inr ⟨assembly, assembly.node, rfl, rfl, .same _⟩
  | repetition element pair => exact Or.inr ⟨_, _, rfl, rfl, .repetition element pair⟩

theorem place (range : TextRange) (flags : FlagSet) (form other : Form) {assembly : Assembly}
    {node : Node} (pair : assembly.node.Alike ordered node) :
    (automaton.place ⟨range, flags, form⟩ assembly).Alike ordered
      (changed.place ⟨range, flags, other⟩ { assembly with node }) := by
  have same (states : List State) : List.Forall₂ (State.Alike ordered) states states :=
    List.forall₂_same.mpr fun state _ => .same state
  exact alike.pushAll (List.rel_append (same _) (.cons (.tree range flags none pair) (same _)))

/-- Construction has the same answer. -/
theorem construct (range : TextRange) (flags : FlagSet) {form other : Form}
    (pair : form.Alike ordered other) :
    (automaton.construct ⟨range, flags, form⟩).Alike ordered
      (changed.construct ⟨range, flags, other⟩) := by
  have chain : other.chain = form.chain := by cases pair <;> rfl
  obtain ⟨answer, records, chained⟩ := alike.linkAll form.chain
  rw [construct_eq, construct_eq]
  dsimp only
  rw [chain, answer]
  split
  · exact ⟨rfl, records, chained⟩
  · rcases chained.cases_assemble range flags pair with
      ⟨fault, refused, also⟩ | ⟨assembly, node, assembled, also, nodes⟩
    · rw [refused, also]
      refine ⟨rfl, records, ?_⟩
      dsimp only
      rw [chained.lead pair]
      exact chained.pushAll (List.forall₂_same.mpr fun state _ => .same state)
    · obtain ⟨linked, linkRecords, after⟩ :=
        (chained.place range flags form other nodes).linkAll assembly.links
      rw [assembled, also]
      refine ⟨?_, ?_, after⟩
      · simp only [carryOut, Outcome.answering, linked, placedId, chained.size]
      · simp only [carryOut, Outcome.answering, records, linkRecords]

/-! ### Back-references -/

theorem reference? (id : StateId) : changed.reference? id = automaton.reference? id := by
  rw [Automaton.reference?, Automaton.reference?]
  rcases alike.cases_tree? id with
    ⟨absent, also⟩ | ⟨range, flags, continuation, node, other, found, also, pair⟩
  · rw [absent, also]
  · rw [found, also]
    cases pair <;> rfl

theorem isGroupWith (accepts : Option String → Nat → Bool) (id : StateId) :
    changed.isGroupWith accepts id = automaton.isGroupWith accepts id := by
  rw [Automaton.isGroupWith, Automaton.isGroupWith]
  rcases alike.cases_tree? id with
    ⟨absent, also⟩ | ⟨range, flags, continuation, node, other, found, also, pair⟩
  · rw [absent, also]
  · rw [found, also]
    cases pair <;> rfl

theorem target? (reference : BackReference) :
    changed.target? reference = automaton.target? reference := by
  rw [Automaton.target?, Automaton.target?, alike.ids]
  congr 1
  funext id
  exact alike.isGroupWith _ id

theorem text (id : StateId) : changed.text id = automaton.text id := by
  rw [Automaton.text, Automaton.text, alike.source]
  rcases alike.cases_tree? id with
    ⟨absent, also⟩ | ⟨range, flags, continuation, node, other, found, also, -⟩
  · rw [absent, also]
  · rw [found, also]

theorem setGroup (id : StateId) (group : Option StateId) :
    ((automaton.setGroup id group).toOption.getD automaton).Alike ordered
      ((changed.setGroup id group).toOption.getD changed) := by
  rw [Automaton.setGroup, tree, Automaton.setGroup, tree, alike.reference?]
  rcases alike.cases_tree? id with ⟨absent, also⟩ | ⟨_, _, _, _, _, found, also, -⟩
  · rw [absent, also]
    exact alike
  · rw [found, also]
    simp only [Except.bind]
    split
    · exact alike.regrouped id group
    · exact alike

theorem resolveOne (id : StateId) :
    (automaton.resolveOne id).1.Alike ordered (changed.resolveOne id).1 ∧
      (changed.resolveOne id).2 = (automaton.resolveOne id).2 := by
  rw [Automaton.resolveOne, Automaton.resolveOne, alike.reference?]
  cases automaton.reference? id with
  | none => exact ⟨alike, rfl⟩
  | some reference =>
    dsimp only
    rw [alike.target?, alike.text]
    cases automaton.target? reference with
    | none => exact ⟨alike, rfl⟩
    | some group => exact ⟨alike.setGroup id (some group), rfl⟩

theorem resolveEach (ids : List StateId) :
    (automaton.resolveEach ids).1.Alike ordered (changed.resolveEach ids).1 ∧
      (changed.resolveEach ids).2 = (automaton.resolveEach ids).2 := by
  induction ids generalizing automaton changed with
  | nil => exact ⟨alike, rfl⟩
  | cons id rest inductionHypothesis =>
    obtain ⟨after, same⟩ := alike.resolveOne id
    obtain ⟨final, others⟩ := inductionHypothesis after
    simp only [Automaton.resolveEach, same, others]
    exact ⟨final, trivial⟩

theorem resolveReferences :
    automaton.resolveReferences.Alike ordered changed.resolveReferences := by
  obtain ⟨after, same⟩ := alike.resolveEach automaton.ids
  simp only [Automaton.resolveReferences, alike.ids, same]
  exact ⟨rfl, rfl, after⟩

/-! ### Runs -/

theorem perform {call other : Call} (pair : call.Alike ordered other) :
    (automaton.perform call).Alike ordered (changed.perform other) := by
  cases pair with
  | same call =>
    cases call with
    | construct construction =>
      obtain ⟨answer, records, after⟩ :=
        alike.construct construction.range construction.flags (.same construction.form)
      exact ⟨congrArg (Except.map some) answer, records, after⟩
    | setGroup reference group => exact ⟨rfl, rfl, alike.setGroup reference group⟩
    | resolve =>
      obtain ⟨answer, records, after⟩ := alike.resolveReferences
      refine ⟨?_, records, after⟩
      simp only [Automaton.perform, Outcome.answering, answer]
  | construct range flags pair =>
    obtain ⟨answer, records, after⟩ := alike.construct range flags pair
    exact ⟨congrArg (Except.map some) answer, records, after⟩

/-- Every call of the one run has the answer of the call of the other. -/
theorem answers {calls others : List Call}
    (pairs : List.Forall₂ (Call.Alike ordered) calls others) :
    changed.answers others = automaton.answers calls := by
  induction pairs generalizing automaton changed with
  | nil => rfl
  | cons pair _ inductionHypothesis =>
    obtain ⟨answer, -, after⟩ := alike.perform pair
    simp only [Automaton.answers, answer, inductionHypothesis after]

theorem performAll {calls others : List Call}
    (pairs : List.Forall₂ (Call.Alike ordered) calls others) :
    (automaton.performAll calls).Alike ordered (changed.performAll others) := by
  induction pairs generalizing automaton changed with
  | nil => exact ⟨rfl, rfl, alike⟩
  | cons pair _ inductionHypothesis =>
    obtain ⟨answer, records, after⟩ := alike.perform pair
    simp only [Automaton.performAll, answer]
    split
    · exact ⟨rfl, records, after⟩
    · obtain ⟨last, others, final⟩ := inductionHypothesis after
      exact ⟨last, congrArg₂ _ records others, final⟩

/-- Finishing fails with the same fault, or succeeds with the same root, start and final state. -/
theorem finish (root : StateId) (flags : FlagSet) :
    (automaton.finish root flags).automaton.Alike ordered (changed.finish root flags).automaton ∧
      ((∃ fault, (automaton.finish root flags).answer = .error fault ∧
          (changed.finish root flags).answer = .error fault) ∨
        ∃ pattern other, (automaton.finish root flags).answer = .ok pattern ∧
          (changed.finish root flags).answer = .ok { pattern with automaton := other } ∧
          pattern.automaton.Alike ordered other) := by
  have ended := alike.push (.same (.final flags))
  obtain ⟨answer, -, after⟩ :=
    (ended.push (.same (.start root flags))).linkAll [⟨root, automaton.nextId⟩]
  rw [Automaton.finish, tree, Automaton.finish, tree]
  rcases alike.cases_tree? root with ⟨absent, also⟩ | ⟨_, _, _, _, _, found, also, -⟩
  · rw [absent, also]
    exact ⟨alike, Or.inl ⟨_, rfl, rfl⟩⟩
  · rw [found, also]
    simp only [setContinuation, alike.nextId, answer, ended.nextId]
    split
    · exact ⟨after, Or.inl ⟨_, rfl, rfl⟩⟩
    · exact ⟨after, Or.inr ⟨_, _, rfl, rfl, after⟩⟩

end Alike

end Automaton

end

end PatternGraph
