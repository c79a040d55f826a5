/-
This file brings construction into one form. Whatever is built, the links that chain the items of a
sequence come first; then the new states are added, the glue that leads into a lookaround before the
node and the end of the node after it; then the children that the node seals are linked. An
`Assembly` lists what is added and linked, and `construct_eq` says that construction does just that.

Only the glue before a lookaround is added without knowing whether there is an element to look at,
and it stays if there is none.

An assembly is sound in the sense of `SoundAssembly`: its node has the children that were asked for,
its links and the chain seal exactly the sealed children in the way that `SealedJoints` demands, a
lookaround is entered by way of its glue, and the states added beside the node are glue of it. An
invariant of construction is proved from these facts.
-/

import PatternGraph.Proofs.Linking.Step

namespace PatternGraph

namespace Form

/-- The children that are asked for. -/
@[simp]
def children : Form → List StateId
  | .leaf _ => []
  | .sequence items => items
  | .disjunction alternatives _ => alternatives
  | .capturingGroup _ _ element | .atomicGroup element | .lookAround _ _ element |
    .repetition element _ => [element]
  | .nonCapturingGroup _ _ element => element.toList
  | .conditional condition yes _ no => condition :: yes :: no.toList

/-- The links that are made before anything is added. -/
@[simp]
def chain : Form → List Link
  | .sequence items => Link.chain items
  | _ => []

end Form

/-- A node with the glue to be added before and after it and the links that seal its children. -/
structure Assembly where
  node : Node
  lead : List State := []
  close : List State := []
  links : List Link := []

/-- The states that an assembly adds. -/
def Assembly.states (assembly : Assembly) (construction : Construction) : List State :=
  assembly.lead ++ .tree ⟨construction.range, construction.flags, assembly.node, none⟩ ::
    assembly.close

namespace Automaton

/-- The glue that is added before the element is looked up: the way into a lookaround. -/
def lead (automaton : Automaton) : Form → List State
  | .lookAround polarity direction element =>
    automaton.lookAroundWrappers polarity direction
      ⟨automaton.size + wrapperCount polarity direction⟩ element
  | _ => []

/-- What is to be added and linked for a construction. -/
def assemble (automaton : Automaton) (construction : Construction) : Except Fault Assembly :=
  match construction.form with
  | .leaf leaf => .ok { node := .leaf leaf }
  | .sequence items => .ok { node := .sequence items }
  | .disjunction alternatives bars => .ok { node := .disjunction alternatives bars }
  | .capturingGroup name number element =>
    (automaton.groupBody construction.range element).map fun body =>
      { node := .capturingGroup body name number
        close := [.endOfCapturingGroup automaton.nextId]
        links := [⟨element, ⟨automaton.size + 1⟩⟩] }
  | .nonCapturingGroup enabled disabled none =>
    .ok { node := .nonCapturingGroup none enabled disabled }
  | .nonCapturingGroup enabled disabled (some element) =>
    (automaton.groupBody construction.range element).map fun body =>
      { node := .nonCapturingGroup (some body) enabled disabled }
  | .atomicGroup element =>
    (automaton.groupBody construction.range element).map fun body => { node := .atomicGroup body }
  | .lookAround polarity direction element =>
    (automaton.groupBody construction.range element).map fun body =>
      let count := wrapperCount polarity direction
      let lookaround : StateId := ⟨automaton.size + count⟩
      let entry := if count = 0 then element else ⟨automaton.size + count - 1⟩
      { node := .lookAround body polarity direction entry
        lead := automaton.lookAroundWrappers polarity direction lookaround element
        close := [.endOfLookaround lookaround]
        links := [⟨element, ⟨automaton.size + count + 1⟩⟩] }
  | .repetition element quantifier => .ok { node := .repetition element quantifier }
  | .conditional condition yes bar no =>
    .ok
      { node := .conditional condition yes bar no
        close := [.endOfConditional automaton.nextId]
        links := (yes :: no.toList).map fun pattern => ⟨pattern, ⟨automaton.size + 1⟩⟩ }

/-- The automaton with the states of an assembly. -/
def place (automaton : Automaton) (construction : Construction) (assembly : Assembly) :
    Automaton :=
  automaton.pushAll (assembly.states construction)

/-- The handle of the node of an assembly. -/
def placedId (automaton : Automaton) (assembly : Assembly) : StateId :=
  ⟨automaton.size + assembly.lead.length⟩

/-- Adds the states of an assembly and makes its links. -/
def carryOut (automaton : Automaton) (construction : Construction) (assembly : Assembly) :
    Outcome StateId :=
  ((automaton.place construction assembly).linkAll assembly.links).answering
    (automaton.placedId assembly)

/-! ### The one form of construction -/

theorem tree?_of_mem_lead {automaton : Automaton} {form : Form} {state : State}
    (member : state ∈ automaton.lead form) : state.tree? = none := by
  cases form with
  | lookAround polarity direction element =>
    cases polarity <;> cases direction <;>
      simp only [lead, lookAroundWrappers, List.mem_cons, List.not_mem_nil, or_false] at member <;>
      rcases member with rfl | rfl <;> rfl
  | _ => cases member

/-- Glue does not hide a tree node. -/
theorem groupBody_pushAll_of_glue {states : List State}
    (glue : ∀ state ∈ states, state.tree? = none) (automaton : Automaton) (range : TextRange)
    (element : StateId) :
    (automaton.pushAll states).groupBody range element = automaton.groupBody range element := by
  rw [groupBody, tree, tree?_pushAll_of_glue glue, groupBody, tree]

/-- Except for sequences, construction carries out an assembly. If there is none, the glue that was
added for it stays. -/
theorem construct_eq_of_assemble {automaton : Automaton} {construction : Construction}
    (noChain : ∀ items, construction.form ≠ .sequence items) :
    automaton.construct construction =
      match automaton.assemble construction with
      | .error fault => .failure (automaton.pushAll (automaton.lead construction.form)) fault
      | .ok assembly => automaton.carryOut construction assembly := by
  have plain (node : Node) : automaton.constructPlain construction node =
      automaton.carryOut construction { node := node } := by
    simp only [carryOut, linkAll]
    rfl
  unfold construct assemble
  cases form : construction.form with
  | leaf leaf => exact plain _
  | sequence items => exact absurd form (noChain items)
  | disjunction alternatives bars => exact plain _
  | capturingGroup name number element =>
    dsimp only
    unfold constructCapturingGroup
    cases automaton.groupBody construction.range element with
    | error fault => rfl
    | ok body =>
      simp [Except.map, carryOut, place, pushAll, Assembly.states, addNode, nextId, placedId]
  | nonCapturingGroup enabled disabled element =>
    cases element with
    | none => exact plain _
    | some element =>
      dsimp only
      cases automaton.groupBody construction.range element with
      | error fault => rfl
      | ok body => exact plain _
  | atomicGroup element =>
    dsimp only
    cases automaton.groupBody construction.range element with
    | error fault => rfl
    | ok body => exact plain _
  | lookAround polarity direction element =>
    have lookedUp : ((automaton.lead (.lookAround polarity direction element)).foldl push
        automaton).groupBody construction.range element =
          automaton.groupBody construction.range element :=
      groupBody_pushAll_of_glue (fun _ => tree?_of_mem_lead) automaton construction.range element
    dsimp only [lead] at lookedUp
    dsimp only
    unfold constructLookAround
    dsimp only
    rw [lookedUp]
    cases automaton.groupBody construction.range element with
    | error fault => rfl
    | ok body =>
      cases polarity <;> cases direction <;>
        simp [Except.map, carryOut, place, pushAll, Assembly.states, addNode, nextId, placedId,
          lookAroundWrappers, wrapperCount, Nat.add_assoc]
  | repetition element quantifier => exact plain _
  | conditional condition yes bar no =>
    simp [constructConditional, carryOut, place, pushAll, Assembly.states, addNode, nextId,
      placedId]

/-- Construction makes the links of the chain and carries out an assembly. -/
theorem construct_eq (automaton : Automaton) (construction : Construction) :
    automaton.construct construction =
      let chained := automaton.linkAll construction.form.chain
      match chained.answer with
      | .error fault => { chained with answer := .error fault }
      | .ok () =>
        match chained.automaton.assemble construction with
        | .error fault =>
          { chained with
            answer := .error fault
            automaton := chained.automaton.pushAll (chained.automaton.lead construction.form) }
        | .ok assembly =>
          let outcome := chained.automaton.carryOut construction assembly
          { outcome with records := chained.records ++ outcome.records } := by
  cases form : construction.form with
  | sequence items =>
    simp only [construct, form, constructSequence, Form.chain, assemble]
    cases (automaton.linkAll (Link.chain items)).answer with
    | error fault => rfl
    | ok answer =>
      simp only [carryOut, linkAll]
      simp [Outcome.success, Outcome.answering, Except.map, placedId, place, pushAll,
        Assembly.states, addNode, nextId]
  | _ =>
    rw [construct_eq_of_assemble (by simp [form]), form]
    simp only [Form.chain, linkAll, Outcome.success]
    cases automaton.assemble construction <;> rfl

/-- What it takes for a construction to succeed, and what it leaves: the chain is linked, an
assembly is placed and its links are made. -/
theorem construct_eq_ok_iff {automaton : Automaton} {construction : Construction} {id : StateId} :
    (automaton.construct construction).answer = .ok id ↔
      let chained := automaton.linkAll construction.form.chain
      chained.answer = .ok () ∧
      ∃ assembly, chained.automaton.assemble construction = .ok assembly ∧
        let placed := chained.automaton.place construction assembly
        (placed.linkAll assembly.links).answer = .ok () ∧
        chained.automaton.placedId assembly = id := by
  rw [construct_eq]
  dsimp only
  cases (automaton.linkAll construction.form.chain).answer with
  | error fault => simp
  | ok answer =>
    dsimp only
    cases (automaton.linkAll construction.form.chain).automaton.assemble construction with
    | error fault => simp
    | ok assembly =>
      simp only [carryOut, Outcome.answering, Except.ok.injEq, exists_eq_left', true_and]
      cases (((automaton.linkAll construction.form.chain).automaton.place construction
        assembly).linkAll assembly.links).answer <;> simp [Except.map]

theorem automaton_construct {automaton : Automaton} {construction : Construction}
    {assembly : Assembly}
    (chained : (automaton.linkAll construction.form.chain).answer = .ok ())
    (assembled : (automaton.linkAll construction.form.chain).automaton.assemble construction =
      .ok assembly) :
    (automaton.construct construction).automaton =
      (((automaton.linkAll construction.form.chain).automaton.place construction
        assembly).linkAll assembly.links).automaton := by
  simp only [construct_eq, chained, assembled]
  rfl

/-! ### Sound assemblies -/

/-- The way into the element of a lookaround: the element itself, or the glue before it. -/
def EntersElement (automaton : Automaton) (id entry element : StateId) :
    Polarity → Direction → Prop
  | .positive, .ahead => entry = element
  | .negative, .ahead => automaton.state? entry = some (.negation id element)
  | .positive, .behind => automaton.state? entry = some (.startOfLookBehind id element)
  | .negative, .behind => ∃ inner, automaton.state? entry = some (.startOfLookBehind id inner) ∧
      automaton.state? inner = some (.negation id element)

/-- A lookaround is entered by way of its glue. -/
def Entered (automaton : Automaton) (id : StateId) : Node → Prop
  | .lookAround body polarity direction entry =>
    automaton.EntersElement id entry body.element polarity direction
  | _ => True

/-- What an assembly for a construction gets right. -/
structure SoundAssembly (automaton : Automaton) (construction : Construction)
    (assembly : Assembly) : Prop where
  children : assembly.node.children = construction.form.children
  names : (construction.form.chain ++ assembly.links).map Link.node = assembly.node.sealedChildren
  joints : (automaton.place construction assembly).SealedJoints
    (fun child next => ⟨child, next⟩ ∈ construction.form.chain ++ assembly.links)
    (automaton.placedId assembly) assembly.node
  entry : (automaton.place construction assembly).Entered (automaton.placedId assembly)
    assembly.node
  glue {state : State} : state ∈ assembly.lead ++ assembly.close →
    state.owner? = some (automaton.placedId assembly) ∧
      ∀ owner next, state ≠ .endOfRepetition owner next

@[simp]
theorem map_node_chain (items : List StateId) :
    (Link.chain items).map Link.node = items.dropLast := by
  induction items with
  | nil => rfl
  | cons first rest inductionHypothesis =>
    cases rest with
    | nil => rfl
    | cons second others =>
      rw [List.dropLast_cons_cons, ← inductionHypothesis]
      rfl

/-- What an assembly with a group body is made of. -/
theorem exists_body_of_map {automaton : Automaton} {range : TextRange} {element : StateId}
    {make : GroupBody → Assembly} {assembly : Assembly}
    (made : (automaton.groupBody range element).map make = .ok assembly) :
    ∃ body, body.element = element ∧ make body = assembly := by
  obtain ⟨body, read, made⟩ := exists_of_map_eq_ok made
  obtain ⟨treeNode, -, rfl⟩ := exists_of_map_eq_ok read
  exact ⟨_, rfl, made⟩

theorem state?_place (automaton : Automaton) (construction : Construction) (assembly : Assembly)
    (offset : Nat) :
    (automaton.place construction assembly).state? ⟨automaton.size + offset⟩ =
      (assembly.states construction)[offset]? :=
  state?_pushAll_add automaton (assembly.states construction) offset

section

variable {automaton : Automaton} {construction : Construction}

/-- A node without glue is sound if the chain seals what it has to. -/
theorem soundAssembly_plain {node : Node} (children : node.children = construction.form.children)
    (names : construction.form.chain.map Link.node = node.sealedChildren)
    (joints : ∀ placed : Automaton, ∀ id, placed.SealedJoints
      (fun child next => ⟨child, next⟩ ∈ construction.form.chain) id node)
    (entry : ∀ placed : Automaton, ∀ id, placed.Entered id node) :
    SoundAssembly automaton construction { node := node } := by
  refine ⟨children, by simpa using names, ?_, entry _ _, by simp⟩
  simpa only [List.append_nil] using joints _ _

theorem soundAssembly_capturingGroup {name : Option String} {number : Nat} {element : StateId}
    {body : GroupBody} (form : construction.form = .capturingGroup name number element)
    (same : body.element = element) :
    SoundAssembly automaton construction
      { node := .capturingGroup body name number
        close := [.endOfCapturingGroup automaton.nextId]
        links := [⟨element, ⟨automaton.size + 1⟩⟩] } := by
  refine ⟨?_, ?_, ⟨⟨automaton.size + 1⟩, ?_, ?_⟩, trivial, ?_⟩
  · simp [form, same]
  · simp [form, same]
  · simp [same]
  · rw [state?_place]
    rfl
  · simp [State.owner?, placedId, nextId]

theorem soundAssembly_lookAround {polarity : Polarity} {direction : Direction}
    {element : StateId} {body : GroupBody}
    (form : construction.form = .lookAround polarity direction element)
    (same : body.element = element) :
    let count := wrapperCount polarity direction
    let lookaround : StateId := ⟨automaton.size + count⟩
    let entry := if count = 0 then element else ⟨automaton.size + count - 1⟩
    SoundAssembly automaton construction
      { node := .lookAround body polarity direction entry
        lead := automaton.lookAroundWrappers polarity direction lookaround element
        close := [.endOfLookaround lookaround]
        links := [⟨element, ⟨automaton.size + count + 1⟩⟩] } := by
  refine ⟨?_, ?_, ⟨⟨automaton.size + wrapperCount polarity direction + 1⟩, ?_, ?_⟩, ?_, ?_⟩
  · simp [form, same]
  · simp [form, same]
  · simp [same]
  · rw [Nat.add_assoc, state?_place]
    cases polarity <;> cases direction <;> rfl
  · cases polarity with
    | positive =>
      cases direction with
      | ahead => exact same.symm
      | behind => exact (state?_place automaton construction _ 0).trans (by rw [same]; rfl)
    | negative =>
      cases direction with
      | ahead => exact (state?_place automaton construction _ 0).trans (by rw [same]; rfl)
      | behind =>
        exact ⟨_, (state?_place automaton construction _ 1).trans rfl,
          (state?_place automaton construction _ 0).trans (by rw [same]; rfl)⟩
  · cases polarity <;> cases direction <;>
      simp [State.owner?, placedId, lookAroundWrappers, wrapperCount]

theorem soundAssembly_conditional {condition yes : StateId} {bar : Option SourceCharacter}
    {no : Option StateId} (form : construction.form = .conditional condition yes bar no) :
    SoundAssembly automaton construction
      { node := .conditional condition yes bar no
        close := [.endOfConditional automaton.nextId]
        links := (yes :: no.toList).map fun pattern => ⟨pattern, ⟨automaton.size + 1⟩⟩ } := by
  refine ⟨?_, ?_, ⟨⟨automaton.size + 1⟩, ?_, ?_, ?_⟩, trivial, ?_⟩
  · simp [form]
  · simp [form, Function.comp_def]
  · simp
  · intro pattern member
    simp_all
  · rw [state?_place]
    rfl
  · simp [State.owner?, placedId, nextId]

/-- Every assembly is sound. -/
theorem soundAssembly {assembly : Assembly}
    (assembled : automaton.assemble construction = .ok assembly) :
    SoundAssembly automaton construction assembly := by
  unfold assemble at assembled
  cases form : construction.form with
  | sequence items =>
    simp only [form, Except.ok.injEq] at assembled
    subst assembled
    refine soundAssembly_plain (by simp [form]) (by simp [form]) ?_ fun _ _ => trivial
    simp [SealedJoints, form]
  | capturingGroup name number element =>
    simp only [form] at assembled
    obtain ⟨body, same, rfl⟩ := exists_body_of_map assembled
    exact soundAssembly_capturingGroup form same
  | nonCapturingGroup enabled disabled element =>
    cases element with
    | none =>
      simp only [form, Except.ok.injEq] at assembled
      subst assembled
      exact soundAssembly_plain (by simp [form]) (by simp [form]) (fun _ _ => trivial)
        fun _ _ => trivial
    | some element =>
      simp only [form] at assembled
      obtain ⟨body, same, rfl⟩ := exists_body_of_map assembled
      exact soundAssembly_plain (by simp [form, same]) (by simp [form]) (fun _ _ => trivial)
        fun _ _ => trivial
  | atomicGroup element =>
    simp only [form] at assembled
    obtain ⟨body, same, rfl⟩ := exists_body_of_map assembled
    exact soundAssembly_plain (by simp [form, same]) (by simp [form]) (fun _ _ => trivial)
      fun _ _ => trivial
  | lookAround polarity direction element =>
    simp only [form] at assembled
    obtain ⟨body, same, rfl⟩ := exists_body_of_map assembled
    exact soundAssembly_lookAround form same
  | conditional condition yes bar no =>
    simp only [form, Except.ok.injEq] at assembled
    subst assembled
    exact soundAssembly_conditional form
  | _ =>
    simp only [form, Except.ok.injEq] at assembled
    subst assembled
    exact soundAssembly_plain (by simp [form]) (by simp [form]) (fun _ _ => trivial)
      fun _ _ => trivial

end

end Automaton

end PatternGraph
