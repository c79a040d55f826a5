/-
This file builds the states of an automaton from the bottom up: leaves first, then the nodes that
name them as children. A `Construction` says what to build; `Automaton.construct` builds it and
answers with the handle of the new node.

Some links are made here rather than when the pattern is finished, because nothing that is built
later can change them. The items of a sequence are chained to each other. The element of a capturing
group is followed by an end-of-group state, that of a lookaround by an end-of-lookaround state, and
the two patterns of a conditional by one end-of-conditional state. A node can therefore be the child
of one such parent only: a second parent would set its continuation again, and construction fails.

Handles of children are not checked beyond that. A group needs its element to be a tree node, since
its header ends where the element begins; the other nodes take any handle, and a handle that names
no tree node is found out when the continuation reaches it.
-/

import PatternGraph.Automaton.Linking

namespace PatternGraph

/-- What a node is built as. -/
inductive Form
  | leaf (leaf : Leaf)
  | sequence (items : List StateId)
  | disjunction (alternatives : List StateId) (bars : List SourceCharacter)
  | capturingGroup (name : Option String) (number : Nat) (element : StateId)
  | nonCapturingGroup (enabled disabled : FlagSet) (element : Option StateId)
  | atomicGroup (element : StateId)
  | lookAround (polarity : Polarity) (direction : Direction) (element : StateId)
  | repetition (element : StateId) (quantifier : Quantifier)
  | conditional (condition yes : StateId) (bar : Option SourceCharacter) (no : Option StateId)

/-- A node to be built: where it is written, the flags active there and what it is. -/
structure Construction where
  range : TextRange
  flags : FlagSet
  form : Form

namespace Construction

/-- A class written by a backslash and a marker. -/
def escapedClass? (backslash marker : SourceCharacter) (flags : FlagSet) :
    Except SyntaxFault Construction :=
  (EscapedClass.ofMarker? backslash marker).map fun (range, escaped) =>
    ⟨range, flags, .leaf (.escapedClass escaped)⟩

/-- A class written by a backslash, a marker and a property in braces. -/
def propertyClass? (source : Source) (backslash marker opening closing : SourceCharacter)
    (flags : FlagSet) : Except SyntaxFault Construction :=
  (EscapedClass.ofBraces? source backslash marker opening closing).map fun (range, escaped) =>
    ⟨range, flags, .leaf (.escapedClass escaped)⟩

/-- A back-reference that runs from its opener, a backslash or a parenthesis, through `stop`. -/
def backReference (source : Source) (opener : SourceCharacter) (key : Option SourceCharacter)
    (start stop : SourceCharacter) (flags : FlagSet) : Construction where
  range := opener.range.through stop.range
  flags
  form := .leaf (.backReference (BackReference.read source key start stop))

/-- A conditional between its two parentheses. -/
def conditional (opening closing : SourceCharacter) (condition yes : StateId)
    (bar : Option SourceCharacter) (no : Option StateId) (flags : FlagSet) : Construction where
  range := opening.range.through closing.range
  flags
  form := .conditional condition yes bar no

end Construction

/-- The links that chain the items of a sequence to each other. -/
def Link.chain (items : List StateId) : List Link := items.zipWith Link.mk items.tail

namespace Automaton

/-- The body of a group: its element, with the text from the beginning of the group up to the
element as header. -/
def groupBody (automaton : Automaton) (range : TextRange) (element : StateId) :
    Except Fault GroupBody :=
  (automaton.tree element).map fun treeNode =>
    ⟨element, ⟨range.endingAt treeNode.range.beginning⟩⟩

/-- Adds an unlinked tree node. -/
def addNode (automaton : Automaton) (construction : Construction) (node : Node) : Automaton :=
  automaton.push (.tree ⟨construction.range, construction.flags, node, none⟩)

/-- Adds a node that needs nothing else. -/
def constructPlain (automaton : Automaton) (construction : Construction) (node : Node) :
    Outcome StateId :=
  .success (automaton.addNode construction node) automaton.nextId

/-- Adds a sequence after chaining its items. -/
def constructSequence (automaton : Automaton) (construction : Construction)
    (items : List StateId) : Outcome StateId :=
  let chained := automaton.linkAll (Link.chain items)
  match chained.answer with
  | .error fault => { chained with answer := .error fault }
  | .ok () =>
    { answer := .ok chained.automaton.nextId
      automaton := chained.automaton.addNode construction (.sequence items)
      records := chained.records }

/-- Adds a capturing group and its end, and links its element to the end. -/
def constructCapturingGroup (automaton : Automaton) (construction : Construction)
    (name : Option String) (number : Nat) (element : StateId) : Outcome StateId :=
  match automaton.groupBody construction.range element with
  | .error fault => .failure automaton fault
  | .ok body =>
    let group := automaton.nextId
    let grouped := automaton.addNode construction (.capturingGroup body name number)
    let ended := grouped.push (.endOfCapturingGroup group)
    (ended.linkAll [⟨element, grouped.nextId⟩]).answering group

/-- The glue states that are passed on the way from a lookaround into its element, given the handle
that the lookaround will have, in the order in which they are added. -/
def lookAroundWrappers (automaton : Automaton) (polarity : Polarity) (direction : Direction)
    (lookaround element : StateId) : List State :=
  match polarity, direction with
  | .positive, .ahead => []
  | .negative, .ahead => [.negation lookaround element]
  | .positive, .behind => [.startOfLookBehind lookaround element]
  | .negative, .behind =>
    [.negation lookaround element, .startOfLookBehind lookaround automaton.nextId]

/-- The number of those glue states. -/
def wrapperCount (polarity : Polarity) (direction : Direction) : Nat :=
  (if polarity = .negative then 1 else 0) + (if direction = .behind then 1 else 0)

/-- Adds a lookaround and its end after the glue that leads into its element, and links the element
to the end. The lookaround is entered through the glue state added last. The element is looked up
behind the glue, which stays if there is no such element. -/
def constructLookAround (automaton : Automaton) (construction : Construction)
    (polarity : Polarity) (direction : Direction) (element : StateId) : Outcome StateId :=
  let count := wrapperCount polarity direction
  let lookaround : StateId := ⟨automaton.size + count⟩
  let wrapped := (automaton.lookAroundWrappers polarity direction lookaround element).foldl push
    automaton
  let entry := if count = 0 then element else ⟨automaton.size + count - 1⟩
  match wrapped.groupBody construction.range element with
  | .error fault => .failure wrapped fault
  | .ok body =>
    let looked := wrapped.addNode construction (.lookAround body polarity direction entry)
    let ended := looked.push (.endOfLookaround lookaround)
    (ended.linkAll [⟨element, looked.nextId⟩]).answering lookaround

/-- Adds a conditional and its end, and links its patterns to the end. -/
def constructConditional (automaton : Automaton) (construction : Construction)
    (condition yes : StateId) (bar : Option SourceCharacter) (no : Option StateId) :
    Outcome StateId :=
  let conditional := automaton.nextId
  let added := automaton.addNode construction (.conditional condition yes bar no)
  let close := added.nextId
  let ended := added.push (.endOfConditional conditional)
  (ended.linkAll ((yes :: no.toList).map fun pattern => ⟨pattern, close⟩)).answering conditional

/-- Builds a node from what was asked for and answers with its handle. -/
def construct (automaton : Automaton) (construction : Construction) : Outcome StateId :=
  match construction.form with
  | .leaf leaf => automaton.constructPlain construction (.leaf leaf)
  | .sequence items => automaton.constructSequence construction items
  | .disjunction alternatives bars =>
    automaton.constructPlain construction (.disjunction alternatives bars)
  | .capturingGroup name number element =>
    automaton.constructCapturingGroup construction name number element
  | .nonCapturingGroup enabled disabled none =>
    automaton.constructPlain construction (.nonCapturingGroup none enabled disabled)
  | .nonCapturingGroup enabled disabled (some element) =>
    match automaton.groupBody construction.range element with
    | .error fault => .failure automaton fault
    | .ok body =>
      automaton.constructPlain construction (.nonCapturingGroup (some body) enabled disabled)
  | .atomicGroup element =>
    match automaton.groupBody construction.range element with
    | .error fault => .failure automaton fault
    | .ok body => automaton.constructPlain construction (.atomicGroup body)
  | .lookAround polarity direction element =>
    automaton.constructLookAround construction polarity direction element
  | .repetition element quantifier =>
    automaton.constructPlain construction (.repetition element quantifier)
  | .conditional condition yes bar no =>
    automaton.constructConditional construction condition yes bar no

end Automaton

end PatternGraph
