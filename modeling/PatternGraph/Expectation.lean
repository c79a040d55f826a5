/-
This file checks expectations about the states of a finished pattern. An `Inspection` looks at one
state and remembers how it got there; a check either passes, possibly moving on to another state, or
is unmet with a message that begins with the way to the state. A check whose question has no answer,
because a state is missing or unlinked, fails with that fault instead, and so does the description
of a missing state in a message.
-/

import PatternGraph.Pattern

namespace PatternGraph

/-- A state under inspection and the way to it. -/
structure Inspection where
  id : StateId
  context : String

/-- What can be expected of a state. -/
inductive Expectation
  | continuationIs (expected : StateId)
  | hasNoContinuation
  | successorsAre (expected : List StateId)
  | successorCount (expected : Nat)
  | transitionIs (expected : Transition)
  | isKind (expected : Kind)
  /-- A glue state with a name. -/
  | isGlue (expected : String)
  | textIs (expected : String)
  /-- The mask of the flags in effect. -/
  | flagsAre (expected : FlagMask)
  /-- Moves on to the continuation. -/
  | continuation
  /-- Moves on to the successor with an index. -/
  | successor (index : Nat)

/-- Why an inspection ended. -/
inductive InspectionFault
  | unmet (message : String)
  | graph (fault : Fault)
  deriving DecidableEq

def InspectionFault.message : InspectionFault → String
  | unmet message => message
  | graph fault => fault.message

namespace Pattern

/-- The inspection of a state of the pattern. -/
def inspect (pattern : Pattern) (id : StateId) : Inspection :=
  ⟨id, "state " ++ id.render ++ " of `" ++ pattern.automaton.source.text ++ "`"⟩

/-- A state by name and handle, with its text if it has any. -/
def describe (pattern : Pattern) (id : StateId) : Except Fault String :=
  (pattern.automaton.state id).map fun state =>
    let text := pattern.automaton.text id
    let named := state.name ++ " " ++ id.render
    if text.isEmpty then named else named ++ " `" ++ text ++ "`"

/-- Several states with commas between them. -/
def describeAll (pattern : Pattern) (ids : List StateId) : Except Fault String :=
  (ids.mapM pattern.describe).map ", ".intercalate

/-- The hexadecimal text of a mask, without leading zeros. -/
def hexadecimal (mask : FlagMask) : String := "0x" ++ String.ofList (Nat.toDigits 16 mask.toNat)

/-- A state as the value of an optional handle. -/
def optionalHandle (id : StateId) : String := "Some(StateId(" ++ toString id.index ++ "))"

/-- Passes if the condition holds, and otherwise reports a message, which may itself fail. -/
def expectThat (inspection : Inspection) (condition : Bool) (message : Except Fault String) :
    Except InspectionFault Inspection :=
  if condition then .ok inspection
  else match message with
    | .ok text => .error (.unmet (inspection.context ++ ": Expected " ++ text))
    | .error fault => .error (.graph fault)

/-- A question about the automaton, its faults being those of the inspection. -/
def ask {α : Type} (answer : Except Fault α) : Except InspectionFault α :=
  answer.mapError .graph

/-- Checks one expectation at the state under inspection. -/
def check (pattern : Pattern) (inspection : Inspection) (expectation : Expectation) :
    Except InspectionFault Inspection := do
  let automaton := pattern.automaton
  let id := inspection.id
  match expectation with
  | .continuationIs expected =>
    let actual ← ask (automaton.continuation id)
    expectThat inspection (actual == some expected) do
      let wanted ← pattern.describe expected
      let found ← match actual with
        | some next => pattern.describe next
        | none => pure "none"
      return "continuation " ++ wanted ++ ", found " ++ found
  | .hasNoContinuation =>
    match ← ask (automaton.continuation id) with
    | none => return inspection
    | some next =>
      expectThat inspection false (.ok ("no continuation, found " ++ optionalHandle next))
  | .successorsAre expected =>
    let actual ← ask (automaton.successors id)
    expectThat inspection (actual == expected) do
      let wanted ← pattern.describeAll expected
      let found ← pattern.describeAll actual
      return "successors [" ++ wanted ++ "], found [" ++ found ++ "]"
  | .successorCount expected =>
    let actual ← ask (automaton.successors id)
    expectThat inspection (actual.length == expected)
      (.ok (toString expected ++ " successors, found " ++ toString actual.length))
  | .transitionIs expected =>
    let actual ← ask (automaton.transition id)
    expectThat inspection (actual == expected)
      (.ok ("incoming transition " ++ expected.name ++ ", found " ++ actual.name))
  | .isKind expected =>
    let found ← ask (automaton.isOfKind expected id)
    expectThat inspection found
      ((pattern.describe id).map fun actual => "a " ++ expected.name ++ " tree, found " ++ actual)
  | .isGlue expected =>
    let state ← ask (automaton.state id)
    expectThat inspection (!state.isTree && state.name == expected)
      ((pattern.describe id).map fun actual => "a " ++ expected ++ " state, found " ++ actual)
  | .textIs expected =>
    let actual := automaton.text id
    expectThat inspection (actual == expected)
      (.ok ("text '" ++ expected ++ "', found '" ++ actual ++ "'"))
  | .flagsAre expected =>
    let actual ← ask (automaton.flags id)
    expectThat inspection (actual.mask == expected)
      (.ok ("flags " ++ hexadecimal expected ++ ", found " ++ hexadecimal actual.mask))
  | .continuation =>
    match ← ask (automaton.continuation id) with
    | none => expectThat inspection false (.ok "a continuation, found none")
    | some next => return ⟨next, inspection.context ++ " -> continuation " ++ next.render⟩
  | .successor index =>
    let successors ← ask (automaton.successors id)
    match successors[index]? with
    | some next =>
      return ⟨next, inspection.context ++ " -> successor[" ++ toString index ++ "] " ++
        next.render⟩
    | none =>
      .error (.unmet (inspection.context ++ ": Successor index " ++ toString index ++
        " out of bounds (" ++ toString successors.length ++ " successors)"))

/-- Checks expectations in order, beginning at a state, and gives the state they led to. -/
def checkAll (pattern : Pattern) (id : StateId) (expectations : List Expectation) :
    Except InspectionFault StateId :=
  (expectations.foldlM pattern.check (pattern.inspect id)).map Inspection.id

end Pattern

end PatternGraph
