/-
This file defines the handle by which the states of an automaton refer to each other. Links between
states are handles rather than the states themselves, so the loops of a repetition need no shared
ownership, and a handle may well name a state that does not exist.
-/

namespace PatternGraph

/-- The position of a state in its automaton. -/
structure StateId where
  index : Nat
  deriving DecidableEq, Inhabited

namespace StateId

/-- A handle is kept in 32 bits. -/
def bound : Nat := 0x100000000

/-- The handle with an index, for indices that fit. -/
def ofIndex? (index : Nat) : Option StateId := if index < bound then some ⟨index⟩ else none

/-- The complaint about an index that does not fit. -/
def overflowMessage (index : Nat) : String :=
  "state index " ++ toString index ++ " exceeds the StateId range"

def render (id : StateId) : String := "#" ++ toString id.index

end StateId

end PatternGraph
