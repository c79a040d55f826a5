/-
This file says what a look-up finds after a change of the arena. Three changes occur: a state is
added at the end, the continuation of a tree node is stored, and the group of a back-reference is
replaced. Each is described by one equation for `state?`, and everything else about the arena that a
later proof needs is read off these equations.
-/

import Mathlib.Data.List.Nodup
import PatternGraph.Answer
import PatternGraph.Automaton.Linking
import PatternGraph.References

namespace PatternGraph

namespace Automaton

/-! ### Looking up a state -/

theorem tree?_eq_some_iff {automaton : Automaton} {id : StateId} {treeNode : TreeNode} :
    automaton.tree? id = some treeNode ↔ automaton.state? id = some (.tree treeNode) := by
  unfold tree?
  cases automaton.state? id with
  | none => simp
  | some state => cases state <;> simp [State.tree?]

theorem tree?_of_state? {automaton : Automaton} {id : StateId} {state : State}
    (found : automaton.state? id = some state) : automaton.tree? id = state.tree? := by
  rw [tree?, found, Option.bind_some]

theorem state_eq_ok_iff {automaton : Automaton} {id : StateId} {state : State} :
    automaton.state id = .ok state ↔ automaton.state? id = some state := by
  unfold Automaton.state
  cases automaton.state? id <;> simp

theorem tree_eq_ok_iff {automaton : Automaton} {id : StateId} {treeNode : TreeNode} :
    automaton.tree id = .ok treeNode ↔ automaton.tree? id = some treeNode := by
  unfold tree
  cases automaton.tree? id <;> simp

theorem lt_size_of_state? {automaton : Automaton} {id : StateId} {state : State}
    (found : automaton.state? id = some state) : id.index < automaton.size :=
  (Array.getElem?_eq_some_iff.mp found).1

@[simp]
theorem length_ids (automaton : Automaton) : automaton.ids.length = automaton.size := by
  rw [ids, List.length_map, List.length_range]

theorem nodup_ids (automaton : Automaton) : automaton.ids.Nodup :=
  List.nodup_range.map fun _ _ same => StateId.mk.inj same

theorem ids_ascending (automaton : Automaton) : automaton.ids.Pairwise (·.index < ·.index) :=
  List.pairwise_map.mpr List.pairwise_lt_range

theorem mem_ids_iff {automaton : Automaton} {id : StateId} :
    id ∈ automaton.ids ↔ ∃ state, automaton.state? id = some state := by
  rw [ids, List.mem_map]
  constructor
  · rintro ⟨index, inRange, rfl⟩
    exact ⟨_, Array.getElem?_eq_getElem (List.mem_range.mp inRange)⟩
  · rintro ⟨state, found⟩
    exact ⟨id.index, List.mem_range.mpr (lt_size_of_state? found), rfl⟩

theorem state?_eq_none_of_size_le {automaton : Automaton} {id : StateId}
    (beyond : automaton.size ≤ id.index) : automaton.state? id = none :=
  Array.getElem?_eq_none beyond

@[simp]
theorem state?_nextId (automaton : Automaton) : automaton.state? automaton.nextId = none :=
  state?_eq_none_of_size_le (Nat.le_refl _)

theorem ne_nextId_of_state? {automaton : Automaton} {id : StateId} {state : State}
    (found : automaton.state? id = some state) : id ≠ automaton.nextId := by
  rintro rfl
  rw [state?_nextId] at found
  cases found

/-- An automaton is its source and what is found under each handle. -/
theorem ext_of_state? {first second : Automaton} (source : first.source = second.source)
    (states : ∀ id, first.state? id = second.state? id) : first = second := by
  have same : first.states = second.states := Array.ext_getElem? fun index => states ⟨index⟩
  cases first
  cases second
  cases source
  cases same
  rfl

/-! ### Adding a state -/

@[simp]
theorem size_push (automaton : Automaton) (state : State) :
    (automaton.push state).size = automaton.size + 1 := by
  simp [push, size]

theorem state?_push (automaton : Automaton) (state : State) (id : StateId) :
    (automaton.push state).state? id =
      if id = automaton.nextId then some state else automaton.state? id := by
  obtain ⟨index⟩ := id
  simp only [state?, push, nextId, size, Array.getElem?_push, StateId.mk.injEq]

@[simp]
theorem state?_push_nextId (automaton : Automaton) (state : State) :
    (automaton.push state).state? automaton.nextId = some state := by
  rw [state?_push, if_pos rfl]

theorem state?_push_of_some {automaton : Automaton} {id : StateId} {held : State}
    (found : automaton.state? id = some held) (state : State) :
    (automaton.push state).state? id = some held := by
  rw [state?_push, if_neg (ne_nextId_of_state? found), found]

/-- Adds states in order. -/
def pushAll (automaton : Automaton) (states : List State) : Automaton := states.foldl push automaton

theorem pushAll_cons (automaton : Automaton) (state : State) (rest : List State) :
    automaton.pushAll (state :: rest) = (automaton.push state).pushAll rest := rfl

@[simp]
theorem states_pushAll (automaton : Automaton) (states : List State) :
    (automaton.pushAll states).states = automaton.states ++ states.toArray := by
  induction states generalizing automaton with
  | nil => simp [pushAll]
  | cons state rest inductionHypothesis =>
    rw [pushAll_cons, inductionHypothesis]
    simp [push]

@[simp]
theorem size_pushAll (automaton : Automaton) (states : List State) :
    (automaton.pushAll states).size = automaton.size + states.length := by
  simp [size]

theorem state?_pushAll_of_some {automaton : Automaton} {id : StateId} {held : State}
    (found : automaton.state? id = some held) (states : List State) :
    (automaton.pushAll states).state? id = some held := by
  have inBounds : id.index < automaton.states.size := lt_size_of_state? found
  rw [state?, states_pushAll, Array.getElem?_append_left inBounds]
  exact found

theorem state?_pushAll_add (automaton : Automaton) (states : List State) (offset : Nat) :
    (automaton.pushAll states).state? ⟨automaton.size + offset⟩ = states[offset]? := by
  rw [state?, states_pushAll, Array.getElem?_append_right (by simp [size])]
  simp [size]

/-- A state that was not there before is one of those added. -/
theorem mem_of_state?_pushAll {automaton : Automaton} {states : List State} {id : StateId}
    {state : State} (found : (automaton.pushAll states).state? id = some state)
    (absent : automaton.state? id = none) :
    ∃ offset, id = ⟨automaton.size + offset⟩ ∧ states[offset]? = some state := by
  have beyond : automaton.size ≤ id.index := Array.getElem?_eq_none_iff.mp absent
  have placed : id = ⟨automaton.size + (id.index - automaton.size)⟩ := by
    rw [Nat.add_sub_cancel' beyond]
  rw [placed, state?_pushAll_add] at found
  exact ⟨_, placed, found⟩

/-- Glue that is added changes no tree node. -/
theorem tree?_pushAll_of_glue {states : List State} (glue : ∀ state ∈ states, state.tree? = none)
    (automaton : Automaton) (id : StateId) :
    (automaton.pushAll states).tree? id = automaton.tree? id := by
  cases was : automaton.state? id with
  | some state => rw [tree?, tree?, was, state?_pushAll_of_some was]
  | none =>
    rw [tree?, tree?, was, Option.bind_none]
    cases now : (automaton.pushAll states).state? id with
    | none => rfl
    | some state =>
      obtain ⟨offset, -, added⟩ := mem_of_state?_pushAll now was
      exact glue state (List.mem_of_getElem? added)

/-! ### Storing a continuation -/

@[simp]
theorem size_store (automaton : Automaton) (link : Link) :
    (automaton.store link).size = automaton.size := by
  simp [store, size]

theorem state?_store (automaton : Automaton) (link : Link) (id : StateId) :
    (automaton.store link).state? id =
      if id = link.node then (automaton.state? id).map (State.followedBy link.next)
      else automaton.state? id := by
  obtain ⟨index⟩ := id
  obtain ⟨⟨node⟩, next⟩ := link
  simp only [state?, store, Array.getElem?_modify, StateId.mk.injEq, eq_comm (a := node)]

theorem state?_store_of_ne (automaton : Automaton) {node id : StateId} (other : id ≠ node)
    (next : StateId) : (automaton.store ⟨node, next⟩).state? id = automaton.state? id := by
  rw [state?_store, if_neg other]

theorem state?_store_node {automaton : Automaton} {node : StateId} {treeNode : TreeNode}
    (found : automaton.state? node = some (.tree treeNode)) (next : StateId) :
    (automaton.store ⟨node, next⟩).state? node =
      some (.tree { treeNode with continuation := some next }) := by
  rw [state?_store, if_pos rfl, found]
  rfl

/-! ### Replacing the group of a back-reference -/

/-- The automaton with the group of a back-reference replaced. -/
def regrouped (automaton : Automaton) (id : StateId) (group : Option StateId) : Automaton :=
  { automaton with states := automaton.states.modify id.index (State.referringTo group) }

@[simp]
theorem size_regrouped (automaton : Automaton) (changed : StateId) (group : Option StateId) :
    (automaton.regrouped changed group).size = automaton.size := by
  simp [regrouped, size]

theorem setGroup_eq_ok {automaton changed : Automaton} {id : StateId} {group : Option StateId}
    (set : automaton.setGroup id group = .ok changed) : changed = automaton.regrouped id group := by
  obtain ⟨treeNode, -, set⟩ := exists_of_bind_eq_ok set
  split at set
  · exact (Except.ok.inj set).symm
  · cases set

theorem state?_regrouped (automaton : Automaton) (changed : StateId) (group : Option StateId)
    (id : StateId) :
    (automaton.regrouped changed group).state? id =
      if id = changed then (automaton.state? id).map (State.referringTo group)
      else automaton.state? id := by
  obtain ⟨index⟩ := id
  obtain ⟨position⟩ := changed
  simp only [state?, regrouped, Array.getElem?_modify, StateId.mk.injEq, eq_comm (a := position)]

/-- A back-reference with another group differs from the original in nothing that linking reads. -/
theorem referringTo_tree (group : Option StateId) (treeNode : TreeNode) :
    State.referringTo group (.tree treeNode) = .tree treeNode ∨
      ∃ reference other, treeNode.node = .leaf (.backReference reference) ∧
        State.referringTo group (.tree treeNode) =
          .tree { treeNode with node := .leaf (.backReference other) } := by
  unfold State.referringTo
  dsimp only
  split
  · rename_i reference content
    exact Or.inr ⟨reference, _, content, rfl⟩
  · exact Or.inl rfl

/-- The group that was set last counts. -/
@[simp]
theorem referringTo_referringTo (group : Option StateId) (state : State) :
    (state.referringTo group).referringTo group = state.referringTo group := by
  cases state with
  | tree treeNode =>
    obtain ⟨range, flags, node, continuation⟩ := treeNode
    cases node with
    | leaf leaf => cases leaf <;> rfl
    | _ => rfl
  | _ => rfl

theorem referringTo_glue (group : Option StateId) {state : State} (glue : state.tree? = none) :
    State.referringTo group state = state := by
  cases state with
  | tree treeNode => cases glue
  | _ => rfl

theorem state?_regrouped_of_glue {automaton : Automaton} {id : StateId} {state : State}
    (found : automaton.state? id = some state) (glue : state.tree? = none) (changed : StateId)
    (group : Option StateId) : (automaton.regrouped changed group).state? id = some state := by
  rw [state?_regrouped, found]
  simp [referringTo_glue group glue]

/-- A glue state of the regrouped automaton was there before. -/
theorem state?_of_state?_regrouped {automaton : Automaton} {changed id : StateId}
    {group : Option StateId} {state : State}
    (found : (automaton.regrouped changed group).state? id = some state)
    (glue : state.tree? = none) : automaton.state? id = some state := by
  rw [state?_regrouped] at found
  cases was : automaton.state? id with
  | none => simp [was] at found
  | some original =>
    cases original with
    | tree treeNode =>
      rcases referringTo_tree group treeNode with same | ⟨reference, other, -, changes⟩
      · simp only [was, Option.map_some, same, ite_self, Option.some.injEq] at found
        subst found
        cases glue
      · rw [was, Option.map_some, changes] at found
        split at found <;> cases found <;> cases glue
    | _ => simpa [was, State.referringTo] using found

/-- A tree node of the regrouped automaton was there before with the same continuation, and either
it is the same or it was and is a back-reference. -/
theorem tree?_of_tree?_regrouped {automaton : Automaton} {changed id : StateId}
    {group : Option StateId} {treeNode : TreeNode}
    (found : (automaton.regrouped changed group).tree? id = some treeNode) :
    automaton.tree? id = some treeNode ∨
      ∃ original reference other, automaton.tree? id = some original ∧
        original.node = .leaf (.backReference reference) ∧
        treeNode = { original with node := .leaf (.backReference other) } := by
  rw [tree?_eq_some_iff, state?_regrouped] at found
  split at found
  · cases was : automaton.state? id with
    | none => simp [was] at found
    | some state =>
      rw [was, Option.map_some] at found
      cases state with
      | tree original =>
        rcases referringTo_tree group original with same | ⟨reference, other, content, changes⟩
        · rw [same] at found
          cases found
          exact Or.inl (tree?_eq_some_iff.mpr was)
        · rw [changes] at found
          cases found
          exact Or.inr ⟨original, reference, other, tree?_eq_some_iff.mpr was, content, rfl⟩
      | _ => cases found
  · exact Or.inl (tree?_eq_some_iff.mpr found)

/-- Conversely every tree node is still there. -/
theorem tree?_regrouped {automaton : Automaton} {id : StateId} {treeNode : TreeNode}
    (found : automaton.tree? id = some treeNode) (changed : StateId) (group : Option StateId) :
    (automaton.regrouped changed group).tree? id = some treeNode ∨
      ∃ reference other, treeNode.node = .leaf (.backReference reference) ∧
        (automaton.regrouped changed group).tree? id =
          some { treeNode with node := .leaf (.backReference other) } := by
  rw [tree?_eq_some_iff] at found
  simp only [tree?_eq_some_iff, state?_regrouped, found, Option.map_some]
  split
  · rcases referringTo_tree group treeNode with same | ⟨reference, other, content, changes⟩
    · exact Or.inl (congrArg some same)
    · exact Or.inr ⟨reference, other, content, congrArg some changes⟩
  · exact Or.inl rfl

end Automaton

end PatternGraph
