/-
This file reads the syntax tree off an automaton. Children are named by handle, and handles can form
loops, so the tree is unfolded along a path of ancestors: a node that is met among its own ancestors
is refused, and every other step adds to the path one more state of the automaton. What is unfolded
is a tree in the type's own sense, and everything that walks the tree recurses on it.

Readings differ in what they count as children. `fullTree` takes every child; whoever reads a
pattern otherwise says kind by kind where it goes from a node, and unfolds the tree by that.
-/

import PatternGraph.Reach.Frontier

namespace PatternGraph

/-- A tree node with the trees of its children. -/
inductive SyntaxTree
  | node (id : StateId) (content : TreeNode) (children : List SyntaxTree)

namespace SyntaxTree

def id : SyntaxTree → StateId
  | .node id .. => id

mutual

/-- The handles of all nodes, each before its children. -/
def preorder : SyntaxTree → List StateId
  | .node id _ children => id :: preorderAll children

/-- The handles of all nodes of a row of trees. -/
def preorderAll : List SyntaxTree → List StateId
  | [] => []
  | tree :: rest => preorder tree ++ preorderAll rest

end

end SyntaxTree

namespace Automaton

/-- All children of a node. -/
def allChildren (_ : Automaton) (content : TreeNode) : Except Fault (List StateId) :=
  .ok content.node.children

theorem mem_ids_of_tree {automaton : Automaton} {id : StateId} {content : TreeNode}
    (found : automaton.tree id = .ok content) : id ∈ automaton.ids := by
  unfold Automaton.tree at found
  cases isTree : automaton.tree? id with
  | none => simp [isTree] at found
  | some treeNode =>
    unfold tree? at isTree
    cases stored : automaton.state? id with
    | none => simp [stored] at isTree
    | some state => exact @mem_ids_of_state _ _ state (by simp [Automaton.state, stored])

mutual

/-- The tree below a node, whose ancestors are given. -/
def subtree (automaton : Automaton) (childrenOf : TreeNode → Except Fault (List StateId))
    (ancestors : List StateId) (id : StateId) : Except Fault SyntaxTree :=
  match _found : automaton.tree id with
  | .error fault => .error fault
  | .ok content =>
    if _recurs : ancestors.contains id then .error (.cyclic id)
    else
      match childrenOf content with
      | .error fault => .error fault
      | .ok children =>
        (subtrees automaton childrenOf (id :: ancestors) children).map (.node id content)
termination_by (automaton.unexplored (fun _ => 1) ancestors.contains, 0)
decreasing_by
  have shrinks := unexplored_cons_le (fun _ => 1) (Bool.eq_false_iff.mpr _recurs)
    (mem_ids_of_tree _found)
  exact Prod.Lex.left _ _ (by omega)

/-- The trees below a row of nodes with the same ancestors, the first fault in the order of the row
deciding. -/
def subtrees (automaton : Automaton) (childrenOf : TreeNode → Except Fault (List StateId))
    (ancestors : List StateId) (ids : List StateId) : Except Fault (List SyntaxTree) :=
  match ids with
  | [] => .ok []
  | id :: rest =>
    match subtree automaton childrenOf ancestors id with
    | .error fault => .error fault
    | .ok first => (subtrees automaton childrenOf ancestors rest).map (first :: ·)
termination_by (automaton.unexplored (fun _ => 1) ancestors.contains, ids.length + 1)

end

/-- The tree below a node with all children. -/
def fullTree (automaton : Automaton) (id : StateId) : Except Fault SyntaxTree :=
  automaton.subtree automaton.allChildren [] id

end Automaton

end PatternGraph
