/-
This file says when two nodes are the same apart from the handles that they hold. A handle means
something in its own arena only, so erasing it loses nothing that can be compared between two of
them; how many children there are, and which, has to be compared by following the handles. The
header of a group is read off the range of its element, hence it is erased as well.

Whatever can be read off the bare node is the same for nodes with the same payload: how they are
entered, which glue they are due, and to which targets they and their glue lead. Payloads can be
compared by computation; only the elements of bracketed classes need a comparison of their own for
that, because they are nested in lists of themselves.
-/

import PatternGraph.Proofs.Linking.Targets

namespace PatternGraph

/-! ### Comparing leaves -/

namespace ClassElement

mutual

/-- Whether two elements are equal. -/
def same : ClassElement → ClassElement → Bool
  | .item site content, .item otherSite other => site = otherSite ∧ content = other
  | .union site elements, .union otherSite others =>
    site = otherSite ∧ sameAll elements others
  | .intersection site elements operators, .intersection otherSite others otherOperators =>
    site = otherSite ∧ sameAll elements others ∧ operators = otherOperators
  | .nested site opening contents, .nested otherSite otherOpening other =>
    site = otherSite ∧ opening = otherOpening ∧ contents.same other
  | _, _ => false

/-- Whether two lists of elements are equal. -/
def sameAll : List ClassElement → List ClassElement → Bool
  | [], [] => true
  | element :: rest, other :: others => element.same other ∧ sameAll rest others
  | _, _ => false

end

mutual

theorem same_iff : ∀ element other : ClassElement, element.same other ↔ element = other
  | .item site content, other => by
    cases other <;> simp [same]
  | .union site elements, other => by
    cases other <;> simp [same, sameAll_iff elements]
  | .intersection site elements operators, other => by
    cases other <;> simp [same, sameAll_iff elements]
  | .nested site opening contents, other => by
    cases other <;> simp [same, same_iff contents]

theorem sameAll_iff : ∀ elements others : List ClassElement,
    sameAll elements others ↔ elements = others
  | [], others => by
    cases others <;> simp [sameAll]
  | element :: rest, others => by
    cases others <;> simp [sameAll, same_iff element, sameAll_iff rest]

end

instance : DecidableEq ClassElement :=
  fun element other => decidable_of_iff _ (same_iff element other)

end ClassElement

deriving instance DecidableEq for CharacterClass

deriving instance DecidableEq for Leaf

deriving instance DecidableEq for Node

/-! ### Payloads -/

/-- The leaf without the group that it refers to. -/
def Leaf.bare : Leaf → Leaf
  | .backReference reference => .backReference { reference with group := none }
  | leaf => leaf

namespace Node

/-- The node without its handles, and without what is read off the nodes that they name. -/
def bare : Node → Node
  | .leaf content => .leaf content.bare
  | .sequence _ => .sequence []
  | .disjunction _ bars => .disjunction [] bars
  | .capturingGroup _ name number => .capturingGroup ⟨default, default⟩ name number
  | .nonCapturingGroup _ enabled disabled => .nonCapturingGroup none enabled disabled
  | .atomicGroup _ => .atomicGroup ⟨default, default⟩
  | .lookAround _ polarity direction _ =>
    .lookAround ⟨default, default⟩ polarity direction default
  | .repetition _ quantifier => .repetition default quantifier
  | .conditional _ _ bar _ => .conditional default default bar none

/-- The nodes differ in handles only. -/
def SamePayload (node other : Node) : Prop := other.bare = node.bare

instance (node other : Node) : Decidable (node.SamePayload other) :=
  inferInstanceAs (Decidable (other.bare = node.bare))

namespace SamePayload

variable {node other : Node} (same : node.SamePayload other)

include same

theorem symm : other.SamePayload node := Eq.symm same

/-- What can be read off the bare nodes is the same. -/
theorem read_eq {Answer : Type} (read : Node → Answer)
    (blind : ∀ node : Node, read node.bare = read node) : read other = read node :=
  calc read other
    _ = read other.bare := (blind other).symm
    _ = read node.bare := congrArg read same
    _ = read node := blind node

theorem transition : other.transition = node.transition :=
  same.read_eq _ fun node => by
    cases node with
    | leaf content => cases content <;> rfl
    | _ => rfl

theorem builtGlue : other.builtGlue = node.builtGlue :=
  same.read_eq _ fun node => by cases node <;> rfl

theorem linkedGlue : other.linkedGlue = node.linkedGlue :=
  same.read_eq _ fun node => by cases node <;> rfl

theorem afterChild (count index : Nat) :
    other.afterChild count index = node.afterChild count index :=
  same.read_eq (fun node => node.afterChild count index) fun node => by cases node <;> rfl

theorem afterSelf : other.afterSelf = node.afterSelf :=
  same.read_eq _ fun node => by cases node <;> rfl

theorem offers (count : Nat) : other.offers count = node.offers count :=
  same.read_eq (fun node => node.offers count) fun node => by cases node <;> rfl

theorem afterGlue (kind : GlueKind) : other.afterGlue kind = node.afterGlue kind :=
  same.read_eq (fun node => node.afterGlue kind) fun node => by
    cases node <;> cases kind <;> rfl

theorem glueOffers (count : Nat) (kind : GlueKind) :
    other.glueOffers count kind = node.glueOffers count kind :=
  same.read_eq (fun node => node.glueOffers count kind) fun node => by
    cases node <;> cases kind <;> rfl

end SamePayload

end Node

/-- The nodes differ in handles and in what they are followed by only. -/
@[mk_iff]
structure TreeNode.SameAs (treeNode other : TreeNode) : Prop where
  range : other.range = treeNode.range
  flags : other.flags = treeNode.flags
  payload : treeNode.node.SamePayload other.node

instance (treeNode other : TreeNode) : Decidable (treeNode.SameAs other) :=
  decidable_of_iff _ (TreeNode.sameAs_iff _ _).symm

end PatternGraph
