/-
This file says which lines an outline is printed in. One line is meant for each node, indented by
its depth. The type that the line begins with is a word, but the text of the node and its attributes
are copied from the pattern as they are. A line feed among them ends the line early, so a node has a
block of lines, one more than there are line feeds in what it shows, and only the first of them
carries the indentation and the type.

The blocks follow each other in the order of the nodes. As many lines as nodes are therefore printed
exactly if no node shows a line feed, and then each line is that of its node.
-/

import PatternGraph.Proofs.Reading.Agreement

namespace PatternGraph

/-! ### Lines of a text -/

/-- The text consists of the lines: none holds a line feed, and each is ended by one. -/
structure IsLines (lines : List (List Char)) (text : List Char) : Prop where
  unbroken : ∀ line ∈ lines, '\n' ∉ line
  text : lines.flatMap (· ++ ['\n']) = text

namespace IsLines

variable {lines others : List (List Char)} {text further : List Char}

theorem nil : IsLines [] [] := ⟨List.forall_mem_nil _, rfl⟩

theorem append (isLines : IsLines lines text) (isLinesToo : IsLines others further) :
    IsLines (lines ++ others) (text ++ further) where
  unbroken := List.forall_mem_append.mpr ⟨isLines.unbroken, isLinesToo.unbroken⟩
  text := by rw [List.flatMap_append, isLines.text, isLinesToo.text]

theorem singleton {line : List Char} (unbroken : '\n' ∉ line) :
    IsLines [line] (line ++ ['\n']) where
  unbroken := List.forall_mem_singleton.mpr unbroken
  text := List.flatMap_singleton _ _

/-- A text has one line for each line feed. -/
theorem length_eq (isLines : IsLines lines text) : lines.length = text.count '\n' := by
  obtain ⟨unbroken, rfl⟩ := isLines
  induction lines with
  | nil => rfl
  | cons line rest inductionHypothesis =>
    obtain ⟨first, others⟩ := List.forall_mem_cons.mp unbroken
    rw [List.flatMap_cons, List.count_append, List.count_append,
      List.count_eq_zero_of_not_mem first, ← inductionHypothesis others, List.length_cons,
      List.count_singleton_self]
    omega

end IsLines

/-- A text that begins without a line feed and ends with one has one line more than there are line
feeds in between. The first of them begins as the text does. -/
theorem exists_isLines (body : List Char) {front : List Char} (unbroken : '\n' ∉ front) :
    ∃ first rest, IsLines (first :: rest) (front ++ body ++ ['\n']) ∧ front <+: first ∧
      rest.length = body.count '\n' := by
  induction body generalizing front with
  | nil =>
    rw [List.append_nil]
    exact ⟨front, [], .singleton unbroken, List.prefix_rfl, rfl⟩
  | cons character body inductionHypothesis =>
    by_cases breaks : character = '\n'
    · subst breaks
      obtain ⟨first, rest, isLines, -, length⟩ :=
        inductionHypothesis (List.not_mem_nil : '\n' ∉ ([] : List Char))
      refine ⟨front, first :: rest, ?_, List.prefix_rfl, ?_⟩
      · have parts := (IsLines.singleton unbroken).append isLines
        simpa using parts
      · rw [List.length_cons, length, List.count_cons_self]
    · have stillUnbroken : '\n' ∉ front ++ [character] := by
        simp [unbroken, Ne.symm breaks]
      obtain ⟨first, rest, isLines, begins, length⟩ := inductionHypothesis stillUnbroken
      refine ⟨first, rest, ?_, (List.prefix_append _ _).trans begins, ?_⟩
      · simpa using isLines
      · rw [length, List.count_cons_of_ne breaks]

/-! ### The nodes of an outline -/

namespace Outline

mutual

/-- The nodes of an outline whose root stands at a depth, each with its depth and before its
children. -/
def nodesAt (depth : Nat) : Outline → List (Nat × Outline)
  | ⟨typeName, label, attributes, children⟩ =>
    (depth, ⟨typeName, label, attributes, children⟩) :: nodesAllAt (depth + 1) children

/-- The nodes of a row of outlines at the same depth. -/
def nodesAllAt (depth : Nat) : List Outline → List (Nat × Outline)
  | [] => []
  | outline :: rest => nodesAt depth outline ++ nodesAllAt depth rest

end

/-- The nodes of an outline with their depths, each before its children. -/
def nodes (outline : Outline) : List (Nat × Outline) := nodesAt 0 outline

/-- The characters of the text and the attributes of a node. -/
def shown (outline : Outline) : List Char :=
  outline.label.toList ++ outline.attributes.flatMap fun pair => pair.1.toList ++ pair.2.toList

mutual

/-- The nodes are printed one after the other. -/
theorem toList_renderAt (depth : Nat) : (outline : Outline) → (outline.renderAt depth).toList =
    (outline.nodesAt depth).flatMap fun entry => (renderLine entry.1 entry.2).toList
  | ⟨typeName, label, attributes, children⟩ => by
    rw [renderAt, nodesAt, List.flatMap_cons, String.toList_append,
      toList_renderAllAt (depth + 1) children]

theorem toList_renderAllAt (depth : Nat) : (outlines : List Outline) →
    (renderAllAt depth outlines).toList =
      (nodesAllAt depth outlines).flatMap fun entry => (renderLine entry.1 entry.2).toList
  | [] => by rw [renderAllAt, nodesAllAt, List.flatMap_nil, String.toList_empty]
  | outline :: rest => by
    rw [renderAllAt, nodesAllAt, List.flatMap_append, String.toList_append,
      toList_renderAt depth outline, toList_renderAllAt depth rest]

end

mutual

theorem map_title_nodesAt (depth : Nat) : (outline : Outline) →
    (outline.nodesAt depth).map (fun entry => (entry.2.typeName, entry.2.label)) = outline.titles
  | ⟨typeName, label, attributes, children⟩ => by
    rw [nodesAt, List.map_cons, map_title_nodesAllAt (depth + 1) children, titles]

theorem map_title_nodesAllAt (depth : Nat) : (outlines : List Outline) →
    (nodesAllAt depth outlines).map (fun entry => (entry.2.typeName, entry.2.label)) =
      titlesAll outlines
  | [] => by rw [nodesAllAt, List.map_nil, titlesAll]
  | outline :: rest => by
    rw [nodesAllAt, List.map_append, map_title_nodesAt depth outline,
      map_title_nodesAllAt depth rest, titlesAll]

end

end Outline

/-! ### The block of a node -/

theorem count_intercalate {separator : List Char} {character : Char}
    (absent : character ∉ separator) (rows : List (List Char)) :
    (separator.intercalate rows).count character = rows.flatten.count character := by
  unfold List.intercalate
  induction rows with
  | nil => rfl
  | cons row rest inductionHypothesis =>
    cases rest with
    | nil => rfl
    | cons second others =>
      rw [List.intersperse_cons_cons, List.flatten_cons, List.flatten_cons, List.flatten_cons,
        List.count_append, List.count_append, List.count_append, inductionHypothesis,
        List.count_eq_zero_of_not_mem absent, Nat.zero_add]

/-- The brackets, commas and signs around attributes are no line feeds. -/
theorem count_renderAttributes (attributes : List (String × String)) :
    (renderAttributes attributes).toList.count '\n' =
      (attributes.flatMap fun pair => pair.1.toList ++ pair.2.toList).count '\n' := by
  have unbroken : '\n' ∉ " [".toList ∧ '\n' ∉ ", ".toList ∧ '\n' ∉ "=".toList ∧
      '\n' ∉ "]".toList := by decide
  obtain ⟨opening, separator, equals, closing⟩ := unbroken
  cases attributes with
  | nil => rfl
  | cons first rest =>
    rw [renderAttributes, List.isEmpty_cons, if_neg Bool.false_ne_true, String.toList_append,
      String.toList_append, List.count_append, List.count_append, String.toList_intercalate,
      count_intercalate separator, List.count_eq_zero_of_not_mem opening,
      List.count_eq_zero_of_not_mem closing, Nat.zero_add, Nat.add_zero, List.map_map,
      ← List.flatMap_def, List.count_flatMap, List.count_flatMap]
    refine congrArg List.sum (List.map_congr_left fun pair _ => ?_)
    simp only [Function.comp_apply, String.toList_append, List.count_append,
      List.count_eq_zero_of_not_mem equals, Nat.add_zero]

/-- A word of letters. -/
def IsWord (name : String) : Prop := name.toList ≠ [] ∧ name.toList.all Char.isAlpha = true

instance (name : String) : Decidable (IsWord name) := inferInstanceAs (Decidable (_ ∧ _))

namespace Outline

/-- The line begins with two blanks for each level and the type of the node. -/
structure Heads (entry : Nat × Outline) (line : List Char) : Prop where
  indented : line.takeWhile (· == ' ') = List.replicate (2 * entry.1) ' '
  named : entry.2.typeName.toList <+: line.dropWhile (· == ' ')

/-- The lines are what is printed of the node, one more than there are line feeds in what it shows,
and the first of them is its head. -/
structure IsBlock (entry : Nat × Outline) (block : List (List Char)) : Prop where
  lines : IsLines block (renderLine entry.1 entry.2).toList
  length : block.length = entry.2.shown.count '\n' + 1
  heads : ∀ first ∈ block.head?, Heads entry first

/-- The line is all that is printed of the node. -/
structure IsLineOf (entry : Nat × Outline) (line : List Char) : Prop extends Heads entry line where
  printed : line ++ ['\n'] = (renderLine entry.1 entry.2).toList

theorem toList_indentation (depth : Nat) :
    (indentation depth).toList = List.replicate (2 * depth) ' ' := String.toList_ofList

/-- A word is told apart from the blanks before it. -/
theorem heads_of_isWord {entry : Nat × Outline} (isWord : IsWord entry.2.typeName)
    (tail : List Char) :
    Heads entry ((indentation entry.1).toList ++ entry.2.typeName.toList ++ tail) := by
  obtain ⟨letter, others, word⟩ := List.exists_cons_of_ne_nil isWord.1
  have notBlank : (letter == ' ') = false := by
    rw [beq_eq_false_iff_ne]
    rintro rfl
    exact absurd (List.all_eq_true.mp isWord.2 ' ' (word ▸ List.mem_cons_self)) (by decide)
  have blanks : ∀ character ∈ List.replicate (2 * entry.1) ' ', (character == ' ') = true :=
    fun character member => beq_iff_eq.mpr (List.eq_of_mem_replicate member)
  rw [toList_indentation, List.append_assoc, word, List.cons_append]
  constructor
  · rw [List.takeWhile_append_of_pos blanks, List.takeWhile_cons, notBlank]
    exact List.append_nil _
  · rw [List.dropWhile_append_of_pos blanks, List.dropWhile_cons, notBlank, word]
    exact List.prefix_append (letter :: others) tail

/-- What is printed of a node falls into a part without line feeds, with the indentation and the
type, and a part that shows its text and its attributes. -/
theorem exists_isBlock (entry : Nat × Outline) (isWord : IsWord entry.2.typeName) :
    ∃ block, IsBlock entry block := by
  obtain ⟨depth, outline⟩ := entry
  have quotes : '\n' ∉ " `".toList ∧ '\n' ∉ "`".toList := by decide
  have frontUnbroken : '\n' ∉ (indentation depth).toList ++ outline.typeName.toList := by
    rw [toList_indentation, List.mem_append, List.mem_replicate]
    rintro (⟨-, breaks⟩ | member)
    · exact absurd breaks (by decide)
    · exact absurd (List.all_eq_true.mp isWord.2 _ member) (by decide)
  let body := " `".toList ++ outline.label.toList ++ "`".toList ++
    (renderAttributes outline.attributes).toList
  have bodyCount : body.count '\n' = outline.shown.count '\n' := by
    simp only [body, List.count_append, List.count_eq_zero_of_not_mem quotes.1,
      List.count_eq_zero_of_not_mem quotes.2, count_renderAttributes, shown]
    omega
  have printed : (renderLine depth outline).toList =
      (indentation depth).toList ++ outline.typeName.toList ++ body ++ ['\n'] := by
    simp [renderLine, body]
  obtain ⟨first, rest, isLines, ⟨tail, rfl⟩, length⟩ := exists_isLines body frontUnbroken
  rw [← printed] at isLines
  refine ⟨_, isLines, ?_, fun first isFirst => ?_⟩
  · rw [List.length_cons, length, bodyCount]
  · cases isFirst
    exact heads_of_isWord isWord tail

/-! ### The lines of an outline -/

/-- The blocks of the nodes make up the lines of the outline. -/
theorem exists_blocks {entries : List (Nat × Outline)}
    (words : ∀ entry ∈ entries, IsWord entry.2.typeName) :
    ∃ blocks, IsLines blocks.flatten
        (entries.flatMap fun entry => (renderLine entry.1 entry.2).toList) ∧
      List.Forall₂ IsBlock entries blocks := by
  induction entries with
  | nil => exact ⟨[], .nil, .nil⟩
  | cons entry rest inductionHypothesis =>
    obtain ⟨isWord, others⟩ := List.forall_mem_cons.mp words
    obtain ⟨block, isBlock⟩ := exists_isBlock entry isWord
    obtain ⟨blocks, areLines, areBlocks⟩ := inductionHypothesis others
    exact ⟨block :: blocks, isBlock.lines.append areLines, .cons isBlock areBlocks⟩

/-- There is a line for each node and one for each line feed that a node shows. -/
theorem length_flatten_blocks {entries : List (Nat × Outline)} {blocks : List (List (List Char))}
    (areBlocks : List.Forall₂ IsBlock entries blocks) :
    blocks.flatten.length =
      entries.length + (entries.flatMap fun entry => entry.2.shown).count '\n' := by
  induction areBlocks with
  | nil => rfl
  | cons isBlock areBlocks inductionHypothesis =>
    rw [List.flatten_cons, List.length_append, inductionHypothesis, isBlock.length,
      List.length_cons, List.flatMap_cons, List.count_append]
    omega

/-- Without line feeds each line is that of its node. -/
theorem isLineOf_flatten_blocks {entries : List (Nat × Outline)} {blocks : List (List (List Char))}
    (areBlocks : List.Forall₂ IsBlock entries blocks)
    (unbroken : ∀ entry ∈ entries, '\n' ∉ entry.2.shown) :
    List.Forall₂ IsLineOf entries blocks.flatten := by
  induction areBlocks with
  | nil => exact .nil
  | cons isBlock areBlocks inductionHypothesis =>
    obtain ⟨isUnbroken, others⟩ := List.forall_mem_cons.mp unbroken
    have single := isBlock.length
    rw [List.count_eq_zero_of_not_mem isUnbroken, Nat.zero_add] at single
    obtain ⟨line, rfl⟩ := List.length_eq_one_iff.mp single
    have printed := isBlock.lines.text
    rw [List.flatMap_singleton] at printed
    exact .cons ⟨isBlock.heads line rfl, printed⟩ (inductionHypothesis others)

end Outline

/-! ### Types of nodes -/

theorem Node.isWord_typeName (node : Node) : IsWord node.typeName := by
  cases node with
  | leaf content => cases content <;> (simp only [typeName, Leaf.typeName]; decide)
  | _ => simp only [typeName]; decide

theorem ClassElement.isWord_outlineName (element : ClassElement) :
    IsWord element.outlineName := by
  cases element with
  | item site content => cases content <;> (simp only [outlineName]; decide)
  | _ => simp only [outlineName]; decide

theorem Place.isWord_title (source : Source) (place : Place) : IsWord (place.title source).1 := by
  cases place with
  | node id content => exact content.node.isWord_typeName
  | element owner part => exact part.isWord_outlineName

theorem SyntaxTree.isWord_typeName (source : Source) (tree : SyntaxTree) :
    ∀ entry ∈ (tree.outline source).nodes, IsWord entry.2.typeName := by
  intro entry member
  have titled : (entry.2.typeName, entry.2.label) ∈ (tree.outline source).titles := by
    rw [← Outline.map_title_nodesAt 0]
    exact List.mem_map_of_mem member
  rw [tree.titles_outline, List.mem_map] at titled
  obtain ⟨place, -, same⟩ := titled
  have isWord := place.isWord_title source
  rw [same] at isWord
  exact isWord

/-! ### Printed patterns -/

/-- The outline of a node without children. -/
theorem Automaton.outline_of_childless {automaton : Automaton} {id : StateId} {content : TreeNode}
    (found : automaton.tree? id = some content) (childless : content.node.children = []) :
    automaton.outline id = .ok ⟨content.node.typeName, automaton.source.textAt content.range,
      attributesOf content.node.outlineAttributes,
      content.node.innerOutlines automaton.source⟩ := by
  have full : automaton.fullTree id = .ok (.node id content []) := by
    rw [fullTree, subtree]
    split
    · rename_i fault missing
      cases (tree_eq_ok_iff.mpr found).symm.trans missing
    · rename_i other same
      cases (tree_eq_ok_iff.mpr found).symm.trans same
      rw [dif_neg (by simp), allChildren, childless]
      simp only [subtrees]
      rfl
  rw [outline, outlinedTree_eq, full]
  exact congrArg (fun inner => Except.ok (Outline.mk _ _ _ inner)) (List.append_nil _)

/-- A finished pattern has an outline, and it is printed in blocks of lines, one for each node in
preorder. A block has one line more than there are line feeds in the text and the attributes of its
node, and begins with two blanks for each level and the type of the node. So there are as many lines
as nodes exactly if no node shows a line feed, and each line is then that of its node. -/
theorem outline_printed_in_blocks {pattern : Pattern} (finished : pattern.Finished) :
    ∃ outline, pattern.outline = .ok outline ∧
      ∃ blocks, IsLines blocks.flatten outline.render.toList ∧
        List.Forall₂ Outline.IsBlock outline.nodes blocks ∧
        (blocks.flatten.length = outline.nodes.length ↔
          ∀ entry ∈ outline.nodes, '\n' ∉ entry.2.shown) ∧
        ((∀ entry ∈ outline.nodes, '\n' ∉ entry.2.shown) →
          List.Forall₂ Outline.IsLineOf outline.nodes blocks.flatten) := by
  obtain ⟨tree, full, -, -⟩ := finished.sound.isTree.shows .refl
  have outlined : pattern.outline = .ok (tree.outline pattern.automaton.source) := by
    rw [Pattern.outline, Automaton.outline, Automaton.outlinedTree_eq, full]
    rfl
  obtain ⟨blocks, areLines, areBlocks⟩ :=
    Outline.exists_blocks (tree.isWord_typeName pattern.automaton.source)
  rw [Outline.nodes, ← Outline.toList_renderAt] at areLines
  refine ⟨_, outlined, blocks, areLines, areBlocks, ?_, Outline.isLineOf_flatten_blocks areBlocks⟩
  rw [Outline.length_flatten_blocks areBlocks, Nat.add_eq_left, List.count_eq_zero,
    List.mem_flatMap]
  constructor
  · exact fun absent entry member shows => absent ⟨entry, member, shows⟩
  · rintro unbroken ⟨entry, member, shows⟩
    exact unbroken entry member shows

theorem loop_outline_printed_in_blocks :
    ∃ pattern outline, ∃ blocks : List (List (List Char)), loopPattern? = some pattern ∧
      pattern.Finished ∧ pattern.outline = .ok outline ∧
      IsLines blocks.flatten outline.render.toList ∧
      List.Forall₂ Outline.IsBlock outline.nodes blocks := by
  obtain ⟨pattern, built⟩ := exists_loopPattern
  have finished := finished_of_finishedPattern? built
  obtain ⟨outline, outlined, blocks, areLines, areBlocks, -⟩ := outline_printed_in_blocks finished
  exact ⟨pattern, outline, blocks, built, finished, outlined, areLines, areBlocks⟩

/-- The pattern of a single line feed. -/
def lineFeedPattern? : Option Pattern :=
  finishedPattern? ⟨"\n", .java, []⟩
    [.construct ⟨⟨0, 1⟩, .empty, .leaf (.character ⟨10, false⟩)⟩] ⟨0⟩ .empty

/-- The pattern of a single line feed has one node, and it is printed in two lines. -/
theorem lineFeed_printed_in_two_lines :
    ∃ pattern outline, lineFeedPattern? = some pattern ∧ pattern.Finished ∧
      pattern.outline = .ok outline ∧ outline.nodes.length = 1 ∧
      outline.render = "Character `\n`\n" ∧
      ¬ ∃ lines, IsLines lines outline.render.toList ∧ lines.length = outline.nodes.length := by
  have computed : (lineFeedPattern?.bind fun pattern =>
      (pattern.automaton.tree? pattern.root).map fun content =>
        ((content.node.typeName, pattern.automaton.source.textAt content.range,
          attributesOf content.node.outlineAttributes), content.node.children,
          (content.node.innerOutlines pattern.automaton.source).isEmpty)) =
      some (("Character", "\n", []), [], true) := by decide +kernel
  obtain ⟨pattern, built, facts⟩ := Option.bind_eq_some_iff.mp computed
  obtain ⟨content, found, facts⟩ := Option.map_eq_some_iff.mp facts
  simp only [Prod.mk.injEq, List.isEmpty_iff] at facts
  obtain ⟨⟨typeName, label, attributes⟩, childless, elementless⟩ := facts
  have outlined : pattern.outline = .ok ⟨"Character", "\n", [], []⟩ := by
    rw [Pattern.outline, Automaton.outline_of_childless found childless, typeName, label,
      attributes, elementless]
  have printed : (⟨"Character", "\n", [], []⟩ : Outline).render = "Character `\n`\n" := by
    decide +kernel
  refine ⟨pattern, _, built, finished_of_finishedPattern? built, outlined, rfl, printed, ?_⟩
  rintro ⟨lines, areLines, count⟩
  rw [areLines.length_eq, printed] at count
  exact absurd count (by decide)

end PatternGraph
