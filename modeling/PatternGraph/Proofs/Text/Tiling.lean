/-
This file proves that the characters of a pattern tile it. Reading goes on where the last character
ended, so it never needs to know how long characters are; what it needs is that the ending of a
range is where the next character begins. Endings are kept in 32 bits, and in a pattern of fewer
than `2 ^ 31` bytes none of them is cut down.

From an offset behind a front of the pattern there is then one way to read on, and it gives the
characters behind the front with the ranges that follow each other from there, the `tiles`. That
texts may be joined wherever ranges meet needs no bound. A group is an instance: its header ends
where its element begins, so the two texts stand at the beginning of that of the group.
-/

import Mathlib.Logic.ExistsUnique
import PatternGraph.Proofs.Text.Cuts
import PatternGraph.Proofs.Text.Headers

namespace PatternGraph

/-! ### Reading on from an offset -/

/-- The characters of a text with the ranges that they have if the first begins at an offset. -/
def tiles (offset : Nat) : List Char → List SourceCharacter
  | [] => []
  | character :: rest =>
    ⟨⟨offset, offset + character.utf8Size⟩, character, false⟩ ::
      tiles (offset + character.utf8Size) rest

namespace Source

/-- The characters that are read from an offset on, each where the one before it ends, up to the
end of the pattern. -/
inductive Reads (source : Source) : Nat → List SourceCharacter → Prop
  | done : Reads source source.byteLength []
  | next {offset : Nat} {first : SourceCharacter} {rest : List SourceCharacter}
    (read : source.sourceCharacter offset = .ok first)
    (goesOn : Reads source (TextRange.wordOfOffset first.range.ending) rest) :
    Reads source offset (first :: rest)

/-- The source characters are those of the pattern in order, each with a range of which it is the
text. The ranges begin where the pattern begins, follow each other and end where it ends. -/
structure TiledBy (source : Source) (found : List SourceCharacter) : Prop where
  characters : found.map SourceCharacter.character = source.text.toList
  text : ∀ tile ∈ found, source.textAt tile.range = tile.character.toString
  begins : ∀ first ∈ found.head?, first.range.beginning = 0
  joined : found.IsChain fun first second => first.range.ending = second.range.beginning
  ends : ∀ last ∈ found.getLast?, last.range.ending = source.byteLength

variable {source : Source}

/-- Where a character is read the pattern does not end, so there is one way to read on. -/
theorem Reads.unique {offset : Nat} {found other : List SourceCharacter}
    (reads : source.Reads offset found) (readsToo : source.Reads offset other) :
    found = other := by
  induction reads generalizing other with
  | done =>
    cases readsToo with
    | done => rfl
    | next read goesOn =>
      rw [sourceCharacter_end] at read
      cases read
  | next read goesOn inductionHypothesis =>
    cases readsToo with
    | done =>
      rw [sourceCharacter_end] at read
      cases read
    | next readToo goesOnToo =>
      cases read.symm.trans readToo
      rw [inductionHypothesis goesOnToo]

/-- Behind a front of the pattern its tiles are read. The induction is on what is left. -/
theorem reads_tiles (small : source.byteLength < 2 ^ 31) (front : List Char) {back : List Char}
    (parts : front ++ back = source.text.toList) :
    source.Reads (Text.byteLength front) (tiles (Text.byteLength front) back) := by
  induction back generalizing front with
  | nil =>
    have whole : Text.byteLength front = source.byteLength := by
      rw [byteLength, ← parts, List.append_nil]
    rw [whole]
    exact .done
  | cons character rest inductionHypothesis =>
    have partsAfter : front ++ [character] ++ rest = source.text.toList := by
      rw [← List.append_cons, parts]
    have fits : Text.byteLength front + character.utf8Size < 2 ^ 31 := by
      rw [byteLength, ← partsAfter, Text.byteLength_append, Text.byteLength_concat] at small
      omega
    have goesOn := inductionHypothesis _ partsAfter
    rw [Text.byteLength_concat] at goesOn
    refine .next (sourceCharacter_eq parts fits) ?_
    rw [← Int.natCast_add, TextRange.wordOfOffset_natCast fits]
    exact goesOn

/-! ### Tiles -/

theorem map_character_tiles (offset : Nat) (characters : List Char) :
    (tiles offset characters).map SourceCharacter.character = characters := by
  induction characters generalizing offset with
  | nil => rfl
  | cons character rest inductionHypothesis =>
    rw [tiles, List.map_cons, inductionHypothesis]

theorem textAt_of_mem_tiles (front : List Char) {back : List Char}
    (parts : front ++ back = source.text.toList) {tile : SourceCharacter}
    (member : tile ∈ tiles (Text.byteLength front) back) :
    source.textAt tile.range = tile.character.toString := by
  induction back generalizing front with
  | nil => cases member
  | cons character rest inductionHypothesis =>
    have partsAfter : front ++ [character] ++ rest = source.text.toList := by
      rw [← List.append_cons, parts]
    rcases List.mem_cons.mp member with rfl | further
    · have text := textAt_part partsAfter
      rw [Text.byteLength_concat, Int.natCast_add] at text
      rw [text, Char.toString, String.singleton_eq_ofList]
    · rw [← Text.byteLength_concat] at further
      exact inductionHypothesis _ partsAfter further

theorem beginning_of_mem_head?_tiles {offset : Nat} {characters : List Char}
    {first : SourceCharacter} (member : first ∈ (tiles offset characters).head?) :
    first.range.beginning = offset := by
  cases characters with
  | nil => cases member
  | cons character rest =>
    cases member
    rfl

theorem isChain_tiles (offset : Nat) (characters : List Char) :
    (tiles offset characters).IsChain fun first second =>
      first.range.ending = second.range.beginning := by
  induction characters generalizing offset with
  | nil => exact .nil
  | cons character rest inductionHypothesis =>
    rw [tiles, List.isChain_cons]
    refine ⟨fun second member => ?_, inductionHypothesis _⟩
    rw [beginning_of_mem_head?_tiles member, Int.natCast_add]

theorem ending_of_mem_getLast?_tiles {offset : Nat} {characters : List Char}
    {last : SourceCharacter} (member : last ∈ (tiles offset characters).getLast?) :
    last.range.ending = offset + Text.byteLength characters := by
  induction characters generalizing offset with
  | nil => cases member
  | cons character rest inductionHypothesis =>
    cases rest with
    | nil =>
      cases member
      simp [tiles, Text.byteLength]
    | cons second others =>
      have length : Text.byteLength (character :: second :: others) =
          character.utf8Size + Text.byteLength (second :: others) := rfl
      rw [tiles, tiles, List.getLast?_cons_cons] at member
      rw [inductionHypothesis member, length]
      omega

theorem tiledBy_tiles (source : Source) : source.TiledBy (tiles 0 source.text.toList) where
  characters := map_character_tiles 0 _
  text _ member := textAt_of_mem_tiles [] rfl member
  begins _ member := beginning_of_mem_head?_tiles member
  joined := isChain_tiles 0 _
  ends last member := by rw [ending_of_mem_getLast?_tiles member, byteLength]; omega

/-! ### Groups -/

/-- Both offsets of a range fall on boundaries. -/
def Admits (source : Source) (range : TextRange) : Prop :=
  source.IsBoundary range.beginning ∧ source.IsBoundary range.ending

instance (source : Source) (range : TextRange) : Decidable (source.Admits range) :=
  inferInstanceAs (Decidable (_ ∧ _))

/-- A range that begins and ends within another splits the text of the other into what is before
it, its own text and a rest. Written the wrong way round it has no text. -/
theorem exists_rest {outer inner : TextRange} (admitsOuter : source.Admits outer)
    (admitsInner : source.Admits inner) (covers : outer.covers inner = true)
    (begins : inner.beginning ≤ outer.ending) :
    ∃ rest, source.textAt (outer.endingAt inner.beginning) ++ source.textAt inner ++ rest =
      source.textAt outer := by
  obtain ⟨outerBeginning, outerEnding⟩ := outer
  obtain ⟨innerBeginning, innerEnding⟩ := inner
  obtain ⟨isBeginning, isEnding⟩ := admitsOuter
  obtain ⟨isInnerBeginning, isInnerEnding⟩ := admitsInner
  simp only [TextRange.covers, Bool.and_eq_true, decide_eq_true_eq] at covers
  dsimp only [TextRange.endingAt]
  rcases Int.le_total innerBeginning innerEnding with ordered | reversed
  · refine ⟨source.textAt ⟨innerEnding, outerEnding⟩, ?_⟩
    rw [textAt_append isBeginning isInnerBeginning isInnerEnding covers.1 ordered,
      textAt_append isBeginning isInnerEnding isEnding (Int.le_trans covers.1 ordered) covers.2]
  · refine ⟨source.textAt ⟨innerBeginning, outerEnding⟩, ?_⟩
    rw [textAt_of_le isInnerBeginning.1 isInnerEnding.1 reversed, String.append_empty,
      textAt_append isBeginning isInnerBeginning isEnding covers.1 begins]

end Source

/-- Byte offsets tile a pattern. Read from the beginning, each character where the one before it
ends, a pattern of fewer than `2 ^ 31` bytes gives its characters and nothing else; the texts of
ranges that meet at a boundary make up the text of both; and whatever was done since a group was
built, its header and its element stand at the beginning of its text, provided that the element
begins and ends within the group. -/
theorem offsets_tile_pattern (source : Source) :
    (source.byteLength < 2 ^ 31 → (∃! found, source.Reads 0 found) ∧
      ∀ found, source.Reads 0 found → source.TiledBy found) ∧
    (∀ first second third, source.IsBoundary first → source.IsBoundary second →
      source.IsBoundary third → first ≤ second → second ≤ third →
      source.textAt ⟨first, second⟩ ++ source.textAt ⟨second, third⟩ =
        source.textAt ⟨first, third⟩) ∧
    ∀ (operations : List Operation) (id : StateId) (group : TreeNode) (body : GroupBody),
      let automaton := (Automaton.ofSource source).afterAll operations
      automaton.tree? id = some group → group.node.body? = some body →
      ∃ element, automaton.tree? body.element = some element ∧
        (source.Admits group.range → source.Admits element.range →
          group.range.covers element.range → element.range.beginning ≤ group.range.ending →
          ∃ rest, source.textAt body.header.range ++ automaton.text body.element ++ rest =
            automaton.text id) := by
  refine ⟨fun small => ?tiling, fun first second third isFirst isSecond isThird before after =>
    Source.textAt_append isFirst isSecond isThird before after, ?groups⟩
  case tiling =>
    have reads : source.Reads 0 (tiles 0 source.text.toList) :=
      Source.reads_tiles small [] rfl
    refine ⟨⟨_, reads, fun other readsToo => readsToo.unique reads⟩, fun found readsToo => ?_⟩
    exact readsToo.unique reads ▸ source.tiledBy_tiles
  case groups =>
    intro operations id group body automaton isGroup isBody
    have headed := (Automaton.headed_ofSource source).afterAll operations
    obtain ⟨elementRange, elementBody, found, header⟩ :=
      headed id group.range body (Automaton.site?_eq_some_iff.mpr ⟨group, isGroup, rfl, isBody⟩)
    obtain ⟨element, isElement, rfl, -⟩ := Automaton.site?_eq_some_iff.mp found
    have sameSource : automaton.source = source :=
      ((Automaton.ofSource source).keeps_afterAll operations).source
    refine ⟨element, isElement, fun admitsGroup admitsElement covers begins => ?_⟩
    rw [header, Automaton.text, isElement, Automaton.text, isGroup, sameSource]
    exact Source.exists_rest admitsGroup admitsElement covers begins

/-- The operations that build `(é𝒳)+`. -/
def wideGroupOperations : List Operation :=
  [.build (.ok ⟨⟨1, 3⟩, .empty, .leaf (.character ⟨0xE9, false⟩)⟩),
    .build (.ok ⟨⟨3, 7⟩, .empty, .leaf (.character ⟨0x1D4B3, false⟩)⟩),
    .build (.ok ⟨⟨1, 7⟩, .empty, .sequence [⟨0⟩, ⟨1⟩]⟩),
    .build (.ok ⟨⟨0, 8⟩, .empty, .capturingGroup none 1 ⟨2⟩⟩),
    .build (.ok ⟨⟨0, 9⟩, .empty, .repetition ⟨3⟩ ⟨⟨8, 9⟩, .greedy, .sign .plus⟩⟩),
    .finish ⟨5⟩ .empty]

/-- In `(é𝒳)+` the second character of the group takes four bytes and the first one two. -/
theorem wideGroup_offsets_tile_pattern :
    let source : Source := ⟨"(é𝒳)+", .java, []⟩
    let automaton := (Automaton.ofSource source).afterAll wideGroupOperations
    source.byteLength < 2 ^ 31 ∧ (∃ found, source.Reads 0 found ∧ source.TiledBy found) ∧
      (source.IsBoundary 1 ∧ source.IsBoundary 3 ∧ source.IsBoundary 20) ∧
      source.textAt ⟨1, 3⟩ ++ source.textAt ⟨3, 20⟩ = source.textAt ⟨1, 20⟩ ∧
      source.Admits ⟨0, 8⟩ ∧ source.Admits ⟨1, 7⟩ ∧
      ∃ header rest, source.textAt header ++ automaton.text ⟨2⟩ ++ rest = automaton.text ⟨3⟩ := by
  intro source automaton
  have small : source.byteLength < 2 ^ 31 := by decide +kernel
  have isBoundary : source.IsBoundary 1 ∧ source.IsBoundary 3 ∧ source.IsBoundary 20 := by
    decide +kernel
  have admits : source.Admits ⟨0, 8⟩ ∧ source.Admits ⟨1, 7⟩ := by decide +kernel
  have built : ((automaton.tree? ⟨3⟩).map fun group =>
      (group.range, group.node.body?.map GroupBody.element)) = some (⟨0, 8⟩, some ⟨2⟩) ∧
      (automaton.tree? ⟨2⟩).map TreeNode.range = some ⟨1, 7⟩ := by decide +kernel
  obtain ⟨tiling, joining, groups⟩ := offsets_tile_pattern source
  obtain ⟨⟨found, reads, -⟩, tiled⟩ := tiling small
  obtain ⟨group, isGroup, facts⟩ := Option.map_eq_some_iff.mp built.1
  obtain ⟨groupRange, names⟩ := Prod.mk.inj facts
  obtain ⟨body, isBody, isElement⟩ := Option.map_eq_some_iff.mp names
  obtain ⟨element, foundElement, split⟩ := groups wideGroupOperations ⟨3⟩ group body isGroup isBody
  obtain ⟨content, isContent, elementRange⟩ := Option.map_eq_some_iff.mp built.2
  rw [isElement] at foundElement split
  cases isContent.symm.trans foundElement
  rw [groupRange, elementRange] at split
  refine ⟨small, ⟨found, reads, tiled found reads⟩, isBoundary,
    joining 1 3 20 isBoundary.1 isBoundary.2.1 isBoundary.2.2 (by decide) (by decide),
    admits.1, admits.2, body.header.range, ?_⟩
  exact split admits.1 admits.2 (by decide) (by decide)

end PatternGraph
