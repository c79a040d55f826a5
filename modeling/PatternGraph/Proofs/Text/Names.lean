/-
This file proves that names come out of a pattern as they were written. A back-reference to a named
group and a class with a property share one form: a backslash, a letter and a name between two
delimiters. Both are built from the four characters around the name, and the name is what is cut out
of the pattern between them, beginning one byte behind the opening delimiter.

One byte is right because every opening delimiter takes one. The name itself, and the text before
it, may take any number of bytes: the offsets that it is cut out at are the byte lengths of what is
before it and of that with the name, and whatever the name holds, even the closing delimiter, the
part of the pattern between the two is the name.
-/

import PatternGraph.Proofs.Numbering
import PatternGraph.Proofs.Text.Cuts

namespace PatternGraph

/-- The characters that open the name of a group, each with one that closes it. -/
def nameDelimiters : List (Char × Char) := [('<', '>'), ('\'', '\''), ('\x7b', '\x7d'), ('=', ')')]

/-- A backslash and a letter with a name between delimiters. -/
def enclosedName (letter opening closing : Char) (name : String) : String :=
  "\\" ++ letter.toString ++ opening.toString ++ name ++ closing.toString

@[simp]
theorem toList_enclosedName (letter opening closing : Char) (name : String) :
    (enclosedName letter opening closing name).toList =
      '\\' :: letter :: opening :: (name.toList ++ [closing]) := by
  simp [enclosedName]

/-- The characters around a name. -/
structure NameFrame where
  backslash : SourceCharacter
  letter : SourceCharacter
  opening : SourceCharacter
  closing : SourceCharacter

/-- The characters around a name of `length` bytes, read where they stand if a backslash at `offset`
is the first of them. -/
def Source.nameFrame (source : Source) (offset length : Nat) : Except FixtureFault NameFrame := do
  let backslash ← source.sourceCharacter offset
  let letter ← source.sourceCharacter (offset + 1)
  let opening ← source.sourceCharacter (offset + 2)
  let closing ← source.sourceCharacter (offset + 3 + length)
  return ⟨backslash, letter, opening, closing⟩

/-- A character of one byte at an offset. -/
def SourceCharacter.single (offset : Nat) (character : Char) : SourceCharacter :=
  ⟨⟨offset, offset + 1⟩, character, false⟩

/-- The characters around a name of `length` bytes if each of them takes one byte. -/
def NameFrame.single (offset length : Nat) (letter opening closing : Char) : NameFrame where
  backslash := .single offset '\\'
  letter := .single (offset + 1) letter
  opening := .single (offset + 2) opening
  closing := .single (offset + 3 + length) closing

/-! ### Reading around a name -/

namespace Source

variable {source : Source} {front name back : List Char} {letter opening closing : Char}

/-- A character of one byte is read at the length of what stands before it. -/
theorem sourceCharacter_single {before : List Char} {character : Char} {offset : Nat}
    (parts : before ++ character :: back = source.text.toList)
    (length : Text.byteLength before = offset) (narrow : character.utf8Size = 1)
    (fits : offset + 1 < 2 ^ 31) :
    source.sourceCharacter offset = .ok (.single offset character) := by
  have read := sourceCharacter_eq parts (by omega)
  rw [length, narrow] at read
  exact read

section

variable (parts : front ++ '\\' :: letter :: opening :: (name ++ closing :: back) =
  source.text.toList)
  (letterNarrow : letter.utf8Size = 1) (openingNarrow : opening.utf8Size = 1)

include letterNarrow openingNarrow

theorem byteLength_throughName (front name : List Char) :
    Text.byteLength (front ++ '\\' :: letter :: opening :: name) =
      Text.byteLength front + 3 + Text.byteLength name := by
  have backslashNarrow : ('\\' : Char).utf8Size = 1 := by decide
  simp only [Text.byteLength_append, Text.byteLength, backslashNarrow, letterNarrow, openingNarrow]
  omega

include parts

/-- The four characters are read where the lengths of the name and of what is before it put them. -/
theorem nameFrame_eq (closingNarrow : closing.utf8Size = 1)
    (fits : Text.byteLength front + Text.byteLength name + 4 < 2 ^ 31) :
    source.nameFrame (Text.byteLength front) (Text.byteLength name) =
      .ok (.single (Text.byteLength front) (Text.byteLength name) letter opening closing) := by
  have partsLetter : front ++ ['\\'] ++ letter :: opening :: (name ++ closing :: back) =
      source.text.toList := by simp [← parts]
  have partsOpening : front ++ ['\\'] ++ [letter] ++ opening :: (name ++ closing :: back) =
      source.text.toList := by simp [← parts]
  have partsClosing : front ++ '\\' :: letter :: opening :: name ++ closing :: back =
      source.text.toList := by simp [← parts]
  have backslashNarrow : ('\\' : Char).utf8Size = 1 := by decide
  have lengthLetter : Text.byteLength (front ++ ['\\']) = Text.byteLength front + 1 := by
    rw [Text.byteLength_concat, backslashNarrow]
  have lengthOpening : Text.byteLength (front ++ ['\\'] ++ [letter]) =
      Text.byteLength front + 2 := by
    rw [Text.byteLength_concat, lengthLetter, letterNarrow]
  have lengthClosing := byteLength_throughName letterNarrow openingNarrow front name
  unfold nameFrame
  rw [sourceCharacter_single parts rfl backslashNarrow (by omega),
    sourceCharacter_single partsLetter lengthLetter letterNarrow (by omega),
    sourceCharacter_single partsOpening lengthOpening openingNarrow (by omega),
    sourceCharacter_single partsClosing lengthClosing closingNarrow (by omega)]
  rfl

/-- What is cut out between the delimiters is the name. -/
theorem textAt_name :
    let frame := NameFrame.single (Text.byteLength front) (Text.byteLength name) letter opening
      closing
    source.textAt ⟨frame.opening.range.beginning + 1, frame.closing.range.beginning⟩ =
      String.ofList name := by
  have partsName : front ++ ['\\', letter, opening] ++ name ++ closing :: back =
      source.text.toList := by simp [← parts]
  have text := textAt_part partsName
  rw [Text.byteLength_append _ name, byteLength_throughName letterNarrow openingNarrow] at text
  exact text

/-- What is cut out from the backslash through the closing delimiter is what was written. -/
theorem textAt_enclosedName (closingNarrow : closing.utf8Size = 1) :
    let frame := NameFrame.single (Text.byteLength front) (Text.byteLength name) letter opening
      closing
    source.textAt (frame.backslash.range.through frame.closing.range) =
      enclosedName letter opening closing (String.ofList name) := by
  have partsEnclosed : front ++ '\\' :: letter :: opening :: (name ++ [closing]) ++ back =
      source.text.toList := by simp [← parts]
  have text := textAt_part partsEnclosed
  rw [byteLength_throughName letterNarrow openingNarrow, Text.byteLength_concat, closingNarrow]
    at text
  have same : String.ofList ('\\' :: letter :: opening :: (name ++ [closing])) =
      enclosedName letter opening closing (String.ofList name) := by
    rw [← String.toList_inj, toList_enclosedName, String.toList_ofList, String.toList_ofList]
  rw [same] at text
  exact text

end

/-- The four characters around a name that is enclosed somewhere in the pattern are read at their
offsets. Between them stands the name, and from the first through the last all that was written. -/
theorem exists_nameFrame {before name after : String}
    (narrow : letter.utf8Size = 1 ∧ opening.utf8Size = 1 ∧ closing.utf8Size = 1)
    (fits : Text.byteLength before.toList + Text.byteLength name.toList + 4 < 2 ^ 31)
    (written : source.text = before ++ enclosedName letter opening closing name ++ after) :
    ∃ frame, source.nameFrame (Text.byteLength before.toList) (Text.byteLength name.toList) =
        .ok frame ∧
      frame.letter.character = letter ∧ frame.opening.character = opening ∧
      source.textAt ⟨frame.opening.range.beginning + 1, frame.closing.range.beginning⟩ = name ∧
      source.textAt (frame.backslash.range.through frame.closing.range) =
        enclosedName letter opening closing name := by
  obtain ⟨letterNarrow, openingNarrow, closingNarrow⟩ := narrow
  have parts : before.toList ++ '\\' :: letter :: opening ::
      (name.toList ++ closing :: after.toList) = source.text.toList := by
    simp [written]
  have text := textAt_name parts letterNarrow openingNarrow
  have whole := textAt_enclosedName parts letterNarrow openingNarrow closingNarrow
  rw [String.ofList_toList] at text whole
  exact ⟨_, nameFrame_eq parts letterNarrow openingNarrow closingNarrow fits, rfl, rfl, text, whole⟩

end Source

/-! ### Names after the trip -/

namespace Automaton

/-- A leaf is added as it was asked for. -/
theorem tree?_construct_leaf (automaton : Automaton) {construction : Construction} {leaf : Leaf}
    (form : construction.form = .leaf leaf) :
    (automaton.construct construction).automaton.tree? automaton.nextId =
      some ⟨construction.range, construction.flags, .leaf leaf, none⟩ := by
  rw [construct, form]
  exact tree?_eq_some_iff.mpr (state?_push_nextId automaton _)

theorem text_construct_leaf (automaton : Automaton) {construction : Construction} {leaf : Leaf}
    (form : construction.form = .leaf leaf) :
    (automaton.construct construction).automaton.text automaton.nextId =
      automaton.source.textAt construction.range := by
  rw [text, automaton.tree?_construct_leaf form, construct, form]
  rfl

end Automaton

theorem EscapedClass.withProperty?_eq {marker : Char} (takes : takesProperty marker = true)
    (property : String) (range : TextRange) :
    withProperty? marker property range =
      .ok ⟨marker, some property, by rw [takes, Option.isSome_some]⟩ := dif_pos takes

/-- Names survive the trip through the pattern. A back-reference is built from the characters read
around its name, at whatever byte offset it is written and whatever is written before, within and
behind it: the node has exactly the name, and its text is exactly what was written. The same holds
of the property of a class, which is also rendered as it was written. Offsets have 32 bits, so what
is written through the closing delimiter has fewer than `2 ^ 31` bytes. -/
theorem names_survive_pattern (automaton : Automaton) (before name after : String)
    (flags : FlagSet) :
    let source := automaton.source
    let frame := source.nameFrame (Text.byteLength before.toList) (Text.byteLength name.toList)
    Text.byteLength before.toList + Text.byteLength name.toList + 4 < 2 ^ 31 →
    (∀ opening closing, (opening, closing) ∈ nameDelimiters →
      source.text = before ++ enclosedName 'k' opening closing name ++ after →
      ∃ around, frame = .ok around ∧
        let built := automaton.construct (.backReference source around.backslash
          (some around.letter) around.opening around.closing flags)
        built.answer = .ok automaton.nextId ∧
        built.automaton.reference? automaton.nextId = some ⟨name, some around.letter, none⟩ ∧
        built.automaton.text automaton.nextId = enclosedName 'k' opening closing name) ∧
    ∀ marker, marker ∈ ['p', 'P'] →
      source.text = before ++ enclosedName marker '\x7b' '\x7d' name ++ after →
      ∃ around construction, frame = .ok around ∧
        Construction.propertyClass? source around.backslash around.letter around.opening
          around.closing flags = .ok construction ∧
        let built := automaton.construct construction
        built.answer = .ok automaton.nextId ∧
        (∃ content escaped, built.automaton.tree? automaton.nextId = some content ∧
          content.node = .leaf (.escapedClass escaped) ∧ escaped.property = some name ∧
          escaped.render = enclosedName marker '\x7b' '\x7d' name) ∧
        built.automaton.text automaton.nextId = enclosedName marker '\x7b' '\x7d' name := by
  intro source frame fits
  refine ⟨fun opening closing isPair written => ?named, fun marker isMarker written => ?classed⟩
  case named =>
    have pairs : ∀ pair ∈ nameDelimiters, BackReference.opensName pair.1 = true ∧
        pair.1.utf8Size = 1 ∧ pair.2.utf8Size = 1 := by decide
    obtain ⟨opens, openingNarrow, closingNarrow⟩ := pairs _ isPair
    obtain ⟨around, read, -, isOpening, text, whole⟩ :=
      Source.exists_nameFrame ⟨by decide, openingNarrow, closingNarrow⟩ fits written
    refine ⟨around, read, rfl, ?_, ?_⟩
    · rw [Automaton.reference?_construct, BackReference.read, isOpening, opens, if_pos rfl, text]
    · rw [automaton.text_construct_leaf rfl]
      exact whole
  case classed =>
    have markers : ∀ marker ∈ ['p', 'P'], takesProperty marker = true ∧ marker.utf8Size = 1 := by
      rw [List.forall_mem_cons, List.forall_mem_singleton]
      decide
    obtain ⟨takes, markerNarrow⟩ := markers marker isMarker
    obtain ⟨around, read, isLetter, -, text, whole⟩ :=
      Source.exists_nameFrame ⟨markerNarrow, by decide, by decide⟩ fits written
    let escaped : EscapedClass := ⟨marker, some name, by rw [takes, Option.isSome_some]⟩
    let construction : Construction :=
      ⟨around.backslash.range.through around.closing.range, flags, .leaf (.escapedClass escaped)⟩
    have isClass : Construction.propertyClass? source around.backslash around.letter around.opening
        around.closing flags = .ok construction := by
      rw [Construction.propertyClass?, EscapedClass.ofBraces?, text, isLetter,
        EscapedClass.withProperty?_eq takes]
      rfl
    refine ⟨around, construction, read, isClass, rfl, ?_, ?_⟩
    · exact ⟨_, escaped, automaton.tree?_construct_leaf rfl, rfl, rfl, rfl⟩
    · rw [automaton.text_construct_leaf rfl]
      exact whole

/-- In `é\k<𝒳>>` the name may hold the delimiter that ends it, and in `é\P{𝒳>}` the property takes
five bytes. -/
theorem wideNames_survive_pattern :
    let reference := Automaton.ofSource ⟨"é\\k<𝒳>>", .java, []⟩
    let classed := Automaton.ofSource ⟨"é\\P\x7b𝒳>\x7d", .java, []⟩
    Text.byteLength "é".toList + Text.byteLength "𝒳>".toList + 4 < 2 ^ 31 ∧
      ('<', '>') ∈ nameDelimiters ∧
      reference.source.text = "é" ++ enclosedName 'k' '<' '>' "𝒳>" ++ "" ∧
      classed.source.text = "é" ++ enclosedName 'P' '\x7b' '\x7d' "𝒳>" ++ "" ∧
      (∃ around, reference.source.nameFrame 2 5 = .ok around ∧
        (reference.construct (.backReference reference.source around.backslash (some around.letter)
          around.opening around.closing .empty)).automaton.reference? ⟨0⟩ =
            some ⟨"𝒳>", some around.letter, none⟩) ∧
      ∃ around construction, classed.source.nameFrame 2 5 = .ok around ∧
        Construction.propertyClass? classed.source around.backslash around.letter around.opening
          around.closing .empty = .ok construction ∧
        (classed.construct construction).automaton.text ⟨0⟩ = "\\P\x7b𝒳>\x7d" := by
  intro reference classed
  have fits : Text.byteLength "é".toList + Text.byteLength "𝒳>".toList + 4 < 2 ^ 31 := by
    decide +kernel
  have isPair : ('<', '>') ∈ nameDelimiters := by decide
  have referenceWritten : reference.source.text =
      "é" ++ enclosedName 'k' '<' '>' "𝒳>" ++ "" := by decide +kernel
  have classWritten : classed.source.text =
      "é" ++ enclosedName 'P' '\x7b' '\x7d' "𝒳>" ++ "" := by decide +kernel
  have lengths : Text.byteLength "é".toList = 2 ∧ Text.byteLength "𝒳>".toList = 5 := by
    decide +kernel
  have ofReference := names_survive_pattern reference "é" "𝒳>" "" .empty fits
  have ofClass := names_survive_pattern classed "é" "𝒳>" "" .empty fits
  rw [lengths.1, lengths.2] at ofReference ofClass
  obtain ⟨around, read, -, named, -⟩ := ofReference.1 '<' '>' isPair referenceWritten
  obtain ⟨enclosing, construction, readToo, isClass, -, -, text⟩ :=
    ofClass.2 'P' (by decide) classWritten
  exact ⟨fits, isPair, referenceWritten, classWritten, ⟨around, read, named⟩, enclosing,
    construction, readToo, isClass, text⟩

end PatternGraph
