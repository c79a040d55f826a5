/-
This file takes flag sets apart into flags. A set holds a mask and the characters that switched its
bits on, and the operations update the two by different rules. Seen from outside, none of this
shows: a set is 32 cells, each off, on without a character, or on with one, and every operation acts
on each cell by itself.

A history records how a set came about. It is a tree, because the sets that are joined in or removed
were made by operations too. The cells of a history are computed without masks, and `Agrees` says
that they are what a set shows. Each operation keeps this; what carries the steps is that a cell
which is off has no character, so the characters that a set holds are those of bits that are on.
-/

import PatternGraph.Flags

namespace PatternGraph

/-! ### The bits of a mask -/

/-- The place of a flag in a mask. -/
def Flag.position : Flag → Fin 32
  | unixLines => 0
  | caseInsensitive => 1
  | comments => 2
  | multiline => 3
  | literal => 4
  | dotAll => 5
  | unicodeCase => 6
  | canonicalEquivalence => 7
  | unicodeCharacterClass => 8

theorem Flag.mask_eq_twoPow (flag : Flag) : flag.mask = BitVec.twoPow 32 flag.position := by
  cases flag <;> rfl

theorem getLsb_twoPow (first second : Fin 32) :
    (BitVec.twoPow 32 first).getLsb second = (second == first) := by
  rw [BitVec.getLsb_eq_getElem, Fin.getElem_fin, BitVec.getElem_twoPow, Bool.beq_eq_decide_eq]
  exact decide_eq_decide.mpr Fin.ext_iff.symm

theorem twoPow_inj {first second : Fin 32} :
    BitVec.twoPow 32 first = BitVec.twoPow 32 second ↔ first = second := by
  refine ⟨fun same => ?_, fun same => same ▸ rfl⟩
  have shared : (BitVec.twoPow 32 second).getLsb first = true := by
    rw [← same, getLsb_twoPow, beq_self_eq_true]
  rwa [getLsb_twoPow, beq_iff_eq] at shared

theorem and_twoPow_ne_zero (mask : FlagMask) (position : Fin 32) :
    (mask &&& BitVec.twoPow 32 position != 0#32) = mask.getLsb position := by
  have nonzero : BitVec.twoPow 32 position ≠ 0#32 := by
    intro zero
    have selected := getLsb_twoPow position position
    rw [zero, beq_self_eq_true] at selected
    simp at selected
  rw [BitVec.and_twoPow, BitVec.getLsb_eq_getElem, Fin.getElem_fin, ← BitVec.getLsbD_eq_getElem]
  cases mask.getLsbD position <;> simp [nonzero]

/-- Whether a mask asks for a flag, either by its own bit or, in the case of Unicode case, by that
of the Unicode character classes. -/
def asksFor (mask : FlagMask) (position : Fin 32) : Bool :=
  mask.getLsb position ||
    position == Flag.unicodeCase.position && mask.getLsb Flag.unicodeCharacterClass.position

namespace FlagSet

theorem contains_mask (flags : FlagSet) (flag : Flag) :
    flags.contains flag.mask = flags.mask.getLsb flag.position := by
  rw [contains, flag.mask_eq_twoPow, and_twoPow_ne_zero]

theorem getLsb_withImplied (mask : FlagMask) (position : Fin 32) :
    (withImplied mask).getLsb position = asksFor mask position := by
  unfold withImplied asksFor
  rw [Flag.mask_eq_twoPow, Flag.mask_eq_twoPow, and_twoPow_ne_zero]
  cases mask.getLsb Flag.unicodeCharacterClass.position with
  | true =>
    rw [if_pos rfl, Bool.and_true, ← getLsb_twoPow]
    simp
  | false => simp

theorem getLsb_mask_add (flags : FlagSet) (mask : FlagMask) (position : Fin 32) :
    (flags.add mask).mask.getLsb position =
      (flags.mask.getLsb position || asksFor mask position) := by
  rw [← getLsb_withImplied]
  simp [add]

theorem getLsb_mask_addAll (flags other : FlagSet) (position : Fin 32) :
    (flags.addAll other).mask.getLsb position =
      (flags.mask.getLsb position || other.mask.getLsb position) := by
  simp [addAll]

theorem getLsb_mask_removeAll (flags other : FlagSet) (position : Fin 32) :
    (flags.removeAll other).mask.getLsb position =
      (flags.mask.getLsb position && !other.mask.getLsb position) := by
  simp [removeAll]

/-! ### The character of a bit -/

/-- Of all positions only one has a given bit, so the search can answer nothing else. -/
theorem characterFor?_twoPow (flags : FlagSet) (position : Fin 32) :
    flags.characterFor? (BitVec.twoPow 32 position) = flags.provenance.get position := by
  unfold characterFor?
  simp only [twoPow_inj]
  cases found : (List.finRange 32).findSome? fun other : Fin 32 =>
      if position = other then flags.provenance[other] else none with
  | none =>
    have unheld := List.findSome?_eq_none_iff.mp found position (List.mem_finRange position)
    exact (if_pos rfl ▸ unheld).symm
  | some character =>
    obtain ⟨other, -, held⟩ := List.exists_of_findSome?_eq_some found
    split at held
    · rename_i same
      rw [same]
      exact held.symm
    · cases held

theorem exists_position_of_characterFor? {flags : FlagSet} {mask : FlagMask}
    {character : SourceCharacter} (found : flags.characterFor? mask = some character) :
    ∃ position : Fin 32, mask = BitVec.twoPow 32 position := by
  obtain ⟨position, -, held⟩ := List.exists_of_findSome?_eq_some found
  by_cases single : mask = BitVec.twoPow 32 position
  · exact ⟨position, single⟩
  · rw [if_neg single] at held
    cases held

end FlagSet

/-! ### Cells -/

/-- A flag of a set, with the character that switched it on if that is known. -/
inductive FlagCell
  | off
  | on (character : Option SourceCharacter)

namespace FlagCell

def isOn : FlagCell → Bool
  | off => false
  | on _ => true

def character? : FlagCell → Option SourceCharacter
  | off => none
  | on character => character

/-- Switched on by nobody in particular, which changes nothing about a flag that is on. -/
def switchedOn : FlagCell → FlagCell
  | off => on none
  | on character => on character

/-- Switched on if the other is on, and with its character if it has one. -/
def joinedBy (cell : FlagCell) : FlagCell → FlagCell
  | off => cell
  | on none => cell.switchedOn
  | on (some character) => on (some character)

/-- Switched off if the other is on, whatever its character. -/
def removedBy (cell : FlagCell) : FlagCell → FlagCell
  | off => cell
  | on _ => off

theorem character?_of_isOn_eq_false {cell : FlagCell} (isOff : cell.isOn = false) :
    cell.character? = none := by
  cases cell with
  | off => rfl
  | on character => cases isOff

theorem isOn_switchedOn (cell : FlagCell) : cell.switchedOn.isOn = true := by
  cases cell <;> rfl

theorem character?_switchedOn (cell : FlagCell) :
    cell.switchedOn.character? = cell.character? := by
  cases cell <;> rfl

@[simp]
theorem switchedOn_switchedOn (cell : FlagCell) :
    cell.switchedOn.switchedOn = cell.switchedOn := by
  cases cell <;> rfl

theorem isOn_joinedBy (cell other : FlagCell) :
    (cell.joinedBy other).isOn = (cell.isOn || other.isOn) := by
  rcases other with - | - | character
  · rw [isOn, Bool.or_false, joinedBy]
  · rw [joinedBy, isOn_switchedOn, isOn, Bool.or_true]
  · exact (Bool.or_true _).symm

theorem character?_joinedBy (cell other : FlagCell) :
    (cell.joinedBy other).character? = other.character?.or cell.character? := by
  rcases other with - | - | character
  · rfl
  · exact cell.character?_switchedOn
  · rfl

theorem isOn_removedBy (cell other : FlagCell) :
    (cell.removedBy other).isOn = (cell.isOn && !other.isOn) := by
  cases other with
  | off => exact (Bool.and_true _).symm
  | on character => exact (Bool.and_false _).symm

theorem character?_removedBy (cell other : FlagCell) :
    (cell.removedBy other).character? = if other.isOn then none else cell.character? := by
  cases other <;> rfl

end FlagCell

/-- The flags of a set, each by itself. -/
abbrev FlagCells := Fin 32 → FlagCell

namespace FlagCells

def allOff : FlagCells := fun _ => .off

def add (cells : FlagCells) (mask : FlagMask) : FlagCells := fun position =>
  if asksFor mask position then (cells position).switchedOn else cells position

/-- The requested bits receive the character, the implied one does not. -/
def addFrom (cells : FlagCells) (mask : FlagMask) (character : SourceCharacter) : FlagCells :=
  fun position =>
    if mask.getLsb position then .on (some character) else cells.add mask position

theorem add_of_asked (cells : FlagCells) {mask : FlagMask} {position : Fin 32}
    (asked : asksFor mask position = true) :
    cells.add mask position = (cells position).switchedOn := if_pos asked

theorem add_of_unasked (cells : FlagCells) {mask : FlagMask} {position : Fin 32}
    (unasked : asksFor mask position = false) : cells.add mask position = cells position :=
  if_neg (Bool.eq_false_iff.mp unasked)

theorem addFrom_of_requested (cells : FlagCells) {mask : FlagMask} {position : Fin 32}
    (character : SourceCharacter) (requested : mask.getLsb position = true) :
    cells.addFrom mask character position = .on (some character) := if_pos requested

theorem addFrom_of_unrequested (cells : FlagCells) {mask : FlagMask} {position : Fin 32}
    (character : SourceCharacter) (unrequested : mask.getLsb position = false) :
    cells.addFrom mask character position = cells.add mask position :=
  if_neg (Bool.eq_false_iff.mp unrequested)

def addAll (cells other : FlagCells) : FlagCells := fun position =>
  (cells position).joinedBy (other position)

def removeAll (cells other : FlagCells) : FlagCells := fun position =>
  (cells position).removedBy (other position)

/-- Every flag that some letter of a row asks for is switched on. -/
def addLetters (cells : FlagCells) (letters : List Char) : FlagCells := fun position =>
  if letters.any fun letter =>
    (Flag.ofLetter? letter).any fun flag => asksFor flag.mask position
  then (cells position).switchedOn else cells position

/-- The flags that a row of letters asks for, if all letters have a meaning. -/
def ofLetters? (letters : String) : Except SyntaxFault FlagCells :=
  match letters.toList.find? fun letter => (Flag.ofLetter? letter).isNone with
  | some unknown => .error (.unknownFlag unknown)
  | none => .ok (allOff.addLetters letters.toList)

theorem addLetters_cons (cells : FlagCells) {letter : Char} {flag : Flag}
    (known : Flag.ofLetter? letter = some flag) (rest : List Char) :
    cells.addLetters (letter :: rest) = (cells.add flag.mask).addLetters rest := by
  funext position
  unfold addLetters add
  rw [List.any_cons, known, Option.any_some]
  cases asksFor flag.mask position <;> simp

end FlagCells

/-! ### Histories -/

/-- How a flag set came about. A copy of a set has the history of the set, and the two go on
separately. -/
inductive FlagHistory
  | new
  | ofMask (mask : FlagMask)
  | ofLetters (letters : String)
  | add (before : FlagHistory) (mask : FlagMask)
  | addFrom (before : FlagHistory) (mask : FlagMask) (character : SourceCharacter)
  | addAll (before other : FlagHistory)
  | removeAll (before other : FlagHistory)

namespace FlagHistory

/-- The set that a history leads to. There is none if a letter without meaning was read. -/
def flags : FlagHistory → Except SyntaxFault FlagSet
  | new => .ok .empty
  | ofMask mask => .ok (.ofMask mask)
  | ofLetters letters => FlagSet.ofLetters? letters
  | add before mask => before.flags.map (·.add mask)
  | addFrom before mask character => before.flags.map (·.addFrom mask character)
  | addAll before other => before.flags.bind fun flags => other.flags.map flags.addAll
  | removeAll before other => before.flags.bind fun flags => other.flags.map flags.removeAll

/-- The cells that a history leads to. -/
def cells : FlagHistory → Except SyntaxFault FlagCells
  | new => .ok .allOff
  | ofMask mask => .ok (FlagCells.allOff.add mask)
  | ofLetters letters => FlagCells.ofLetters? letters
  | add before mask => before.cells.map (·.add mask)
  | addFrom before mask character => before.cells.map (·.addFrom mask character)
  | addAll before other => before.cells.bind fun cells => other.cells.map cells.addAll
  | removeAll before other => before.cells.bind fun cells => other.cells.map cells.removeAll

end FlagHistory

/-! ### What a set shows -/

/-- The cells are what a set shows of itself. -/
structure FlagSet.Agrees (flags : FlagSet) (cells : FlagCells) : Prop where
  mask (position : Fin 32) : flags.mask.getLsb position = (cells position).isOn
  character (position : Fin 32) :
    flags.characterFor? (BitVec.twoPow 32 position) = (cells position).character?

/-- A history leads to a set with its cells, or it meets the same fault on both sides. -/
inductive Mirrors : Except SyntaxFault FlagSet → Except SyntaxFault FlagCells → Prop
  | ok {flags : FlagSet} {cells : FlagCells} (agrees : flags.Agrees cells) :
    Mirrors (.ok flags) (.ok cells)
  | error (fault : SyntaxFault) : Mirrors (.error fault) (.error fault)

namespace Mirrors

variable {result : Except SyntaxFault FlagSet} {shown : Except SyntaxFault FlagCells}

theorem map (mirrors : Mirrors result shown) {onFlags : FlagSet → FlagSet}
    {onCells : FlagCells → FlagCells}
    (step : ∀ {flags cells}, flags.Agrees cells → (onFlags flags).Agrees (onCells cells)) :
    Mirrors (result.map onFlags) (shown.map onCells) := by
  cases mirrors with
  | ok agrees => exact .ok (step agrees)
  | error fault => exact .error fault

theorem bind (mirrors : Mirrors result shown) {onFlags : FlagSet → Except SyntaxFault FlagSet}
    {onCells : FlagCells → Except SyntaxFault FlagCells}
    (step : ∀ {flags cells}, flags.Agrees cells → Mirrors (onFlags flags) (onCells cells)) :
    Mirrors (result.bind onFlags) (shown.bind onCells) := by
  cases mirrors with
  | ok agrees => exact step agrees
  | error fault => exact .error fault

end Mirrors

namespace FlagSet

section

variable {flags others : FlagSet} {cells otherCells : FlagCells}

theorem agrees_iff : flags.Agrees cells ↔ ∀ position : Fin 32,
    flags.mask.getLsb position = (cells position).isOn ∧
      flags.provenance.get position = (cells position).character? := by
  constructor
  · exact fun agrees position => ⟨agrees.mask position,
      (flags.characterFor?_twoPow position).symm.trans (agrees.character position)⟩
  · exact fun each => ⟨fun position => (each position).1,
      fun position => (flags.characterFor?_twoPow position).trans (each position).2⟩

theorem agrees_empty : empty.Agrees .allOff :=
  agrees_iff.mpr fun position => ⟨by simp [empty, FlagCells.allOff, FlagCell.isOn],
    Vector.getElem_replicate position.isLt⟩

/-- The characters stay what they are: a bit that was off has none, and neither has its cell. -/
theorem Agrees.add (agrees : flags.Agrees cells) (mask : FlagMask) :
    (flags.add mask).Agrees (cells.add mask) := by
  refine agrees_iff.mpr fun position => ?_
  obtain ⟨bit, character⟩ := agrees_iff.mp agrees position
  rw [getLsb_mask_add, bit]
  cases asked : asksFor mask position with
  | false =>
    rw [cells.add_of_unasked asked, Bool.or_false]
    exact ⟨rfl, character⟩
  | true =>
    rw [cells.add_of_asked asked, FlagCell.isOn_switchedOn, FlagCell.character?_switchedOn]
    exact ⟨Bool.or_true _, character⟩

theorem Agrees.addFrom (agrees : flags.Agrees cells) (mask : FlagMask)
    (character : SourceCharacter) :
    (flags.addFrom mask character).Agrees (cells.addFrom mask character) := by
  refine agrees_iff.mpr fun position => ?_
  obtain ⟨bit, kept⟩ := agrees_iff.mp (agrees.add mask) position
  have noted : (flags.addFrom mask character).provenance.get position =
      if mask.getLsb position then some character else flags.provenance.get position :=
    Vector.getElem_ofFn position.isLt
  rw [noted]
  cases requested : mask.getLsb position with
  | false =>
    rw [cells.addFrom_of_unrequested character requested]
    exact ⟨bit, kept⟩
  | true =>
    have asked : asksFor mask position = true := by rw [asksFor, requested, Bool.true_or]
    rw [cells.addFrom_of_requested character requested]
    rw [cells.add_of_asked asked, FlagCell.isOn_switchedOn] at bit
    exact ⟨bit, rfl⟩

theorem Agrees.addAll (agrees : flags.Agrees cells) (agreesToo : others.Agrees otherCells) :
    (flags.addAll others).Agrees (cells.addAll otherCells) := by
  refine agrees_iff.mpr fun position => ?_
  obtain ⟨bit, character⟩ := agrees_iff.mp agrees position
  obtain ⟨otherBit, otherCharacter⟩ := agrees_iff.mp agreesToo position
  have noted : (flags.addAll others).provenance.get position =
      (others.provenance.get position).or (flags.provenance.get position) :=
    Vector.getElem_ofFn position.isLt
  rw [getLsb_mask_addAll, noted, bit, character, otherBit, otherCharacter, FlagCells.addAll,
    FlagCell.isOn_joinedBy, FlagCell.character?_joinedBy]
  exact ⟨rfl, rfl⟩

/-- The set forgets the characters of all bits that are off afterwards. None of them had one except
those that are removed. -/
theorem Agrees.removeAll (agrees : flags.Agrees cells) (agreesToo : others.Agrees otherCells) :
    (flags.removeAll others).Agrees (cells.removeAll otherCells) := by
  refine agrees_iff.mpr fun position => ?_
  obtain ⟨bit, character⟩ := agrees_iff.mp agrees position
  obtain ⟨otherBit, -⟩ := agrees_iff.mp agreesToo position
  have kept : (flags.removeAll others).provenance.get position =
      if (flags.removeAll others).mask.getLsb position then flags.provenance.get position
      else none := Vector.getElem_ofFn position.isLt
  rw [kept, getLsb_mask_removeAll, bit, otherBit, character, FlagCells.removeAll,
    FlagCell.isOn_removedBy, FlagCell.character?_removedBy]
  refine ⟨rfl, ?_⟩
  cases removed : (otherCells position).isOn with
  | true => simp
  | false =>
    cases isOn : (cells position).isOn with
    | true => simp
    | false => simp [FlagCell.character?_of_isOn_eq_false isOn]

end

/-- The letters are added one by one, up to the first that has no meaning. -/
theorem mirrors_ofLetters (letters : String) :
    Mirrors (ofLetters? letters) (FlagCells.ofLetters? letters) := by
  have agrees := agrees_empty
  unfold ofLetters? FlagCells.ofLetters?
  generalize empty = flags at agrees ⊢
  generalize FlagCells.allOff = cells at agrees ⊢
  generalize letters.toList = row
  induction row generalizing flags cells with
  | nil => exact .ok agrees
  | cons letter rest inductionHypothesis =>
    rw [List.foldlM_cons]
    cases known : Flag.ofLetter? letter with
    | none =>
      rw [List.find?_cons_of_pos (by rw [known]; rfl)]
      exact .error _
    | some flag =>
      rw [List.find?_cons_of_neg (by simp [known]), cells.addLetters_cons known]
      exact inductionHypothesis _ _ (agrees.add flag.mask)

end FlagSet

namespace FlagHistory

/-- The induction is on the history, with one step for each operation. -/
theorem mirrors (history : FlagHistory) : Mirrors history.flags history.cells := by
  induction history with
  | new => exact .ok FlagSet.agrees_empty
  | ofMask mask => exact .ok (FlagSet.agrees_empty.add mask)
  | ofLetters letters => exact FlagSet.mirrors_ofLetters letters
  | add before mask kept => exact kept.map fun agrees => agrees.add mask
  | addFrom before mask character kept =>
    exact kept.map fun agrees => agrees.addFrom mask character
  | addAll before other kept keptToo =>
    exact kept.bind fun agrees => keptToo.map fun agreesToo => agrees.addAll agreesToo
  | removeAll before other kept keptToo =>
    exact kept.bind fun agrees => keptToo.map fun agreesToo => agrees.removeAll agreesToo

end FlagHistory

/-- A flag set is what its cells are, however it came about: it has the bits that are on and their
characters and no others, and a history that meets an unknown letter meets it on both sides. A
character is answered for nothing but a single bit of the mask. -/
theorem flags_mirror_cells (history : FlagHistory) :
    Mirrors history.flags history.cells ∧
      ∀ (flags : FlagSet) (mask : FlagMask) (character : SourceCharacter),
        history.flags = .ok flags → flags.characterFor? mask = some character →
        ∃ position : Fin 32, mask = BitVec.twoPow 32 position ∧
          flags.mask.getLsb position = true := by
  refine ⟨history.mirrors, fun flags mask character made found => ?_⟩
  obtain ⟨position, rfl⟩ := FlagSet.exists_position_of_characterFor? found
  refine ⟨position, rfl, ?_⟩
  have mirrors := history.mirrors
  rw [made] at mirrors
  generalize history.cells = shown at mirrors
  cases mirrors with
  | @ok _ cells agrees =>
    rw [agrees.character] at found
    rw [agrees.mask]
    cases isOn : (cells position).isOn with
    | true => rfl
    | false =>
      rw [FlagCell.character?_of_isOn_eq_false isOn] at found
      cases found

end PatternGraph
