/-
The flags in effect at some point of a pattern. A `FlagSet` is a 32-bit mask together with the
provenance of its bits: for each bit position, the character of the pattern that switched the bit
on, if one did. Provenance is kept for diagnostics and never influences what a set contains.

Three rules govern the operations. Switching on the Unicode character classes switches on Unicode
case too, but only the bits that were asked for receive a provenance. Joining two sets keeps the
newer provenance, that of the set being joined in. Removing a set forgets the provenance of every
bit that is off afterwards.
-/

import PatternGraph.Source
import PatternGraph.SyntaxFault

namespace PatternGraph

/-- A word of flags, one bit each. -/
abbrev FlagMask := BitVec 32

/-- The flags with a meaning. -/
inductive Flag
  | unixLines
  | caseInsensitive
  | comments
  | multiline
  | literal
  | dotAll
  | unicodeCase
  | canonicalEquivalence
  | unicodeCharacterClass
  deriving DecidableEq

namespace Flag

/-- The bit of a flag. -/
def mask : Flag → FlagMask
  | unixLines => 0x01#32
  | caseInsensitive => 0x02#32
  | comments => 0x04#32
  | multiline => 0x08#32
  | literal => 0x10#32
  | dotAll => 0x20#32
  | unicodeCase => 0x40#32
  | canonicalEquivalence => 0x80#32
  | unicodeCharacterClass => 0x100#32

/-- The flags that can be written inline, with their letters, in the order they are shown. -/
def letters : List (Char × Flag) :=
  [('d', unixLines), ('i', caseInsensitive), ('x', comments), ('m', multiline), ('s', dotAll),
    ('u', unicodeCase), ('U', unicodeCharacterClass)]

/-- The flag that a letter stands for. -/
def ofLetter? (letter : Char) : Option Flag := letters.lookup letter

end Flag

/-- A mask of active flags and the characters that switched them on, by bit position. -/
structure FlagSet where
  mask : FlagMask
  provenance : Vector (Option SourceCharacter) 32
  deriving DecidableEq

namespace FlagSet

def empty : FlagSet := ⟨0#32, Vector.replicate 32 none⟩

instance : Inhabited FlagSet := ⟨empty⟩

/-- Whether any of the given bits is on. -/
def contains (flags : FlagSet) (mask : FlagMask) : Bool := flags.mask &&& mask != 0#32

def isEmpty (flags : FlagSet) : Bool := flags.mask == 0#32

/-- The bits that are switched on along with the requested ones. -/
def withImplied (mask : FlagMask) : FlagMask :=
  if mask &&& Flag.unicodeCharacterClass.mask != 0#32 then mask ||| Flag.unicodeCase.mask
  else mask

/-- Switches on the given bits and what they imply. -/
def add (flags : FlagSet) (mask : FlagMask) : FlagSet :=
  { flags with mask := flags.mask ||| withImplied mask }

/-- Switches on the given bits and what they imply, and notes `character` as the one that switched
on each given bit. -/
def addFrom (flags : FlagSet) (mask : FlagMask) (character : SourceCharacter) : FlagSet where
  mask := flags.mask ||| withImplied mask
  provenance := Vector.ofFn fun position =>
    if mask.getLsb position then some character else flags.provenance[position]

/-- Switches on everything that is on in `other`; its provenance wins where it has one. -/
def addAll (flags other : FlagSet) : FlagSet where
  mask := flags.mask ||| other.mask
  provenance := Vector.ofFn fun position =>
    other.provenance[position].or flags.provenance[position]

/-- Switches off everything that is on in `other`, and forgets the provenance of every bit that is
off afterwards. -/
def removeAll (flags other : FlagSet) : FlagSet :=
  let mask := flags.mask &&& ~~~other.mask
  { mask
    provenance := Vector.ofFn fun position =>
      if mask.getLsb position then flags.provenance[position] else none }

/-- The set with the given bits on, passed in from outside the pattern. -/
def ofMask (mask : FlagMask) : FlagSet := empty.add mask

/-- The character that switched a bit on. There is none for a mask that is not a single bit and
none for a flag passed in from outside the pattern, so this does not tell what a set contains. -/
def characterFor? (flags : FlagSet) (mask : FlagMask) : Option SourceCharacter :=
  (List.finRange 32).findSome? fun (position : Fin 32) =>
    if mask = BitVec.twoPow 32 position then flags.provenance[position] else none

/-- The letters of the flags in the set that have one. -/
def letters (flags : FlagSet) : String :=
  String.ofList ((Flag.letters.filter fun entry => flags.contains entry.2.mask).map Prod.fst)

/-- The set written as a row of inline letters; the first letter without meaning is refused. -/
def ofLetters? (letters : String) : Except SyntaxFault FlagSet :=
  letters.toList.foldlM (fun flags letter =>
    match Flag.ofLetter? letter with
    | some flag => .ok (flags.add flag.mask)
    | none => .error (.unknownFlag letter)) empty

end FlagSet

end PatternGraph
