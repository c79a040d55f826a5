/-
This file builds constructions from byte offsets. Writing down the range of every node by hand soon
disagrees with the pattern the ranges describe, so a fixture reads characters, quantifiers and bars
off the pattern itself: what stands at an offset becomes part of the construction, with the flags
that the fixture was last given.

A fixture only prepares constructions and leaves it to the automaton to build them. Where the
pattern does not hold what is looked for, the complaint quotes the offset and the pattern.
-/

import PatternGraph.Construction
import PatternGraph.Pattern

namespace PatternGraph

/-- Why a fixture cannot prepare a construction. -/
inductive FixtureFault
  /-- No character begins at an offset. -/
  | noCharacter (offset : Nat) (pattern : String)
  /-- No quantifier sign stands at an offset. -/
  | noQuantifier (offset : Nat) (pattern : String)
  /-- A node that the construction depends on is missing. -/
  | graph (fault : Fault)
  deriving DecidableEq

def FixtureFault.message : FixtureFault → String
  | noCharacter offset pattern =>
    "no character at offset " ++ toString offset ++ " of `" ++ pattern ++ "`"
  | noQuantifier offset pattern =>
    "no quantifier at offset " ++ toString offset ++ " of `" ++ pattern ++ "`"
  | graph fault => fault.message

namespace Source

/-- The character that begins at a byte offset. -/
def sourceCharacter (source : Source) (offset : Nat) : Except FixtureFault SourceCharacter :=
  match Text.characterAt? offset source.text.toList with
  | some character =>
    .ok ⟨TextRange.ofSpan offset (offset + character.utf8Size), character, false⟩
  | none => .error (.noCharacter offset source.text)

/-- The modifier written at a byte offset and its length in bytes. -/
def modifierAt (source : Source) (offset : Nat) : Modifier × Nat :=
  match Text.characterAt? offset source.text.toList with
  | some '?' => (.reluctant, 1)
  | some '+' => (.possessive, 1)
  | _ => (.greedy, 0)

/-- The quantifier sign at a byte offset, with the modifier that follows it. -/
def quantifierAt (source : Source) (offset : Nat) : Except FixtureFault Quantifier :=
  match (Text.characterAt? offset source.text.toList).bind QuantifierSign.ofCharacter? with
  | some sign =>
    let (modifier, length) := source.modifierAt (offset + 1)
    .ok ⟨TextRange.ofSpan offset (offset + 1 + length), modifier, .sign sign⟩
  | none => .error (.noQuantifier offset source.text)

end Source

/-- A span of machine offsets. -/
structure OffsetSpan where
  start : Nat
  stop : Nat

def OffsetSpan.range (span : OffsetSpan) : TextRange := TextRange.ofSpan span.start span.stop

namespace Fixture

/-- A plain character read off the pattern. -/
def character (source : Source) (flags : FlagSet) (offset : Nat) :
    Except FixtureFault Construction :=
  (source.sourceCharacter offset).map fun found =>
    ⟨found.range, flags, .leaf (.character ⟨found.character.toNat, false⟩)⟩

/-- A character written as an escape sequence. -/
def escapedCharacter (flags : FlagSet) (span : OffsetSpan) (character : Char) : Construction :=
  ⟨span.range, flags, .leaf (.character ⟨character.toNat, true⟩)⟩

/-- A dot, which is one byte long. -/
def dot (flags : FlagSet) (offset : Nat) : Construction :=
  ⟨TextRange.ofSpan offset (offset + 1), flags, .leaf .dot⟩

/-- The bars of a disjunction: each is the character right after an alternative. -/
def bars (automaton : Automaton) : List StateId → Except FixtureFault (List SourceCharacter)
  | previous :: next :: rest =>
    match automaton.tree previous with
    | .error fault => .error (.graph fault)
    | .ok content =>
      match automaton.source.sourceCharacter (TextRange.wordOfOffset content.range.ending) with
      | .error fault => .error fault
      | .ok bar => (bars automaton (next :: rest)).map (bar :: ·)
  | _ => .ok []

/-- A disjunction whose bars are found between its alternatives. -/
def disjunction (automaton : Automaton) (flags : FlagSet) (span : OffsetSpan)
    (alternatives : List StateId) : Except FixtureFault Construction :=
  (bars automaton alternatives).map fun found =>
    ⟨span.range, flags, .disjunction alternatives found⟩

/-- A numerical back-reference: an opener and the digits after it. -/
def numberedBackReference (source : Source) (flags : FlagSet) (span : OffsetSpan) :
    Except FixtureFault Construction := do
  let opener ← source.sourceCharacter span.start
  let start ← source.sourceCharacter (span.start + 1)
  let stop ← source.sourceCharacter (TextRange.wordOfOffset (span.stop - 1))
  return Construction.backReference source opener none start stop flags

/-- An element repeated by the quantifier sign that follows it in the pattern. -/
def repeated (automaton : Automaton) (flags : FlagSet) (element : StateId) :
    Except FixtureFault Construction :=
  match automaton.tree element with
  | .error fault => .error (.graph fault)
  | .ok content =>
    (automaton.source.quantifierAt (TextRange.wordOfOffset content.range.ending)).map
      fun quantifier =>
        ⟨content.range.through quantifier.range, flags, .repetition element quantifier⟩

end Fixture

end PatternGraph
