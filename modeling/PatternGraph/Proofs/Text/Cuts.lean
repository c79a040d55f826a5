/-
This file says what byte offsets cut out of a text. Offsets count bytes, a character takes one to
four of them, and a cut within a character gives nothing. The offsets at which a cut is possible are
the byte lengths of the fronts of the text. A front is determined by its byte length, so between two
such offsets lies a definite part of the text, and cutting at them is taking lists apart.

An offset past the end counts as the end. `IsBoundary` says of an offset that it counts as one at
which a cut is possible, and everything below is stated for such offsets.
-/

import Mathlib.Algebra.Group.Nat.Defs
import PatternGraph.Fixture

namespace PatternGraph

namespace Text

/-! ### Byte lengths -/

@[simp]
theorem byteLength_append (front back : List Char) :
    byteLength (front ++ back) = byteLength front + byteLength back := by
  induction front with
  | nil => simp [byteLength]
  | cons character rest inductionHypothesis =>
    rw [List.cons_append, byteLength, inductionHypothesis, byteLength, Nat.add_assoc]

theorem byteLength_concat (front : List Char) (last : Char) :
    byteLength (front ++ [last]) = byteLength front + last.utf8Size :=
  byteLength_append front [last]

theorem eq_nil_of_byteLength_eq_zero {characters : List Char}
    (empty : byteLength characters = 0) : characters = [] := by
  cases characters with
  | nil => rfl
  | cons character rest =>
    rw [byteLength] at empty
    have positive := character.utf8Size_pos
    omega

/-- Of two fronts of a text the one with fewer bytes is a front of the other. -/
theorem prefix_of_byteLength_le {characters front other : List Char}
    (isFront : front <+: characters) (isOther : other <+: characters)
    (shorter : byteLength front ≤ byteLength other) : front <+: other := by
  rcases List.prefix_or_prefix_of_prefix isFront isOther with within | ⟨extra, rfl⟩
  · exact within
  · rw [byteLength_append] at shorter
    obtain rfl : extra = [] := eq_nil_of_byteLength_eq_zero (by omega)
    simp

/-- A front of a text is determined by its byte length. -/
theorem eq_of_prefix_of_byteLength_eq {characters front other : List Char}
    (isFront : front <+: characters) (isOther : other <+: characters)
    (same : byteLength front = byteLength other) : front = other :=
  (prefix_of_byteLength_le isFront isOther (Nat.le_of_eq same)).eq_of_length_le
    (prefix_of_byteLength_le isOther isFront (Nat.le_of_eq same.symm)).length_le

/-! ### Cuts -/

theorem dropBytes_zero (characters : List Char) : dropBytes 0 characters = some characters := by
  cases characters <;> simp [dropBytes]

theorem takeBytes_zero (characters : List Char) : takeBytes 0 characters = some [] := by
  cases characters <;> simp [takeBytes]

theorem dropBytes_append (front back : List Char) :
    dropBytes (byteLength front) (front ++ back) = some back := by
  induction front with
  | nil => exact dropBytes_zero back
  | cons character rest inductionHypothesis =>
    have positive := character.utf8Size_pos
    rw [List.cons_append, byteLength, dropBytes, if_neg (by omega), if_neg (by omega),
      Nat.add_sub_cancel_left, inductionHypothesis]

theorem takeBytes_append (front back : List Char) :
    takeBytes (byteLength front) (front ++ back) = some front := by
  induction front with
  | nil => exact takeBytes_zero back
  | cons character rest inductionHypothesis =>
    have positive := character.utf8Size_pos
    rw [List.cons_append, byteLength, takeBytes, if_neg (by omega), if_neg (by omega),
      Nat.add_sub_cancel_left, inductionHypothesis, Option.map_some]

/-- What is taken is a front of the text that has as many bytes as were asked for. -/
theorem takeBytes_eq_some_iff {count : Nat} {characters front : List Char} :
    takeBytes count characters = some front ↔
      front <+: characters ∧ byteLength front = count := by
  constructor
  · intro taken
    induction characters generalizing count front with
    | nil =>
      rw [takeBytes, Option.ite_none_right_eq_some] at taken
      obtain ⟨rfl, same⟩ := taken
      cases same
      exact ⟨List.prefix_rfl, rfl⟩
    | cons character rest inductionHypothesis =>
      rw [takeBytes] at taken
      split at taken
      · rename_i none
        cases taken
        exact ⟨List.nil_prefix, none.symm⟩
      · split at taken
        · cases taken
        · rename_i some enough
          obtain ⟨further, takenToo, rfl⟩ := Option.map_eq_some_iff.mp taken
          obtain ⟨isFront, length⟩ := inductionHypothesis takenToo
          exact ⟨List.cons_prefix_cons.mpr ⟨rfl, isFront⟩, by rw [byteLength]; omega⟩
  · rintro ⟨⟨back, rfl⟩, rfl⟩
    exact takeBytes_append front back

theorem slice?_append (front middle back : List Char) :
    slice? (byteLength front) (byteLength (front ++ middle)) (front ++ middle ++ back) =
      some middle := by
  rw [slice?, List.append_assoc, dropBytes_append, Option.bind_some, byteLength_append,
    Nat.add_sub_cancel_left, takeBytes_append]

theorem characterAt?_append (front : List Char) (character : Char) (back : List Char) :
    characterAt? (byteLength front) (front ++ character :: back) = some character := by
  rw [characterAt?, dropBytes_append]
  rfl

theorem characterAt?_end (characters : List Char) :
    characterAt? (byteLength characters) characters = none := by
  have rest := dropBytes_append characters []
  rw [List.append_nil] at rest
  rw [characterAt?, rest]
  rfl

/-! ### Boundaries -/

/-- A character begins or the text ends at the offset, or the offset lies past the end. -/
def IsBoundary (characters : List Char) (offset : Nat) : Prop :=
  ∃ front, front <+: characters ∧ min offset (byteLength characters) = byteLength front

theorem isBoundary_iff {characters : List Char} {offset : Nat} : IsBoundary characters offset ↔
    (takeBytes (min offset (byteLength characters)) characters).isSome = true := by
  rw [Option.isSome_iff_exists]
  simp only [takeBytes_eq_some_iff]
  exact exists_congr fun front => and_congr_right fun _ => eq_comm

instance (characters : List Char) (offset : Nat) : Decidable (IsBoundary characters offset) :=
  decidable_of_iff _ isBoundary_iff.symm

section

variable {characters front middle back : List Char} {start between stop : Nat}

/-- The text between two offsets that count as the ends of what lies between them. -/
theorem clampedSlice_eq (parts : front ++ middle ++ back = characters)
    (starts : min start (byteLength characters) = byteLength front)
    (stops : min stop (byteLength characters) = byteLength (front ++ middle)) :
    clampedSlice start stop characters = middle := by
  have within : min start (byteLength (front ++ middle)) = byteLength front := by
    rw [byteLength_append] at stops ⊢
    omega
  unfold clampedSlice
  dsimp only
  rw [stops, within, ← parts, slice?_append, Option.getD_some]

/-- Nothing lies between two offsets that are the wrong way round. -/
theorem clampedSlice_of_le (reversed : stop ≤ start) : clampedSlice start stop characters = [] := by
  have same : min start (min stop (byteLength characters)) = min stop (byteLength characters) := by
    omega
  unfold clampedSlice
  dsimp only
  rw [same, slice?, Nat.sub_self]
  cases dropBytes (min stop (byteLength characters)) characters with
  | none => rfl
  | some rest => rw [Option.bind_some, takeBytes_zero, Option.getD_some]

/-- Two boundaries cut a text into three parts. -/
theorem exists_parts (isStart : IsBoundary characters start) (isStop : IsBoundary characters stop)
    (ordered : start ≤ stop) :
    ∃ front middle back, front ++ middle ++ back = characters ∧
      min start (byteLength characters) = byteLength front ∧
      min stop (byteLength characters) = byteLength (front ++ middle) := by
  obtain ⟨front, isFront, starts⟩ := isStart
  obtain ⟨through, isThrough, stops⟩ := isStop
  obtain ⟨middle, rfl⟩ := prefix_of_byteLength_le isFront isThrough (by omega)
  obtain ⟨back, parts⟩ := isThrough
  exact ⟨front, middle, back, parts, starts, stops⟩

/-- What lies between boundaries is joined where they meet. -/
theorem clampedSlice_append (isStart : IsBoundary characters start)
    (isBetween : IsBoundary characters between) (isStop : IsBoundary characters stop)
    (first : start ≤ between) (second : between ≤ stop) :
    clampedSlice start between characters ++ clampedSlice between stop characters =
      clampedSlice start stop characters := by
  obtain ⟨front, middle, rest, parts, starts, meets⟩ := exists_parts isStart isBetween first
  obtain ⟨through, further, back, partsToo, meetsToo, stops⟩ :=
    exists_parts isBetween isStop second
  have same : through = front ++ middle :=
    eq_of_prefix_of_byteLength_eq ⟨further ++ back, by rw [← List.append_assoc, partsToo]⟩
      ⟨rest, parts⟩ (meetsToo.symm.trans meets)
  subst same
  have joined : front ++ (middle ++ further) ++ back = characters := by
    rw [← List.append_assoc front, partsToo]
  rw [clampedSlice_eq parts starts meets, clampedSlice_eq partsToo meetsToo stops,
    clampedSlice_eq joined starts (by rw [stops, List.append_assoc])]

end

end Text

/-! ### Offsets of machine words -/

/-- Offsets that leave the sign bit clear are kept unchanged. -/
theorem TextRange.ofSpan_eq {start stop : Nat} (ordered : start ≤ stop) (fits : stop < 2 ^ 31) :
    ofSpan start stop = ⟨start, stop⟩ := by
  have kept {offset : Nat} (fits : offset < 2 ^ 31) : Int.bmod offset 0x100000000 = offset := by
    rw [Int.bmod_def]
    omega
  have startFits : start < 2 ^ 31 := by omega
  unfold ofSpan
  simp only [kept startFits, kept fits]

theorem TextRange.wordOfOffset_natCast {offset : Nat} (fits : offset < 2 ^ 31) :
    wordOfOffset offset = offset := by
  unfold wordOfOffset
  omega

/-! ### The text of a source -/

namespace Source

variable {source : Source}

/-- The offset is not negative, and it counts as one at which the pattern can be cut. -/
def IsBoundary (source : Source) (offset : Int) : Prop :=
  0 ≤ offset ∧ Text.IsBoundary source.text.toList offset.toNat

instance (source : Source) (offset : Int) : Decidable (source.IsBoundary offset) :=
  inferInstanceAs (Decidable (_ ∧ _))

theorem textAt_eq {beginning ending : Int} (begins : 0 ≤ beginning) (ends : 0 ≤ ending) :
    source.textAt ⟨beginning, ending⟩ =
      String.ofList (Text.clampedSlice beginning.toNat ending.toNat source.text.toList) := by
  have written : (⟨beginning, ending⟩ : TextRange).isUnwritten = false := by
    simp [TextRange.isUnwritten, begins, ends]
  rw [textAt, TextRange.span?, written]
  rfl

/-- The text of a range that ends where a part of the pattern does, and begins where it does. -/
theorem textAt_part {front middle back : List Char}
    (parts : front ++ middle ++ back = source.text.toList) :
    source.textAt ⟨Text.byteLength front, Text.byteLength (front ++ middle)⟩ =
      String.ofList middle := by
  rw [textAt_eq (by omega) (by omega), Text.clampedSlice_eq parts]
  · rw [Int.toNat_natCast, ← parts, List.append_assoc, Text.byteLength_append]
    omega
  · rw [Int.toNat_natCast, ← parts, Text.byteLength_append (front ++ middle)]
    omega

/-- The texts of two ranges that meet at a boundary make up the text of the range of both. -/
theorem textAt_append {first second third : Int} (isFirst : source.IsBoundary first)
    (isSecond : source.IsBoundary second) (isThird : source.IsBoundary third)
    (before : first ≤ second) (after : second ≤ third) :
    source.textAt ⟨first, second⟩ ++ source.textAt ⟨second, third⟩ =
      source.textAt ⟨first, third⟩ := by
  rw [textAt_eq isFirst.1 isSecond.1, textAt_eq isSecond.1 isThird.1,
    textAt_eq isFirst.1 isThird.1, ← String.ofList_append,
    Text.clampedSlice_append isFirst.2 isSecond.2 isThird.2 (Int.toNat_le_toNat before)
      (Int.toNat_le_toNat after)]

theorem textAt_of_le {beginning ending : Int} (begins : 0 ≤ beginning) (ends : 0 ≤ ending)
    (reversed : ending ≤ beginning) : source.textAt ⟨beginning, ending⟩ = "" := by
  rw [textAt_eq begins ends, Text.clampedSlice_of_le (Int.toNat_le_toNat reversed)]

/-- The character behind a front of the pattern is read at the byte length of the front. -/
theorem sourceCharacter_eq {front back : List Char} {character : Char}
    (parts : front ++ character :: back = source.text.toList)
    (fits : Text.byteLength front + character.utf8Size < 2 ^ 31) :
    source.sourceCharacter (Text.byteLength front) = .ok ⟨⟨Text.byteLength front,
      Text.byteLength front + character.utf8Size⟩, character, false⟩ := by
  rw [sourceCharacter, ← parts, Text.characterAt?_append]
  dsimp only
  rw [TextRange.ofSpan_eq (Nat.le_add_right _ _) fits, Int.natCast_add]

theorem sourceCharacter_end (source : Source) :
    source.sourceCharacter source.byteLength =
      .error (.noCharacter source.byteLength source.text) := by
  rw [sourceCharacter, byteLength, Text.characterAt?_end]

end Source

end PatternGraph
