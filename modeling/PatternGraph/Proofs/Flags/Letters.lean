/-
This file says what is lost when a flag set is written as inline letters and read back. The letters
of a set and the flags that a row of letters asks for go by one table, and still neither undoes the
other. A row may repeat letters and have them in any order, while a set lists them once in the order
of the table. The letter of the Unicode character classes asks for Unicode case as well, so a set
may have more letters than it was read from. Flags without a letter are lost, and so is who switched
a flag on.

All of this is a matter of which letters ask for a flag. A set that was read from a row has the
flags that some letter of the row asks for and no characters, so rows that ask for the same flags
are read as the same set, and the row that a set is written as asks for what the set was read from.
-/

import PatternGraph.Proofs.Flags.Cells

namespace PatternGraph

/-! ### The table of letters -/

/-- The letters of flags in the order in which they are listed. -/
def inlineLetters : List Char := ['d', 'i', 'x', 'm', 's', 'u', 'U']

/-- The flags that have letters. -/
def Flag.lettered : FlagMask := Flag.letters.foldr (fun entry mask => entry.2.mask ||| mask) 0#32

/-- Whether a letter asks for a flag. -/
def letterAsks (letter : Char) (position : Fin 32) : Bool :=
  (Flag.ofLetter? letter).any fun flag => asksFor flag.mask position

/-- The letters of a row once each and in order, with that of Unicode case if it is implied. -/
def listedLetters (row : List Char) : List Char :=
  inlineLetters.filter fun letter => letter ∈ row ∨ letter = 'u' ∧ 'U' ∈ row

theorem isSome_ofLetter?_iff {letter : Char} :
    (Flag.ofLetter? letter).isSome = true ↔ letter ∈ inlineLetters := by
  rw [Flag.ofLetter?, List.lookup_isSome_iff]
  simp [Flag.letters, inlineLetters]

theorem isNone_ofLetter?_iff {letter : Char} :
    (Flag.ofLetter? letter).isNone = true ↔ letter ∉ inlineLetters := by
  rw [← isSome_ofLetter?_iff]
  simp

theorem ofLetter?_of_mem {letter : Char} {flag : Flag} (listed : (letter, flag) ∈ Flag.letters) :
    Flag.ofLetter? letter = some flag := by
  have each : ∀ entry ∈ Flag.letters, Flag.ofLetter? entry.1 = some entry.2 := by decide
  exact each _ listed

/-- The bit of a flag asks for the flag, and that of the Unicode character classes for case too. -/
theorem asksFor_mask (flag : Flag) (position : Fin 32) :
    asksFor flag.mask position = (position == flag.position ||
      position == Flag.unicodeCase.position && flag == .unicodeCharacterClass) := by
  unfold asksFor
  rw [flag.mask_eq_twoPow, getLsb_twoPow, getLsb_twoPow]
  cases flag <;> rfl

theorem letterAsks_iff {letter : Char} {flag : Flag} (listed : (letter, flag) ∈ Flag.letters)
    {position : Fin 32} : letterAsks letter position = true ↔ position = flag.position ∨
      position = Flag.unicodeCase.position ∧ flag = .unicodeCharacterClass := by
  rw [letterAsks, ofLetter?_of_mem listed, Option.any_some, asksFor_mask, Bool.or_eq_true,
    Bool.and_eq_true, beq_iff_eq, beq_iff_eq, beq_iff_eq]

theorem getLsb_lettered (position : Fin 32) :
    Flag.lettered.getLsb position = Flag.letters.any fun entry => position == entry.2.position := by
  revert position
  decide

/-! ### Rows of letters -/

/-- A row has letters with a meaning only, or there is a first one without. -/
theorem known_or_exists_unknown (row : List Char) :
    (∀ letter ∈ row, letter ∈ inlineLetters) ∨ ∃ front unknown back,
      row = front ++ unknown :: back ∧ (∀ letter ∈ front, letter ∈ inlineLetters) ∧
        unknown ∉ inlineLetters := by
  induction row with
  | nil => exact .inl (List.forall_mem_nil _)
  | cons letter rest inductionHypothesis =>
    by_cases isKnown : letter ∈ inlineLetters
    · rcases inductionHypothesis with known | ⟨front, unknown, back, rfl, known, isUnknown⟩
      · exact .inl (List.forall_mem_cons.mpr ⟨isKnown, known⟩)
      · exact .inr ⟨letter :: front, unknown, back, rfl,
          List.forall_mem_cons.mpr ⟨isKnown, known⟩, isUnknown⟩
    · exact .inr ⟨[], letter, rest, rfl, List.forall_mem_nil _, isKnown⟩

/-- Of the letters with a meaning that of a flag asks for it, and `U` for the flag of `u` too. -/
theorem any_letterAsks_iff {row : List Char} (known : ∀ letter ∈ row, letter ∈ inlineLetters)
    {letter : Char} {flag : Flag} (listed : (letter, flag) ∈ Flag.letters) :
    row.any (letterAsks · flag.position) = true ↔ letter ∈ row ∨ letter = 'u' ∧ 'U' ∈ row := by
  have each : ∀ entry ∈ Flag.letters, inlineLetters.all (fun other =>
      letterAsks other entry.2.position = true ↔
        other = entry.1 ∨ entry.1 = 'u' ∧ other = 'U') = true := by decide
  have asks {other : Char} (member : other ∈ row) :=
    of_decide_eq_true (List.all_eq_true.mp (each _ listed) other (known other member))
  rw [List.any_eq_true]
  constructor
  · rintro ⟨other, member, asked⟩
    rcases (asks member).mp asked with rfl | ⟨rfl, rfl⟩
    · exact .inl member
    · exact .inr ⟨rfl, member⟩
  · rintro (member | ⟨rfl, member⟩)
    · exact ⟨letter, member, (asks member).mpr (.inl rfl)⟩
    · exact ⟨'U', member, (asks member).mpr (.inr ⟨rfl, rfl⟩)⟩

theorem mem_listedLetters_iff {row : List Char} {letter : Char} : letter ∈ listedLetters row ↔
    letter ∈ inlineLetters ∧ (letter ∈ row ∨ letter = 'u' ∧ 'U' ∈ row) := by
  rw [listedLetters, List.mem_filter, decide_eq_true_iff]

/-- Listing a row adds at most a letter whose flag is asked for already. -/
theorem any_letterAsks_listedLetters {row : List Char}
    (known : ∀ letter ∈ row, letter ∈ inlineLetters) (position : Fin 32) :
    row.any (letterAsks · position) = (listedLetters row).any (letterAsks · position) := by
  rw [Bool.eq_iff_iff, List.any_eq_true, List.any_eq_true]
  constructor
  · rintro ⟨letter, member, asked⟩
    exact ⟨letter, mem_listedLetters_iff.mpr ⟨known letter member, .inl member⟩, asked⟩
  · rintro ⟨letter, listed, asked⟩
    rcases (mem_listedLetters_iff.mp listed).2 with member | ⟨rfl, member⟩
    · exact ⟨letter, member, asked⟩
    · have implied : ∀ position, letterAsks 'u' position = true →
          letterAsks 'U' position = true := by decide
      exact ⟨'U', member, implied position asked⟩

theorem FlagCells.isOn_addLetters (row : List Char) (position : Fin 32) :
    (allOff.addLetters row position).isOn = row.any fun letter => letterAsks letter position := by
  unfold addLetters letterAsks
  split
  · rename_i asked
    exact asked.symm
  · rename_i unasked
    exact (Bool.eq_false_iff.mpr unasked).symm

theorem FlagCells.addLetters_congr {row other : List Char}
    (same : ∀ position, row.any (letterAsks · position) = other.any (letterAsks · position))
    (cells : FlagCells) : cells.addLetters row = cells.addLetters other := by
  funext position
  exact congrArg (fun asked => if asked then (cells position).switchedOn else cells position)
    (same position)

/-! ### Reading a row -/

theorem eq_of_getLsb {first second : FlagMask}
    (same : ∀ position : Fin 32, first.getLsb position = second.getLsb position) :
    first = second :=
  BitVec.eq_of_getLsbD_eq fun position isLt => same ⟨position, isLt⟩

namespace FlagSet

variable {flags : FlagSet} {letters : String}

/-- A set is determined by what it shows. -/
theorem Agrees.unique {other : FlagSet} {cells : FlagCells} (agrees : flags.Agrees cells)
    (agreesToo : other.Agrees cells) : flags = other := by
  have same := agrees_iff.mp agrees
  have sameToo := agrees_iff.mp agreesToo
  obtain ⟨mask, provenance⟩ := flags
  obtain ⟨otherMask, otherProvenance⟩ := other
  obtain rfl : mask = otherMask :=
    eq_of_getLsb fun position => (same position).1.trans (sameToo position).1.symm
  obtain rfl : provenance = otherProvenance :=
    Vector.ext fun index isLt => (same ⟨index, isLt⟩).2.trans (sameToo ⟨index, isLt⟩).2.symm
  rfl

theorem exists_ofLetters? (known : ∀ letter ∈ letters.toList, letter ∈ inlineLetters) :
    ∃ flags, ofLetters? letters = .ok flags ∧
      flags.Agrees (FlagCells.allOff.addLetters letters.toList) := by
  have noneUnknown : (letters.toList.find? fun letter => (Flag.ofLetter? letter).isNone) = none :=
    List.find?_eq_none.mpr fun letter member isNone =>
      isNone_ofLetter?_iff.mp isNone (known letter member)
  have mirrors := mirrors_ofLetters letters
  rw [FlagCells.ofLetters?, noneUnknown] at mirrors
  generalize ofLetters? letters = result at mirrors
  cases mirrors with
  | ok agrees => exact ⟨_, rfl, agrees⟩

theorem ofLetters?_of_unknown {front back : List Char} {unknown : Char}
    (parts : letters.toList = front ++ unknown :: back)
    (known : ∀ letter ∈ front, letter ∈ inlineLetters) (isUnknown : unknown ∉ inlineLetters) :
    ofLetters? letters = .error (.unknownFlag unknown) := by
  have found : (letters.toList.find? fun letter => (Flag.ofLetter? letter).isNone) =
      some unknown := by
    refine List.find?_eq_some_iff_append.mpr
      ⟨isNone_ofLetter?_iff.mpr isUnknown, front, back, parts, fun letter member => ?_⟩
    rw [Option.not_isNone]
    exact isSome_ofLetter?_iff.mpr (known letter member)
  have mirrors := mirrors_ofLetters letters
  rw [FlagCells.ofLetters?, found] at mirrors
  generalize ofLetters? letters = result at mirrors ⊢
  cases mirrors with
  | error fault => rfl

/-- A row of letters with a meaning is read as the set that has the flags they ask for. -/
theorem ofLetters?_eq_ok_iff : ofLetters? letters = .ok flags ↔
    (∀ letter ∈ letters.toList, letter ∈ inlineLetters) ∧
      flags.Agrees (FlagCells.allOff.addLetters letters.toList) := by
  constructor
  · intro read
    rcases known_or_exists_unknown letters.toList with
      known | ⟨front, unknown, back, parts, known, isUnknown⟩
    · obtain ⟨other, readToo, agrees⟩ := exists_ofLetters? known
      cases read.symm.trans readToo
      exact ⟨known, agrees⟩
    · cases read.symm.trans (ofLetters?_of_unknown parts known isUnknown)
  · rintro ⟨known, agrees⟩
    obtain ⟨other, read, agreesToo⟩ := exists_ofLetters? known
    rw [read, agrees.unique agreesToo]

theorem ofLetters?_eq_error_iff {fault : SyntaxFault} : ofLetters? letters = .error fault ↔
    ∃ front unknown back, letters.toList = front ++ unknown :: back ∧
      (∀ letter ∈ front, letter ∈ inlineLetters) ∧ unknown ∉ inlineLetters ∧
        fault = .unknownFlag unknown := by
  constructor
  · intro refused
    rcases known_or_exists_unknown letters.toList with
      known | ⟨front, unknown, back, parts, known, isUnknown⟩
    · obtain ⟨flags, read, -⟩ := exists_ofLetters? known
      cases refused.symm.trans read
    · cases refused.symm.trans (ofLetters?_of_unknown parts known isUnknown)
      exact ⟨front, unknown, back, parts, known, isUnknown, rfl⟩
  · rintro ⟨front, unknown, back, parts, known, isUnknown, rfl⟩
    exact ofLetters?_of_unknown parts known isUnknown

/-- Rows that ask for the same flags are read as the same set. -/
theorem ofLetters?_congr {other : String} (read : ofLetters? letters = .ok flags)
    (known : ∀ letter ∈ other.toList, letter ∈ inlineLetters)
    (same : ∀ position, letters.toList.any (letterAsks · position) =
      other.toList.any (letterAsks · position)) : ofLetters? other = .ok flags := by
  rw [ofLetters?_eq_ok_iff, FlagCells.addLetters_congr same] at read
  exact ofLetters?_eq_ok_iff.mpr ⟨known, read.2⟩

/-! ### The letters of a set -/

@[simp]
theorem toList_letters (flags : FlagSet) : flags.letters.toList =
    (Flag.letters.filter fun entry => flags.contains entry.2.mask).map Prod.fst := by
  rw [FlagSet.letters, String.toList_ofList]

theorem mem_letters_iff {letter : Char} : letter ∈ flags.letters.toList ↔
    ∃ flag, (letter, flag) ∈ Flag.letters ∧ flags.mask.getLsb flag.position = true := by
  simp [contains_mask]

theorem mem_inlineLetters_of_mem_letters (flags : FlagSet) :
    ∀ letter ∈ flags.letters.toList, letter ∈ inlineLetters := by
  intro letter member
  obtain ⟨flag, listed, -⟩ := mem_letters_iff.mp member
  exact isSome_ofLetter?_iff.mp (by rw [ofLetter?_of_mem listed, Option.isSome_some])

/-- A set that was read from a row has the letters of the row, listed. -/
theorem letters_eq_of_read (read : ofLetters? letters = .ok flags) :
    flags.letters = String.ofList (listedLetters letters.toList) := by
  obtain ⟨known, agrees⟩ := ofLetters?_eq_ok_iff.mp read
  have table : inlineLetters = Flag.letters.map Prod.fst := rfl
  rw [FlagSet.letters, listedLetters, table, List.filter_map]
  congr 2
  refine List.filter_congr fun entry listed => ?_
  rw [contains_mask, agrees.mask, FlagCells.isOn_addLetters, Bool.eq_iff_iff,
    any_letterAsks_iff known listed, Function.comp_apply, decide_eq_true_iff]

/-- The letters of a set ask for the flags of the set that have letters, and for case if the set has
the Unicode character classes. -/
theorem any_letterAsks_letters (flags : FlagSet) (position : Fin 32) :
    flags.letters.toList.any (letterAsks · position) =
      (flags.mask.getLsb position && Flag.lettered.getLsb position || position ==
        Flag.unicodeCase.position && flags.contains Flag.unicodeCharacterClass.mask) := by
  rw [Bool.eq_iff_iff, getLsb_lettered, contains_mask]
  simp only [Bool.or_eq_true, Bool.and_eq_true, List.any_eq_true, beq_iff_eq, mem_letters_iff]
  constructor
  · rintro ⟨letter, ⟨flag, listed, isOn⟩, asked⟩
    rcases (letterAsks_iff listed).mp asked with rfl | ⟨rfl, rfl⟩
    · exact .inl ⟨isOn, _, listed, rfl⟩
    · exact .inr ⟨rfl, isOn⟩
  · rintro (⟨isOn, ⟨letter, flag⟩, listed, rfl⟩ | ⟨rfl, isOn⟩)
    · exact ⟨letter, ⟨flag, listed, isOn⟩, (letterAsks_iff listed).mpr (.inl rfl)⟩
    · exact ⟨'U', ⟨.unicodeCharacterClass, by decide, isOn⟩, by decide⟩

end FlagSet

/-- Inline letters are read and written by one table. A row is read if all its letters have a
meaning, and otherwise the first that has none is refused. A set that was read has the letters of
the row, and that of Unicode case with that of the Unicode character classes, each once and in
order; it is what its own letters are read as, and every row of the same letters. Whatever else a
set came from, its letters are read, and give the flags of the set that have letters, with Unicode
case if the Unicode character classes are among them. -/
theorem letters_round_trip :
    (∀ letters : String,
      ((∃ flags, FlagSet.ofLetters? letters = .ok flags) ↔
        ∀ letter ∈ letters.toList, letter ∈ inlineLetters) ∧
      (∀ fault, FlagSet.ofLetters? letters = .error fault ↔
        ∃ front unknown back, letters.toList = front ++ unknown :: back ∧
          (∀ letter ∈ front, letter ∈ inlineLetters) ∧ unknown ∉ inlineLetters ∧
            fault = .unknownFlag unknown) ∧
      ∀ flags, FlagSet.ofLetters? letters = .ok flags →
        flags.letters = String.ofList (listedLetters letters.toList) ∧
        FlagSet.ofLetters? flags.letters = .ok flags ∧
        ∀ other : String, (∀ letter, letter ∈ other.toList ↔ letter ∈ letters.toList) →
          FlagSet.ofLetters? other = .ok flags) ∧
    ∀ flags : FlagSet, ∃ back, FlagSet.ofLetters? flags.letters = .ok back ∧
      back.mask = flags.mask &&& Flag.lettered |||
        if flags.contains Flag.unicodeCharacterClass.mask then Flag.unicodeCase.mask else 0#32 := by
  refine ⟨fun letters => ⟨?answered, fun fault => FlagSet.ofLetters?_eq_error_iff,
    fun flags read => ⟨FlagSet.letters_eq_of_read read, ?back, fun other same => ?other⟩⟩,
    fun flags => ?any⟩
  case answered =>
    constructor
    · rintro ⟨flags, read⟩
      exact (FlagSet.ofLetters?_eq_ok_iff.mp read).1
    · intro known
      obtain ⟨flags, read, -⟩ := FlagSet.exists_ofLetters? known
      exact ⟨flags, read⟩
  case back =>
    have known := (FlagSet.ofLetters?_eq_ok_iff.mp read).1
    refine FlagSet.ofLetters?_congr read flags.mem_inlineLetters_of_mem_letters ?_
    rw [FlagSet.letters_eq_of_read read, String.toList_ofList]
    exact any_letterAsks_listedLetters known
  case other =>
    have known := (FlagSet.ofLetters?_eq_ok_iff.mp read).1
    refine FlagSet.ofLetters?_congr read
      (fun letter member => known letter ((same letter).mp member)) fun position => ?_
    rw [Bool.eq_iff_iff, List.any_eq_true, List.any_eq_true]
    exact exists_congr fun letter => and_congr_left fun _ => (same letter).symm
  case any =>
    obtain ⟨back, read, agrees⟩ :=
      FlagSet.exists_ofLetters? flags.mem_inlineLetters_of_mem_letters
    refine ⟨back, read, eq_of_getLsb fun position => ?_⟩
    rw [agrees.mask, FlagCells.isOn_addLetters, FlagSet.any_letterAsks_letters]
    cases flags.contains Flag.unicodeCharacterClass.mask with
    | false => simp
    | true =>
      rw [if_pos rfl, Bool.and_true, Flag.mask_eq_twoPow, ← getLsb_twoPow]
      simp

/-- In `Uim` the letters are out of order, and that of Unicode case is missing. -/
theorem classes_letters_round_trip :
    ∃ flags, FlagSet.ofLetters? "Uim" = .ok flags ∧ flags.letters = "imuU" ∧
      FlagSet.ofLetters? flags.letters = .ok flags ∧ FlagSet.ofLetters? "mUiiU" = .ok flags := by
  obtain ⟨answered, -, known⟩ := letters_round_trip.1 "Uim"
  obtain ⟨flags, read⟩ := answered.mpr (by simp [inlineLetters])
  obtain ⟨listed, back, others⟩ := known flags read
  refine ⟨flags, read, listed.trans (by decide), back, others "mUiiU" fun letter => ?_⟩
  have same : letter ∈ ['m', 'U', 'i', 'i', 'U'] ↔ letter ∈ ['U', 'i', 'm'] := by grind
  exact same

end PatternGraph
